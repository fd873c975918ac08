import SensorPanel.Library.Buffer
import SensorPanel.Library.Rounding
import SensorPanel.Errno
import Mathlib.Data.Rat.Floor
import Mathlib.Tactic

/-!
# Reading a sample from a JSON document

cJSON is outside the repository: it turns a text into a tree or rejects it, and
its lookups return the first member of a name and the element of an index, of
nothing from nothing. A double is a rational or not finite; what a product or a
sum is rounded to is left open, but for being no further from the exact result
than zero is. A call has no result where it would read outside its text or
convert a value that does not fit.
-/

namespace SensorPanel

open Library

inductive Double
  | finite (q : ℚ)
  | infinite (negative : Bool)
  | nan
  deriving DecidableEq, Repr

/-- A tree of cJSON. Array elements carry no name. -/
inductive Json
  | null
  | bool (b : Bool)
  | number (valuedouble : Double)
  | string (text : Bytes)
  | array (items : List Json)
  | object (members : List (Bytes × Json))

namespace Json

def getObjectItem (node : Option Json) (name : Bytes) : Option Json :=
  match node with
  | some (object members) => (members.find? fun m => m.1 = name).map Prod.snd
  | _ => none

/-- `cJSON_GetArrayItem`; the children of an object count too. -/
def getArrayItem (node : Option Json) (index : ℕ) : Option Json :=
  match node with
  | some (array items) => items[index]?
  | some (object members) => members[index]?.map Prod.snd
  | _ => none

def isArray : Option Json → Bool
  | some (array _) => true
  | _ => false

end Json

/-- The arithmetic of doubles where nothing overflows: a result may be rounded,
but not further from the exact one than to zero. -/
structure DoubleArith where
  mul : ℚ → ℚ → ℚ
  add : ℚ → ℚ → ℚ
  mul_near : ∀ a b, |a * b| ≤ 2 ^ 64 → |mul a b - a * b| ≤ |a * b|
  add_near : ∀ a b, |a + b| ≤ 2 ^ 64 → |add a b - (a + b)| ≤ |a + b|

def DoubleArith.exact : DoubleArith where
  mul a b := a * b
  add a b := a + b
  mul_near a b _ := by simpa using abs_nonneg (a * b)
  add_near a b _ := by simp

/-- The conversion of a double to `int32_t`, defined where the result fits. -/
def toInt32 (q : ℚ) : Option Int32 :=
  if -2 ^ 31 ≤ truncate q ∧ truncate q < 2 ^ 31 then some (Int32.ofInt (truncate q)) else none

/-- Hundredths, rounded half away from zero by way of the sign. -/
def centiOf (arith : DoubleArith) (value : ℚ) : Option Int32 :=
  let scaled := arith.mul value 100
  toInt32 (arith.add scaled (if scaled < 0 then -1 / 2 else 1 / 2))

/-- A text cJSON is asked to parse, terminator included, and the tree it returns. -/
abbrev JsonParser := Bytes → Option Json

/-- What `sensor_json_parse` looks up in a document. -/
structure SampleNodes where
  things : Option Json
  values : Option Json
  value : Option Json

def sampleNodes (root : Json) : SampleNodes :=
  let things := Json.getObjectItem (some root) (ascii "things")
  let thing := Json.getArrayItem things 0
  let device := Json.getObjectItem thing (ascii "device")
  let values := Json.getObjectItem device (ascii "SensorValue")
  let sample := Json.getArrayItem values 0
  ⟨things, values, Json.getObjectItem sample (ascii "value")⟩

/-- The number `sensor_json_parse` converts: finite and of acceptable magnitude. -/
def acceptedValue (nodes : SampleNodes) : Option ℚ :=
  if Json.isArray nodes.things ∧ Json.isArray nodes.values then
    match nodes.value with
    | some (.number (.finite q)) => if |q| ≤ 100000 then some q else none
    | _ => none
  else none

/-- `sensor_json_parse` on the memory at `json`, NULL or readable so far: its
result, and what it writes to `centi_value`. -/
def sensorJsonParse (parser : JsonParser) (arith : DoubleArith) (json : Option Bytes)
    (length : ℕ) (centiValue : Bool) : Option (ℤ × Option Int32) :=
  match json with
  | none => some (-EINVAL, none)
  | some json =>
    if ¬ centiValue ∨ length = 0 ∨ 4095 < length then some (-EINVAL, none)
    else json[length]?.bind fun terminator =>
      if terminator ≠ 0 ∨ 0 ∈ json.take length then some (-EINVAL, none)
      else
        match parser (json.take (length + 1)) with
        | none => some (-EBADMSG, none)
        | some root =>
          match acceptedValue (sampleNodes root) with
          | none => some (-EBADMSG, none)
          | some value => (centiOf arith value).map fun centi => (0, some centi)

/-- `sensor_json_parse` returns 0 for this text and writes this value. -/
def ParsesTo (parser : JsonParser) (arith : DoubleArith) (text : Bytes) (centi : Int32) : Prop :=
  sensorJsonParse parser arith (some (text ++ [0])) text.length true = some (0, some centi)

theorem acceptedValue_le {nodes : SampleNodes} {q : ℚ} (h : acceptedValue nodes = some q) :
    |q| ≤ 100000 := by
  unfold acceptedValue at h
  split_ifs at h with harrays
  split at h
  · split_ifs at h with hle
    obtain rfl := Option.some.inj h
    exact hle
  · exact absurd h (by simp)

theorem centiOf_eq {arith : DoubleArith} {value : ℚ} {n : ℤ} (hl : -2 ^ 31 ≤ n) (hu : n < 2 ^ 31)
    (h : truncate (arith.add (arith.mul value 100)
      (if arith.mul value 100 < 0 then -1 / 2 else 1 / 2)) = n) :
    centiOf arith value = some (Int32.ofInt n) := by
  subst h
  exact if_pos ⟨hl, hu⟩

theorem abs_hundredths_le {q : ℚ} (h : |q| ≤ 100000) : |q * 100| ≤ 10000000 := by
  rw [abs_mul]
  norm_num
  linarith

/-- An accepted number converts without leaving `int32_t`, however it is rounded. -/
theorem centiOf_isSome (arith : DoubleArith) {q : ℚ} (h : |q| ≤ 100000) :
    ∃ centi, centiOf arith q = some centi := by
  have hprod := abs_hundredths_le h
  set scaled := arith.mul q 100
  have hmul := arith.mul_near q 100 (hprod.trans (by norm_num))
  have hle : |scaled| ≤ 2 * 10 ^ 7 := by
    have htri := abs_sub_abs_le_abs_sub scaled (q * 100)
    linarith
  set offset : ℚ := if scaled < 0 then -1 / 2 else 1 / 2 with hoffset
  have hsum : |scaled + offset| ≤ 2 * 10 ^ 7 + 1 / 2 := by
    apply (abs_add_le _ _).trans (add_le_add hle _)
    rw [hoffset]
    split_ifs <;> norm_num [abs_le]
  have hadd := arith.add_near scaled offset (hsum.trans (by norm_num))
  have hresult : |arith.add scaled offset| ≤ 4 * 10 ^ 7 + 1 := by
    have htri := abs_sub_abs_le_abs_sub (arith.add scaled offset) (scaled + offset)
    linarith
  have htrunc : |truncate (arith.add scaled offset)| ≤ 4 * 10 ^ 7 + 1 := by
    have hle := (abs_truncate_le _).trans hresult
    exact_mod_cast hle
  obtain ⟨hl, hu⟩ := abs_le.mp htrunc
  exact ⟨_, centiOf_eq (n := truncate (arith.add scaled offset)) (by omega) (by omega) rfl⟩

variable {parser : JsonParser} {arith : DoubleArith}

theorem sensorJsonParse_take {json text : Bytes} (h : json.take (text.length + 1) = text ++ [0])
    (centiValue : Bool) : sensorJsonParse parser arith (some json) text.length centiValue =
      sensorJsonParse parser arith (some (text ++ [0])) text.length centiValue := by
  have hget : json[text.length]? = (text ++ [0])[text.length]? := by
    rw [← h, List.getElem?_take_of_lt (Nat.lt_succ_self _)]
  have htext : json.take text.length = (text ++ [0]).take text.length := by
    rw [← h, List.take_take, Nat.min_eq_left (Nat.le_succ _)]
  have hall : (text ++ [0]).take (text.length + 1) = text ++ [0] :=
    List.take_of_length_le (by simp)
  simp only [sensorJsonParse, hget, htext, h, hall]

theorem sensorJsonParse_terminated (parser : JsonParser) (arith : DoubleArith) (text : Bytes) :
    sensorJsonParse parser arith (some (text ++ [0])) text.length true =
      if text.length = 0 ∨ 4095 < text.length ∨ 0 ∈ text then some (-EINVAL, none)
      else match (parser (text ++ [0])).bind fun root => acceptedValue (sampleNodes root) with
        | none => some (-EBADMSG, none)
        | some value => (centiOf arith value).map fun centi => (0, some centi) := by
  have hend : (text ++ [0])[text.length]? = some 0 := by simp
  have hall : (text ++ [0]).take (text.length + 1) = text ++ [0] :=
    List.take_of_length_le (by simp)
  simp only [sensorJsonParse, hend, hall, Option.bind_some, List.take_left]
  by_cases hlen : text.length = 0 ∨ 4095 < text.length
  · rw [if_pos (Or.inr hlen), if_pos (by tauto)]
  · rw [if_neg (by simpa using hlen)]
    by_cases hnul : (0 : UInt8) ∈ text
    · rw [if_pos (Or.inr hnul), if_pos (Or.inr (Or.inr hnul))]
    · rw [if_neg (by simp [hnul]), if_neg (by tauto)]
      cases parser (text ++ [0]) <;> rfl

theorem sensorJsonParse_text (parser : JsonParser) (arith : DoubleArith) (text : Bytes) :
    (∃ centi, ParsesTo parser arith text centi) ∨
      ∃ err, err < 0 ∧
        sensorJsonParse parser arith (some (text ++ [0])) text.length true = some (err, none) := by
  unfold ParsesTo
  rw [sensorJsonParse_terminated]
  split_ifs with hbad
  · exact Or.inr ⟨-EINVAL, by decide, rfl⟩
  · cases hvalue : (parser (text ++ [0])).bind fun root => acceptedValue (sampleNodes root) with
    | none => exact Or.inr ⟨-EBADMSG, by decide, rfl⟩
    | some q =>
      obtain ⟨root, -, hq⟩ := Option.bind_eq_some_iff.mp hvalue
      obtain ⟨centi, hcenti⟩ := centiOf_isSome arith (acceptedValue_le hq)
      exact Or.inl ⟨centi, by simp only [hcenti, Option.map_some]⟩

end SensorPanel
