import SensorPanel.Sensor.SensorJson

/-!
# The documents that hold a sample

Only two of the containers on the way to the number are checked to be arrays.
That the others are objects follows from the lookups: a name is carried by the
members of an object alone. What is accepted is stated here without the lookups,
and so is the integer that is written, in exact arithmetic and with rounding.
-/

namespace SensorPanel

open Library

namespace Json

def children : Json → List (Option Bytes × Json)
  | array items => items.map fun item => (none, item)
  | object members => members.map fun m => (some m.1, m.2)
  | _ => []

/-- A member lookup returns the first child that carries the name. -/
theorem getObjectItem_eq (node : Json) (name : Bytes) : getObjectItem (some node) name =
    (node.children.find? fun c => c.1 = some name).map Prod.snd := by
  cases node with
  | array items =>
    have hnone : items.find? (fun _ => false) = none := List.find?_eq_none.mpr (by simp)
    simp [getObjectItem, children, List.find?_map, hnone]
  | object members => simp [getObjectItem, children, List.find?_map, Function.comp_def]
  | _ => rfl

/-- An element lookup returns the child at the index, whatever its container. -/
theorem getArrayItem_eq (node : Json) (index : ℕ) :
    getArrayItem (some node) index = node.children[index]?.map Prod.snd := by
  cases node with
  | array items => simp [getArrayItem, children, Function.comp_def]
  | object members => simp [getArrayItem, children, Function.comp_def]
  | _ => simp [getArrayItem, children]

/-- An object whose first member of this name is `value`. -/
def FirstMember (name : Bytes) (node value : Json) : Prop :=
  ∃ before after, node = object (before ++ (name, value) :: after) ∧ ∀ m ∈ before, m.1 ≠ name

/-- An array that begins with `value`. -/
def FirstElement (node value : Json) : Prop := ∃ rest, node = array (value :: rest)

variable {node : Option Json} {name : Bytes} {value : Json}

theorem getObjectItem_eq_some_iff : getObjectItem node name = some value ↔
    ∃ n, node = some n ∧ FirstMember name n value := by
  constructor
  · intro h
    cases node with
    | none => simp [getObjectItem] at h
    | some n =>
      cases n with
      | object members =>
        obtain ⟨m, hfind, rfl⟩ := Option.map_eq_some_iff.mp h
        obtain ⟨hname, before, after, rfl, hbefore⟩ := List.find?_eq_some_iff_append.mp hfind
        obtain rfl : m.1 = name := by simpa using hname
        exact ⟨_, rfl, before, after, rfl, fun x hx => by simpa using hbefore x hx⟩
      | _ => simp [getObjectItem] at h
  · rintro ⟨n, rfl, before, after, rfl, hbefore⟩
    refine Option.map_eq_some_iff.mpr ⟨(name, value), ?_, rfl⟩
    exact List.find?_eq_some_iff_append.mpr
      ⟨by simp, before, after, rfl, fun x hx => by simpa using hbefore x hx⟩

theorem getArrayItem_zero_eq_some_iff :
    isArray node = true ∧ getArrayItem node 0 = some value ↔
      ∃ n, node = some n ∧ FirstElement n value := by
  constructor
  · rintro ⟨harray, hitem⟩
    cases node with
    | none => simp [isArray] at harray
    | some n =>
      cases n with
      | array items =>
        cases items with
        | nil => simp [getArrayItem] at hitem
        | cons first rest =>
          obtain rfl : first = value := by simpa [getArrayItem] using hitem
          exact ⟨_, rfl, rest, rfl⟩
      | _ => simp [isArray] at harray
  · rintro ⟨n, rfl, rest, rfl⟩
    exact ⟨rfl, rfl⟩

/-- The shape of a sample document with the number `q`: each container on the way
is the first of its name or the first element. -/
def HoldsSample (root : Json) (q : ℚ) : Prop :=
  ∃ things thing device values sample,
    FirstMember (ascii "things") root things ∧ FirstElement things thing ∧
    FirstMember (ascii "device") thing device ∧
    FirstMember (ascii "SensorValue") device values ∧ FirstElement values sample ∧
    FirstMember (ascii "value") sample (number (.finite q)) ∧ |q| ≤ 100000

theorem HoldsSample.magnitude {root : Json} {q : ℚ} (h : root.HoldsSample q) :
    |q| ≤ 100000 := by
  obtain ⟨_, _, _, _, _, -, -, -, -, -, -, hle⟩ := h
  exact hle

end Json

theorem acceptedValue_eq_some_iff {nodes : SampleNodes} {q : ℚ} :
    acceptedValue nodes = some q ↔ (Json.isArray nodes.things = true ∧
      Json.isArray nodes.values = true) ∧ nodes.value = some (.number (.finite q)) ∧
      |q| ≤ 100000 := by
  constructor
  · intro h
    have hle := acceptedValue_le h
    unfold acceptedValue at h
    split_ifs at h with harrays
    split at h
    · split_ifs at h with hmagnitude
      obtain rfl := Option.some.inj h
      exact ⟨harrays, by assumption, hle⟩
    · exact absurd h (by simp)
  · rintro ⟨harrays, hvalue, hle⟩
    rw [acceptedValue, if_pos harrays, hvalue]
    exact if_pos hle

/-- The lookups and the two checks accept exactly the sample documents. -/
theorem acceptedValue_sampleNodes_iff {root : Json} {q : ℚ} :
    acceptedValue (sampleNodes root) = some q ↔ root.HoldsSample q := by
  rw [acceptedValue_eq_some_iff]
  constructor
  · rintro ⟨⟨hthings, hvalues⟩, hvalue, hle⟩
    obtain ⟨sample, hsample, hnumber⟩ := Json.getObjectItem_eq_some_iff.mp hvalue
    obtain ⟨values, hvalues', hfirst⟩ := Json.getArrayItem_zero_eq_some_iff.mp ⟨hvalues, hsample⟩
    obtain ⟨device, hdevice, hmember⟩ := Json.getObjectItem_eq_some_iff.mp hvalues'
    obtain ⟨thing, hthing, hmember'⟩ := Json.getObjectItem_eq_some_iff.mp hdevice
    obtain ⟨things, hthings', hfirst'⟩ := Json.getArrayItem_zero_eq_some_iff.mp ⟨hthings, hthing⟩
    obtain ⟨_, hroot, hmember''⟩ := Json.getObjectItem_eq_some_iff.mp hthings'
    obtain rfl := Option.some.inj hroot
    exact ⟨things, thing, device, values, sample, hmember'', hfirst', hmember', hmember, hfirst,
      hnumber, hle⟩
  · rintro ⟨things, thing, device, values, sample, hthings, hthing, hdevice, hvalues, hsample,
      hnumber, hle⟩
    have h₁ := Json.getObjectItem_eq_some_iff.mpr ⟨root, rfl, hthings⟩
    have h₂ := Json.getArrayItem_zero_eq_some_iff.mpr ⟨things, rfl, hthing⟩
    have h₃ := Json.getObjectItem_eq_some_iff.mpr ⟨thing, rfl, hdevice⟩
    have h₄ := Json.getObjectItem_eq_some_iff.mpr ⟨device, rfl, hvalues⟩
    have h₅ := Json.getArrayItem_zero_eq_some_iff.mpr ⟨values, rfl, hsample⟩
    have h₆ := Json.getObjectItem_eq_some_iff.mpr ⟨sample, rfl, hnumber⟩
    simp only [sampleNodes, h₁, h₂.2, h₃, h₄, h₅.2, h₆]
    exact ⟨⟨h₂.1, h₅.1⟩, trivial, hle⟩

/-- The product and the sum made from this value are not rounded. -/
structure DoubleArith.ExactAt (arith : DoubleArith) (q : ℚ) : Prop where
  mul_eq : arith.mul q 100 = q * 100
  add_eq : arith.add (q * 100) (if q * 100 < 0 then -1 / 2 else 1 / 2) =
    q * 100 + if q * 100 < 0 then -1 / 2 else 1 / 2

theorem DoubleArith.exact_exactAt (q : ℚ) : DoubleArith.exact.ExactAt q := ⟨rfl, rfl⟩

theorem centiOf_truncate {arith : DoubleArith} {q : ℚ} {n : ℤ} (hbound : |n| ≤ 10000001)
    (h : truncate (arith.add (arith.mul q 100) (if arith.mul q 100 < 0 then -1 / 2 else 1 / 2)) =
      n) : ∃ centi, centiOf arith q = some centi ∧ centi.toInt = n := by
  obtain ⟨hl, hu⟩ := abs_le.mp hbound
  exact ⟨Int32.ofInt n, centiOf_eq (by omega) (by omega) h,
    Int32.toInt_ofInt_of_le (by omega) (by omega)⟩

/-- Hundredths of an accepted number are the nearest integer, ties away from zero. -/
theorem centiOf_nearest {arith : DoubleArith} {q : ℚ} (hq : |q| ≤ 100000) (h : arith.ExactAt q) :
    ∃ centi, centiOf arith q = some centi ∧ NearestAway (q * 100) centi.toInt ∧
      |centi.toInt| ≤ 10000000 := by
  set n := truncate (q * 100 + if q * 100 < 0 then -1 / 2 else 1 / 2) with hn
  have hnear : NearestAway (q * 100) n := nearestAway_truncate _
  have hbound : |n| ≤ 10000000 := hnear.abs_le (by exact_mod_cast abs_hundredths_le hq)
  obtain ⟨centi, hcenti, htoInt⟩ := centiOf_truncate (hbound.trans (by norm_num))
    (by rw [h.mul_eq, h.add_eq, hn])
  exact ⟨centi, hcenti, by rwa [htoInt], by rwa [htoInt]⟩

/-- The product and the sum made from this value are rounded as doubles are. -/
structure DoubleArith.RoundsAt (arith : DoubleArith) (q : ℚ) : Prop where
  mul_near : WithinRel (1 / 2 ^ 52) (q * 100) (arith.mul q 100)
  add_near : WithinRel (1 / 2 ^ 52)
    (arith.mul q 100 + if arith.mul q 100 < 0 then -1 / 2 else 1 / 2)
    (arith.add (arith.mul q 100) (if arith.mul q 100 < 0 then -1 / 2 else 1 / 2))

/-- Rounding moves the sum that is truncated by less than `2 ^ -27`. -/
theorem DoubleArith.RoundsAt.sum_near {arith : DoubleArith} {q : ℚ} (h : arith.RoundsAt q)
    (hq : |q| ≤ 100000) :
    |arith.add (arith.mul q 100) (if arith.mul q 100 < 0 then -1 / 2 else 1 / 2) -
      (q * 100 + if q * 100 < 0 then -1 / 2 else 1 / 2)| ≤ 1 / 2 ^ 27 := by
  have hprod := abs_hundredths_le hq
  -- The product has the sign of the value, so the half is put on the right side.
  have hsign : arith.mul q 100 < 0 ↔ q * 100 < 0 := by
    constructor
    · intro hneg
      by_contra hpos
      exact absurd (h.mul_near.nonneg (by norm_num) (not_lt.mp hpos)) (not_le.mpr hneg)
    · exact h.mul_near.neg_of_neg (by norm_num)
  have hmul : |arith.mul q 100 - q * 100| ≤ 1 / 2 ^ 52 * 10000000 :=
    h.mul_near.abs_sub_le_of_le (by norm_num) hprod
  have hadd := h.add_near
  simp only [hsign] at hadd ⊢
  set half : ℚ := if q * 100 < 0 then -1 / 2 else 1 / 2 with hhalf
  set scaled := arith.mul q 100
  have hsum : |scaled + half| ≤ 10000001 := by
    have hle : |half| ≤ 1 / 2 := by
      rw [hhalf]
      split_ifs <;> norm_num [abs_le]
    have htri := abs_add_le scaled half
    have htri' := abs_sub_abs_le_abs_sub scaled (q * 100)
    norm_num at hmul
    linarith
  have hlast : |arith.add scaled half - (scaled + half)| ≤ 1 / 2 ^ 52 * 10000001 :=
    hadd.abs_sub_le_of_le (by norm_num) hsum
  have htri := abs_sub_le (arith.add scaled half) (scaled + half) (q * 100 + half)
  rw [add_sub_add_right_eq_sub] at htri
  norm_num at hmul hlast ⊢
  linarith

/-- With rounded products and sums the hundredths are off by at most half a unit
and the error, and they are the nearest integer but next to a tie. -/
theorem centiOf_near {arith : DoubleArith} {q : ℚ} (hq : |q| ≤ 100000) (h : arith.RoundsAt q) :
    ∃ centi, centiOf arith q = some centi ∧ |q * 100 - centi.toInt| ≤ 1 / 2 + 1 / 2 ^ 27 ∧
      ((∀ m : ℤ, 1 / 2 ^ 27 < |q * 100 - (m + 1 / 2)|) → NearestAway (q * 100) centi.toInt) := by
  set n := truncate
    (arith.add (arith.mul q 100) (if arith.mul q 100 < 0 then -1 / 2 else 1 / 2)) with hn
  have hnear : |q * 100 - n| ≤ 1 / 2 + 1 / 2 ^ 27 :=
    abs_sub_truncate_le (by norm_num) (h.sum_near hq)
  have hbound : |n| ≤ 10000001 := by
    have hprod := abs_hundredths_le hq
    have htri := abs_sub_abs_le_abs_sub (n : ℚ) (q * 100)
    rw [abs_sub_comm] at htri
    have hle : |(n : ℚ)| ≤ 10000001 := by
      norm_num at hnear
      linarith
    exact_mod_cast hle
  obtain ⟨centi, hcenti, htoInt⟩ := centiOf_truncate hbound hn.symm
  refine ⟨centi, hcenti, ?_, ?_⟩
  · rwa [htoInt]
  · intro hclear
    rw [htoInt]
    exact nearestAway_of_clear hnear hclear

/-- A text of 1 to 4095 bytes, without NUL and terminated at its length. -/
structure PointsTo (json : Bytes) (length : ℕ) (text : Bytes) : Prop where
  terminated : json.take (text.length + 1) = text ++ [0]
  length_eq : text.length = length
  pos : 1 ≤ text.length
  le : text.length ≤ 4095
  noNul : (0 : UInt8) ∉ text

variable {parser : JsonParser} {arith : DoubleArith}

theorem PointsTo.passes {json text : Bytes} {length : ℕ} (h : PointsTo json length text) :
    ¬ (text.length = 0 ∨ 4095 < text.length ∨ 0 ∈ text) := by
  have hpos := h.pos
  have hle := h.le
  rintro (hzero | hlong | hnul)
  · omega
  · omega
  · exact h.noNul hnul

theorem sensorJsonParse_of_holds {json text : Bytes} {length : ℕ} (h : PointsTo json length text)
    {root : Json} (hparse : parser (text ++ [0]) = some root) {q : ℚ} (hq : root.HoldsSample q) :
    sensorJsonParse parser arith (some json) length true =
      (centiOf arith q).map fun centi => (0, some centi) := by
  rw [← h.length_eq, sensorJsonParse_take h.terminated, sensorJsonParse_terminated,
    if_neg h.passes, hparse, Option.bind_some, acceptedValue_sampleNodes_iff.mpr hq]

theorem sensorJsonParse_of_not_holds {json text : Bytes} {length : ℕ}
    (h : PointsTo json length text)
    (hnone : ∀ root q, parser (text ++ [0]) = some root → ¬ root.HoldsSample q) :
    sensorJsonParse parser arith (some json) length true = some (-EBADMSG, none) := by
  have hvalue : ((parser (text ++ [0])).bind fun root => acceptedValue (sampleNodes root)) =
      none := by
    rw [Option.bind_eq_none_iff]
    intro root hroot
    rw [Option.eq_none_iff_forall_ne_some]
    exact fun q hq => hnone root q hroot (acceptedValue_sampleNodes_iff.mp hq)
  rw [← h.length_eq, sensorJsonParse_take h.terminated, sensorJsonParse_terminated,
    if_neg h.passes, hvalue]

theorem sensorJsonParse_invalid {json : Bytes} {length : ℕ} {centiValue : Bool}
    (hread : length < json.length)
    (h : ¬ (centiValue = true ∧ ∃ text, PointsTo json length text)) :
    sensorJsonParse parser arith (some json) length centiValue = some (-EINVAL, none) := by
  simp only [sensorJsonParse, List.getElem?_eq_getElem hread, Option.bind_some]
  by_cases hcheck : ¬ centiValue = true ∨ length = 0 ∨ 4095 < length
  · rw [if_pos hcheck]
  · rw [if_neg hcheck, if_pos]
    by_contra hnone
    rw [not_or, not_not] at hcheck hnone
    have hlen := List.length_take_of_le hread.le
    refine h ⟨hcheck.1, json.take length, ?_, hlen, by omega, by omega, hnone.2⟩
    rw [hlen, List.take_succ_eq_append_getElem hread, hnone.1]

/-- The memory holds a text that the parser turns into a sample document with `q`. -/
def HoldsDocument (parser : JsonParser) (json : Option Bytes) (length : ℕ) (q : ℚ) : Prop :=
  ∃ bytes text root, json = some bytes ∧ PointsTo bytes length text ∧
    parser (text ++ [0]) = some root ∧ root.HoldsSample q

theorem PointsTo.text_eq {json text : Bytes} {length : ℕ} (h : PointsTo json length text) :
    text = json.take length := by
  have htake := congrArg (List.take length) h.terminated
  have hle : length ≤ text.length + 1 := h.length_eq.ge.trans (Nat.le_succ _)
  rw [List.take_take, Nat.min_eq_left hle, ← h.length_eq, List.take_left] at htake
  rw [← h.length_eq, htake]

theorem PointsTo.holdsDocument_iff {json text : Bytes} {length : ℕ} (h : PointsTo json length text)
    {q : ℚ} : HoldsDocument parser (some json) length q ↔
      ∃ root, parser (text ++ [0]) = some root ∧ root.HoldsSample q := by
  constructor
  · rintro ⟨json', text', root, hjson, htext', hparse, hq⟩
    obtain rfl := Option.some.inj hjson
    obtain rfl : text = text' := h.text_eq.trans htext'.text_eq.symm
    exact ⟨root, hparse, hq⟩
  · rintro ⟨root, hparse, hq⟩
    exact ⟨json, text, root, rfl, h, hparse, hq⟩

theorem Json.HoldsSample.unique {root : Json} {q r : ℚ} (hq : root.HoldsSample q)
    (hr : root.HoldsSample r) : q = r := by
  rw [← acceptedValue_sampleNodes_iff] at hq hr
  exact Option.some.inj (hq.symm.trans hr)

theorem HoldsDocument.unique {json : Option Bytes} {length : ℕ} {q r : ℚ}
    (h : HoldsDocument parser json length q) (hr : HoldsDocument parser json length r) : q = r := by
  obtain ⟨bytes, text, root, rfl, htext, hparse, hq⟩ := h
  obtain ⟨root', hparse', hr⟩ := htext.holdsDocument_iff.mp hr
  obtain rfl := Option.some.inj (hparse.symm.trans hparse')
  exact hq.unique hr

/-- What a call returns and writes, by the shape of its document. Exact arithmetic
gives the nearest integer; where the product and the sum are rounded, the integer
is near, and still the nearest unless 100 times the number is close to a tie. -/
structure ReadsByShape (parser : JsonParser) (arith : DoubleArith) (json : Option Bytes)
    (length : ℕ) (centiValue : Bool) (err : ℤ) (written : Option Int32) : Prop where
  accepts_iff : err = 0 ↔ centiValue = true ∧ ∃ q, HoldsDocument parser json length q
  accepted : ∀ q, centiValue = true → HoldsDocument parser json length q →
    ∃ centi, written = some centi ∧
      (arith.ExactAt q →
        (∀ n, NearestAway (q * 100) n ↔ n = centi.toInt) ∧ |centi.toInt| ≤ 10000000) ∧
      (arith.RoundsAt q → |q * 100 - centi.toInt| ≤ 1 / 2 + 1 / 2 ^ 27 ∧
        ((∀ m : ℤ, 1 / 2 ^ 27 < |q * 100 - (m + 1 / 2)|) → NearestAway (q * 100) centi.toInt))
  refused : err ≠ 0 → err < 0 ∧ written = none

theorem readsByShape_refused {json : Option Bytes} {length : ℕ} {centiValue : Bool} {err : ℤ}
    (herr : err < 0) (h : ¬ (centiValue = true ∧ ∃ q, HoldsDocument parser json length q)) :
    ReadsByShape parser arith json length centiValue err none where
  accepts_iff := iff_of_false herr.ne h
  accepted q hcenti hq := absurd ⟨hcenti, q, hq⟩ h
  refused _ := ⟨herr, rfl⟩

theorem readsByShape_accepted {json : Option Bytes} {length : ℕ} {q : ℚ} {centi : Int32}
    (h : HoldsDocument parser json length q) (hq : |q| ≤ 100000)
    (hcenti : centiOf arith q = some centi) :
    ReadsByShape parser arith json length true 0 (some centi) where
  accepts_iff := iff_of_true rfl ⟨rfl, q, h⟩
  accepted r _ hr := by
    obtain rfl := h.unique hr
    refine ⟨centi, rfl, fun hexact => ?_, fun hrounds => ?_⟩
    · obtain ⟨centi', hcenti', hnear, hbound⟩ := centiOf_nearest hq hexact
      obtain rfl := Option.some.inj (hcenti.symm.trans hcenti')
      exact ⟨fun n => ⟨fun hn => hn.unique hnear, fun hn => hn ▸ hnear⟩, hbound⟩
    · obtain ⟨centi', hcenti', hnear⟩ := centiOf_near hq hrounds
      obtain rfl := Option.some.inj (hcenti.symm.trans hcenti')
      exact hnear
  refused h := absurd rfl h

/-- `sensor_json_parse` accepts exactly the sample documents. Whatever tree the
parser returns, the call returns 0 if the text is one and the tree has the shape,
and writes the hundredths rounded to the nearest integer, ties away from zero;
otherwise it returns an error and writes nothing. -/
theorem sensor_json_accepts_shape (parser : JsonParser) (arith : DoubleArith)
    {json : Option Bytes} {length : ℕ}
    (hread : ∀ bytes, json = some bytes → length < bytes.length) (centiValue : Bool) :
    ∃ err written, sensorJsonParse parser arith json length centiValue = some (err, written) ∧
      ReadsByShape parser arith json length centiValue err written := by
  cases json with
  | none =>
    refine ⟨-EINVAL, none, rfl, readsByShape_refused (by decide) ?_⟩
    rintro ⟨-, q, bytes, text, root, hnone, -⟩
    cases hnone
  | some json =>
    by_cases htext : centiValue = true ∧ ∃ text, PointsTo json length text
    · obtain ⟨rfl, text, htext⟩ := htext
      by_cases hholds : ∃ q root, parser (text ++ [0]) = some root ∧ root.HoldsSample q
      · obtain ⟨q, root, hparse, hq⟩ := hholds
        obtain ⟨centi, hcenti⟩ := centiOf_isSome arith hq.magnitude
        refine ⟨0, some centi, ?_, ?_⟩
        · rw [sensorJsonParse_of_holds htext hparse hq, hcenti, Option.map_some]
        · have hdocument := htext.holdsDocument_iff.mpr ⟨root, hparse, hq⟩
          exact readsByShape_accepted hdocument hq.magnitude hcenti
      · refine ⟨-EBADMSG, none, sensorJsonParse_of_not_holds htext ?_,
          readsByShape_refused (by decide) ?_⟩
        · exact fun root q hparse hq => hholds ⟨q, root, hparse, hq⟩
        · rintro ⟨-, q, hq⟩
          exact hholds ⟨q, htext.holdsDocument_iff.mp hq⟩
    · refine ⟨-EINVAL, none, sensorJsonParse_invalid (hread json rfl) htext,
        readsByShape_refused (by decide) ?_⟩
      rintro ⟨hcenti, q, bytes, text, root, hbytes, hpoints, -⟩
      obtain rfl := Option.some.inj hbytes
      exact htext ⟨hcenti, text, hpoints⟩

/-- The document of the repository's test, with the number -12.25. -/
def testDocument : Bytes :=
  ascii "\x7b\"things\":[\x7b\"device\":\x7b\"SensorValue\":[\x7b\"value\":-12.25\x7d]\x7d\x7d]\x7d"

def testTree : Json :=
  .object [(ascii "things", .array [.object [(ascii "device", .object
    [(ascii "SensorValue", .array [.object
      [(ascii "value", .number (.finite (-49 / 4)))]])])]])]

def testParser : JsonParser := fun text =>
  if text = testDocument ++ [0] then some testTree else none

theorem testTree_holdsSample : testTree.HoldsSample (-49 / 4) :=
  ⟨_, _, _, _, _, ⟨[], [], rfl, by simp⟩, ⟨[], rfl⟩, ⟨[], [], rfl, by simp⟩,
    ⟨[], [], rfl, by simp⟩, ⟨[], rfl⟩, ⟨[], [], rfl, by simp⟩, by norm_num [abs_le]⟩

theorem test_document_accepted :
    sensorJsonParse testParser .exact (some (testDocument ++ [0])) testDocument.length true =
      some (0, some (-1225)) := by
  have hpoints : PointsTo (testDocument ++ [0]) testDocument.length testDocument :=
    ⟨rfl, rfl, by decide, by decide, by decide⟩
  have hholds : HoldsDocument testParser (some (testDocument ++ [0])) testDocument.length
      (-49 / 4) := hpoints.holdsDocument_iff.mpr ⟨testTree, if_pos rfl, testTree_holdsSample⟩
  have hread : ∀ bytes, some (testDocument ++ [0]) = some bytes →
      testDocument.length < bytes.length := by
    rintro _ ⟨⟩
    simp
  obtain ⟨err, written, hcall, hshape⟩ := sensor_json_accepts_shape testParser .exact hread true
  obtain rfl := hshape.accepts_iff.mpr ⟨rfl, _, hholds⟩
  obtain ⟨centi, rfl, hnear, -⟩ := hshape.accepted _ rfl hholds
  have hvalue : -1225 = centi.toInt := ((hnear (DoubleArith.exact_exactAt _)).1 (-1225)).mp
    ⟨by norm_num, by norm_num⟩
  rw [hcall, ← Int32.ofInt_toInt centi, ← hvalue]
  rfl

end SensorPanel
