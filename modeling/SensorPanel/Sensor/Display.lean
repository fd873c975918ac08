import SensorPanel.Library.Decimal
import SensorPanel.Sensor.SensorJson
import SensorPanel.Sensor.SensorModel

/-!
# The number on the panel

`ui_render` writes a sample as a decimal of two digits. A number of the
interface passes three roundings on its way there and still comes out as the
decimal it was sent as.
-/

namespace SensorPanel

open Library

/-- The string `snprintf` leaves in a buffer of `size` bytes. -/
def snprintf (size : ℕ) (text : Bytes) : Bytes := text.take (size - 1)

structure Labels where
  value : Bytes
  age : Bytes
  status : Bytes
  deriving DecidableEq, Repr

/-- `magnitude` of `ui_render`, a `uint32_t`. -/
def magnitude (signedValue : ℤ) : ℕ :=
  ((if signedValue < 0 then -signedValue else signedValue) % 2 ^ 32).toNat

/-- `"%s%u.%02u"` as `ui_render` fills it. -/
def valueText (signedValue : ℤ) : Bytes :=
  (if signedValue < 0 then ascii "-" else []) ++ decimal (magnitude signedValue / 100) ++
    ascii "." ++ decimalPadded 2 (magnitude signedValue % 100)

/-- `ui_render`, given `k_uptime_get`. -/
def uiRender (state : SensorState) (online : Bool) (uptime : ℤ) : Labels where
  value := if state.valid then snprintf 32 (valueText state.centiValue.toInt) else ascii "--.--"
  age :=
    if state.valid then
      let seconds := max 0 ((uptime - state.updatedMs).tdiv 1000)
      snprintf 32 (decimalSigned seconds ++ ascii "s ago")
    else ascii "No data"
  status :=
    if ¬ online then ascii "Wi-Fi offline"
    else if state.error ≠ 0 then ascii "API error"
    else ascii "Wi-Fi online"

/-- The canonical decimal of `c / 100`: a sign for negative numbers only, an
integer part without superfluous zeros, a point and two digits. -/
def IsTwoDigitDecimal (c : ℤ) (text : Bytes) : Prop :=
  ∃ whole tenths hundredths,
    text = (if c < 0 then ascii "-" else []) ++ whole ++ ascii "." ++ [tenths, hundredths] ∧
    whole ≠ [] ∧ (whole.head? = some (digit 0) → whole = [digit 0]) ∧
    (∀ b ∈ whole ++ [tenths, hundredths], IsDigit b) ∧
    decimalValue (whole ++ [tenths, hundredths]) = c.natAbs

abbrev minus : UInt8 := 45
abbrev point : UInt8 := 46

/-- What such a text stands for, in hundredths: its sign times 100 times the part
in front of the point plus the digits behind it. -/
def decodeCenti (text : Bytes) : ℤ :=
  let negative := text.head? = some minus
  let unsigned := if negative then text.tail else text
  let whole := unsigned.takeWhile (· ≠ point)
  let digits := (unsigned.dropWhile (· ≠ point)).tail
  (if negative then -1 else 1) * (100 * decimalValue whole + decimalValue digits)

theorem magnitude_eq {z : ℤ} (h : z.natAbs < 2 ^ 32) : magnitude z = z.natAbs := by
  unfold magnitude
  split_ifs <;> omega

theorem valueText_isTwoDigitDecimal {z : ℤ} (h : z.natAbs < 2 ^ 32) :
    IsTwoDigitDecimal z (valueText z) := by
  have hlow : z.natAbs % 100 < 100 := Nat.mod_lt _ (by norm_num)
  have htens : z.natAbs % 100 / 10 < 10 := by omega
  have hones : z.natAbs % 100 % 10 < 10 := Nat.mod_lt _ (by norm_num)
  refine ⟨decimal (z.natAbs / 100), digit (z.natAbs % 100 / 10), digit (z.natAbs % 100 % 10),
    ?_, decimal_ne_nil _, ?_, ?_, ?_⟩
  · rw [valueText, magnitude_eq h, decimalPadded_two hlow]
  · intro hhead
    rw [(head_decimal_eq_zero_iff _).mp hhead]
    exact decimal_of_lt (by norm_num)
  · intro b hb
    simp only [List.mem_append, List.mem_cons, List.not_mem_nil, or_false] at hb
    rcases hb with hb | rfl | rfl
    · exact isDigit_of_mem_decimal hb
    · exact isDigit_digit htens
    · exact isDigit_digit hones
  · rw [← List.singleton_append, ← List.append_assoc, decimalValue_concat, decimalValue_concat,
      decimalValue_decimal, digit_value htens, digit_value hones]
    omega

namespace IsTwoDigitDecimal

variable {c : ℤ} {text : Bytes}

theorem head_eq_minus_iff (h : IsTwoDigitDecimal c text) :
    text.head? = some minus ↔ c < 0 := by
  obtain ⟨whole, tenths, hundredths, rfl, hne, -, hdigits, -⟩ := h
  obtain ⟨first, rest, rfl⟩ := List.exists_cons_of_ne_nil hne
  have hfirst : IsDigit first := hdigits first (by simp)
  have hminus : first ≠ minus := by
    rintro rfl
    exact absurd hfirst (by decide)
  by_cases hc : c < 0
  · simp [hc, ascii]
  · simp [hc, ascii, hminus]

/-- The text reads back as the number it is the decimal of. -/
theorem decode (h : IsTwoDigitDecimal c text) : decodeCenti text = c := by
  have hsign := h.head_eq_minus_iff
  obtain ⟨whole, tenths, hundredths, rfl, hne, -, hdigits, hvalue⟩ := h
  -- Without its sign the text is split at the one point it has.
  have hunsigned : (if c < 0 then
      ((if c < 0 then ascii "-" else []) ++ whole ++ ascii "." ++ [tenths, hundredths]).tail
      else (if c < 0 then ascii "-" else []) ++ whole ++ ascii "." ++ [tenths, hundredths]) =
      whole ++ point :: [tenths, hundredths] := by
    split_ifs <;> simp [ascii]
  have hwhole : ∀ b ∈ whole, (decide (b ≠ point)) = true := by
    intro b hb
    have hdigit := hdigits b (by simp [hb])
    simp only [decide_eq_true_eq]
    rintro rfl
    exact absurd hdigit (by decide)
  have hsum := decimalValue_append whole [tenths, hundredths]
  rw [hvalue] at hsum
  simp only [List.length_cons, List.length_nil] at hsum
  simp only [decodeCenti, hsign, hunsigned, List.takeWhile_append_of_pos hwhole,
    List.dropWhile_append_of_pos hwhole]
  simp only [ne_eq, not_true_eq_false, decide_false, Bool.false_eq_true, not_false_eq_true,
    List.takeWhile_cons_of_neg, List.dropWhile_cons_of_neg, List.append_nil, List.tail_cons]
  split_ifs <;> omega

end IsTwoDigitDecimal

/-- The buffer of 32 bytes holds the text of every `int32_t`. -/
theorem length_valueText_le {z : ℤ} (h : z.natAbs ≤ 2 ^ 31) : (valueText z).length ≤ 31 := by
  have hwhole : (decimal (z.natAbs / 100)).length ≤ 8 := length_decimal_le (by omega)
  have hlow : z.natAbs % 100 < 100 := Nat.mod_lt _ (by norm_num)
  have hsign : (if z < 0 then ascii "-" else []).length ≤ 1 := by
    split_ifs <;> decide
  rw [valueText, magnitude_eq (by omega), decimalPadded_two hlow]
  simp only [List.length_append, List.length_cons, List.length_nil]
  have hpoint : (ascii ".").length = 1 := rfl
  omega

theorem length_valueText_int32 (v : Int32) : (valueText v.toInt).length ≤ 31 := by
  have hl := v.le_toInt
  have hu := v.toInt_lt
  exact length_valueText_le (by omega)

theorem uiRender_whole {state : SensorState} (h : state.valid = true) (online : Bool) (uptime : ℤ) :
    (uiRender state online uptime).value = valueText state.centiValue.toInt := by
  rw [uiRender, if_pos h, snprintf, List.take_of_length_le (length_valueText_int32 _)]

theorem uiRender_value {state : SensorState} (h : state.valid = true) (online : Bool) (uptime : ℤ) :
    IsTwoDigitDecimal state.centiValue.toInt (uiRender state online uptime).value := by
  have hl := state.centiValue.le_toInt
  have hu := state.centiValue.toInt_lt
  rw [uiRender_whole h]
  exact valueText_isTwoDigitDecimal (by omega)

/-- An age is shown whole for all times an `int64_t` can hold. -/
theorem uiRender_age {state : SensorState} (h : state.valid = true) (online : Bool) {uptime : ℤ}
    (hpast : state.updatedMs ≤ uptime) (hlong : uptime - state.updatedMs < 2 ^ 63) :
    (uiRender state online uptime).age =
      decimal ((uptime - state.updatedMs) / 1000).toNat ++ ascii "s ago" := by
  have hseconds : (uptime - state.updatedMs).tdiv 1000 = (uptime - state.updatedMs) / 1000 :=
    Int.tdiv_eq_ediv_of_nonneg (by omega)
  obtain ⟨n, hn⟩ := Int.eq_ofNat_of_zero_le
    (show 0 ≤ (uptime - state.updatedMs) / 1000 by omega)
  have hlen : (decimal n).length ≤ 16 := length_decimal_le (by omega)
  have htext : decimalSigned n ++ ascii "s ago" = decimal n ++ ascii "s ago" := by
    simp [decimalSigned]
  have hsuffix : (ascii "s ago").length = 5 := rfl
  simp only [uiRender, h, if_true, hseconds, hn, Int.toNat_natCast]
  rw [max_eq_right (by omega), htext, snprintf, List.take_of_length_le]
  rw [List.length_append]
  omega

/-- The label is a faithful encoding of every `int32_t`. It is the whole text
`snprintf` was asked for, a sign only for negative values, an integer part
without superfluous zeros, a point and two digits; it reads back as the value, so
that no other value has the same label and none reads `-0.00`. -/
theorem value_text_faithful {state : SensorState} (h : state.valid = true) (online : Bool)
    (uptime : ℤ) :
    (uiRender state online uptime).value = valueText state.centiValue.toInt ∧
    (valueText state.centiValue.toInt).length + 1 ≤ 32 ∧
    IsTwoDigitDecimal state.centiValue.toInt (uiRender state online uptime).value ∧
    ((uiRender state online uptime).value.head? = some minus ↔ state.centiValue < 0) ∧
    decodeCenti (uiRender state online uptime).value = state.centiValue.toInt ∧
    (uiRender state online uptime).value ≠ ascii "-0.00" ∧
    ∀ (other : SensorState) (online' : Bool) (uptime' : ℤ), other.valid = true →
      (uiRender other online' uptime').value = (uiRender state online uptime).value →
        other.centiValue = state.centiValue := by
  have hlen := length_valueText_int32 state.centiValue
  have htext := uiRender_value h online uptime
  have hsign := htext.head_eq_minus_iff
  have hdecode := htext.decode
  have hneg : state.centiValue < 0 ↔ state.centiValue.toInt < 0 := Int32.lt_iff_toInt_lt
  refine ⟨uiRender_whole h online uptime, by omega, htext, hsign.trans hneg.symm, hdecode, ?_, ?_⟩
  · intro hzero
    rw [hzero] at hsign hdecode
    have hminus : state.centiValue.toInt < 0 := hsign.mp (by decide)
    have hnone : decodeCenti (ascii "-0.00") = 0 := by decide
    omega
  · intro other online' uptime' hother hsame
    apply Int32.toInt_inj.mp
    rw [← (uiRender_value hother online' uptime').decode, hsame, hdecode]

theorem value_text_of_least :
    (uiRender (SensorState.boot.update Int32.minValue 0) true 0).value = ascii "-21474836.48" ∧
    decodeCenti (ascii "-21474836.48") = -2 ^ 31 := by
  have hvalid : (SensorState.boot.update Int32.minValue 0).valid = true := rfl
  obtain ⟨htext, -, -, -, hdecode, -⟩ := value_text_faithful hvalid true 0
  have hlabel : (uiRender (SensorState.boot.update Int32.minValue 0) true 0).value =
      ascii "-21474836.48" := htext.trans (by decide)
  refine ⟨hlabel, ?_⟩
  rw [← hlabel, hdecode]
  rfl

/-- An accepted magnitude: the value of an accepted decimal is rounded no further
than to the bound itself. -/
theorem abs_le_of_withinRel {c : ℤ} (hc : |c| ≤ 9999999) {v : ℚ}
    (hv : WithinRel (1 / 2 ^ 52) (c / 100 : ℚ) v) : |v| ≤ 100000 := by
  have hc' : |(c : ℚ)| ≤ 9999999 := by exact_mod_cast hc
  have hquot : |(c / 100 : ℚ)| ≤ 9999999 / 100 := by
    rw [abs_div, abs_of_pos (by norm_num : (0 : ℚ) < 100)]
    linarith
  have htri := abs_sub_abs_le_abs_sub v (c / 100 : ℚ)
  have herr := hv.abs_sub_le_of_le (by norm_num) hquot
  norm_num at herr
  linarith

/-- What the interface sends is what the panel shows. Let the value of a number
that stands for `c / 100`, its product by 100 and the sum with plus or minus one
half each be within relative error `2 ^ -52`. Then the number is accepted, the
conversion yields `c`, and the label is the decimal of `c / 100`. -/
theorem panel_shows_number {c : ℤ} (hc : |c| ≤ 9999999) {v : ℚ}
    (hv : WithinRel (1 / 2 ^ 52) (c / 100 : ℚ) v) (arith : DoubleArith)
    (hmul : WithinRel (1 / 2 ^ 52) (v * 100) (arith.mul v 100))
    (hadd : WithinRel (1 / 2 ^ 52)
      (arith.mul v 100 + if arith.mul v 100 < 0 then -1 / 2 else 1 / 2)
      (arith.add (arith.mul v 100) (if arith.mul v 100 < 0 then -1 / 2 else 1 / 2))) :
    |v| ≤ 100000 ∧ centiOf arith v = some (Int32.ofInt c) ∧ (Int32.ofInt c).toInt = c ∧
    (∀ (parser : JsonParser) (text : Bytes) (root : Json), parser (text ++ [0]) = some root →
      Json.isArray (sampleNodes root).things = true →
      Json.isArray (sampleNodes root).values = true →
      (sampleNodes root).value = some (.number (.finite v)) →
      text.length ≠ 0 → text.length ≤ 4095 → 0 ∉ text →
        ParsesTo parser arith text (Int32.ofInt c)) ∧
    ∀ (state : SensorState) (online : Bool) (uptime now : ℤ),
      IsTwoDigitDecimal c
        (uiRender (state.update (Int32.ofInt c) uptime) online now).value := by
  have hbounds := abs_le.mp hc
  have hvalue := abs_le_of_withinRel hc hv
  have htoInt : (Int32.ofInt c).toInt = c := Int32.toInt_ofInt_of_le (by omega) (by omega)
  have hcenti : centiOf arith v = some (Int32.ofInt c) := by
    refine centiOf_eq (by omega) (by omega)
      (truncate_scaled (by norm_num) (by norm_num) ?_ hv hmul hadd)
    have hc' : |(c : ℚ)| ≤ 9999999 := by exact_mod_cast hc
    norm_num
    linarith
  refine ⟨hvalue, hcenti, htoInt, ?_, ?_⟩
  · intro parser text root hparse hthings hvalues hnumber hpos hlong hnul
    have hroot : ((parser (text ++ [0])).bind fun root => acceptedValue (sampleNodes root)) =
        some v := by
      rw [hparse, Option.bind_some, acceptedValue, if_pos ⟨hthings, hvalues⟩, hnumber]
      exact if_pos hvalue
    rw [ParsesTo, sensorJsonParse_terminated, if_neg (by simp [hpos, hlong, hnul]), hroot]
    simp only [hcenti, Option.map_some]
  · intro state online uptime now
    have hvalid : (state.update (Int32.ofInt c) uptime).valid = true := rfl
    have hlabel := uiRender_value hvalid online now
    rwa [SensorState.update, htoInt] at hlabel

theorem panel_shows_minus_seven_hundredths :
    centiOf .exact (-7 / 100) = some (-7) ∧
    IsTwoDigitDecimal (-7) (uiRender (SensorState.boot.update (-7) 0) true 0).value ∧
    (uiRender (SensorState.boot.update (-7) 0) true 0).value = ascii "-0.07" := by
  obtain ⟨-, hcenti, -, -, hlabel⟩ := panel_shows_number (c := -7) (by decide)
    (v := -7 / 100) (by norm_num [WithinRel]) .exact (WithinRel.refl (by norm_num) _)
    (WithinRel.refl (by norm_num) _)
  exact ⟨hcenti, hlabel SensorState.boot true 0 0, by decide⟩

end SensorPanel
