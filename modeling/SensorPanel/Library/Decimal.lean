import SensorPanel.Library.Buffer
import Mathlib.Data.Nat.Digits.Defs
import Mathlib.Tactic

/-!
# Decimal text

The conversions `%u`, `%02u` and `%lld` of `printf` as byte strings, with the
value a digit string stands for. A digit string written by `decimal` has no
superfluous zero and reads back as the number it was written from.
-/

namespace Library

def digit (d : ℕ) : UInt8 := UInt8.ofNat (48 + d)

def IsDigit (b : UInt8) : Prop := 48 ≤ b ∧ b ≤ 57

instance (b : UInt8) : Decidable (IsDigit b) := inferInstanceAs (Decidable (_ ∧ _))

/-- `%u`. -/
def decimal (n : ℕ) : Bytes := (Nat.toDigits 10 n).map fun c => UInt8.ofNat c.toNat

/-- `%0wu`: zeros are put in front up to the width `w`. -/
def decimalPadded (w n : ℕ) : Bytes :=
  List.replicate (w - (decimal n).length) (digit 0) ++ decimal n

/-- `%lld`. -/
def decimalSigned (z : ℤ) : Bytes := (if z < 0 then ascii "-" else []) ++ decimal z.natAbs

def decimalValue (text : Bytes) : ℕ := text.foldl (fun acc b => 10 * acc + (b.toNat - 48)) 0

theorem digitChar_byte {d : ℕ} (h : d < 10) : UInt8.ofNat (Nat.digitChar d).toNat = digit d := by
  interval_cases d <;> rfl

theorem isDigit_digit {d : ℕ} (h : d < 10) : IsDigit (digit d) := by
  interval_cases d <;> decide

theorem digit_value {d : ℕ} (h : d < 10) : (digit d).toNat - 48 = d := by
  interval_cases d <;> rfl

theorem digit_eq_zero_iff {d : ℕ} (h : d < 10) : digit d = digit 0 ↔ d = 0 := by
  interval_cases d <;> decide

theorem decimal_eq (n : ℕ) :
    decimal n = (if n < 10 then [] else decimal (n / 10)) ++ [digit (n % 10)] := by
  unfold decimal
  rw [Nat.toDigits_eq_if (by norm_num)]
  split_ifs with h
  · simp [Nat.mod_eq_of_lt h, digitChar_byte h]
  · simp [digitChar_byte (Nat.mod_lt n (by norm_num : 0 < 10))]

theorem decimal_of_lt {n : ℕ} (h : n < 10) : decimal n = [digit n] := by
  rw [decimal_eq, if_pos h, List.nil_append, Nat.mod_eq_of_lt h]

theorem decimal_of_le {n : ℕ} (h : 10 ≤ n) : decimal n = decimal (n / 10) ++ [digit (n % 10)] := by
  rw [decimal_eq, if_neg (by omega)]

/-- Induction along the digits of a number, from the front. -/
theorem decimal_induction {P : ℕ → Prop} (hlt : ∀ n, n < 10 → P n)
    (hle : ∀ n, 10 ≤ n → P (n / 10) → P n) (n : ℕ) : P n := by
  induction n using Nat.strong_induction_on with
  | _ n ih =>
    by_cases h : n < 10
    · exact hlt n h
    · exact hle n (by omega) (ih (n / 10) (by omega))

theorem decimal_ne_nil (n : ℕ) : decimal n ≠ [] := by
  rw [decimal_eq]
  simp

theorem isDigit_of_mem_decimal {n : ℕ} {b : UInt8} (h : b ∈ decimal n) : IsDigit b := by
  induction n using decimal_induction with
  | hlt n hn =>
    rw [decimal_of_lt hn, List.mem_singleton] at h
    exact h ▸ isDigit_digit hn
  | hle n hn ih =>
    rw [decimal_of_le hn, List.mem_append, List.mem_singleton] at h
    rcases h with h | h
    · exact ih h
    · exact h ▸ isDigit_digit (Nat.mod_lt n (by norm_num))

theorem decimalValue_concat (text : Bytes) (b : UInt8) :
    decimalValue (text ++ [b]) = 10 * decimalValue text + (b.toNat - 48) := by
  simp [decimalValue, List.foldl_append]

theorem decimalValue_append (front back : Bytes) :
    decimalValue (front ++ back) = 10 ^ back.length * decimalValue front + decimalValue back := by
  induction back using List.reverseRecOn with
  | nil => simp [decimalValue]
  | append_singleton back b ih =>
    rw [← List.append_assoc, decimalValue_concat, ih, decimalValue_concat, List.length_append,
      List.length_singleton]
    ring

/-- What `%u` writes reads back as the number. -/
theorem decimalValue_decimal (n : ℕ) : decimalValue (decimal n) = n := by
  induction n using decimal_induction with
  | hlt n hn => simp [decimal_of_lt hn, decimalValue, digit_value hn]
  | hle n hn ih =>
    rw [decimal_of_le hn, decimalValue_concat, ih, digit_value (Nat.mod_lt n (by norm_num))]
    omega

/-- The first digit is zero only in the text of zero itself. -/
theorem head_decimal_eq_zero_iff (n : ℕ) : (decimal n).head? = some (digit 0) ↔ n = 0 := by
  induction n using decimal_induction with
  | hlt n hn => simp [decimal_of_lt hn, digit_eq_zero_iff hn]
  | hle n hn ih =>
    rw [decimal_of_le hn, List.head?_append_of_ne_nil _ (decimal_ne_nil _), ih]
    omega

theorem length_decimal_le {n k : ℕ} (h : n < 10 ^ (k + 1)) : (decimal n).length ≤ k + 1 := by
  induction k generalizing n with
  | zero => simp [decimal_of_lt (by simpa using h)]
  | succ k ih =>
    by_cases hn : n < 10
    · simp [decimal_of_lt hn]
    · have hdiv : n / 10 < 10 ^ (k + 1) := by
        rw [pow_succ] at h
        omega
      have hlen := ih hdiv
      rw [decimal_of_le (by omega), List.length_append, List.length_singleton]
      omega

theorem decimalPadded_two {n : ℕ} (h : n < 100) :
    decimalPadded 2 n = [digit (n / 10), digit (n % 10)] := by
  by_cases hn : n < 10
  · simp [decimalPadded, decimal_of_lt hn, Nat.div_eq_of_lt hn, Nat.mod_eq_of_lt hn]
  · have hdiv : n / 10 < 10 := by omega
    simp [decimalPadded, decimal_of_le (by omega : 10 ≤ n), decimal_of_lt hdiv]

end Library
