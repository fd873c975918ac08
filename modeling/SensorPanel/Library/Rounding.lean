import Mathlib.Algebra.Order.Floor.Ring
import Mathlib.Algebra.Order.Field.Basic
import Mathlib.Tactic

/-!
# Relative rounding errors and truncation

An approximation within relative error `ε` keeps the sign of what it stands
for, and a product of approximations accumulates the errors of its factors.
Truncation towards zero, the conversion C makes from a floating-point number
to an integer, returns the integer next to zero that a value lies beyond.
-/

namespace Library

variable {K : Type*} [Field K] [LinearOrder K] [IsStrictOrderedRing K]

/-- `y` stands for `x` with a relative error of at most `ε`. -/
def WithinRel (ε x y : K) : Prop := |y - x| ≤ ε * |x|

namespace WithinRel

variable {ε x y k p : K}

@[refl] theorem refl (hε : 0 ≤ ε) (x : K) : WithinRel ε x x := by
  have h := mul_nonneg hε (abs_nonneg x)
  simpa [WithinRel] using h

omit [IsStrictOrderedRing K] in
theorem neg (h : WithinRel ε x y) : WithinRel ε (-x) (-y) := by
  rw [WithinRel, abs_neg, ← neg_sub', abs_neg]
  exact h

theorem abs_sub_le_of_le {b : K} (h : WithinRel ε x y) (hε : 0 ≤ ε) (hx : |x| ≤ b) :
    |y - x| ≤ ε * b :=
  le_trans h (mul_le_mul_of_nonneg_left hx hε)

theorem bounds (h : WithinRel ε x y) (hx : 0 ≤ x) :
    x - ε * x ≤ y ∧ y ≤ x + ε * x := by
  rw [WithinRel, abs_of_nonneg hx, abs_le] at h
  constructor <;> linarith

theorem nonneg (h : WithinRel ε x y) (hε : ε ≤ 1) (hx : 0 ≤ x) : 0 ≤ y := by
  have hb := (h.bounds hx).1
  have hm := mul_le_mul_of_nonneg_right hε hx
  linarith

theorem neg_of_neg (h : WithinRel ε x y) (hε : ε < 1) (hx : x < 0) : y < 0 := by
  have hb := (h.neg.bounds (by linarith)).1
  have hm := mul_lt_mul_of_pos_right hε (neg_pos.mpr hx)
  linarith

/-- Rounding an operand and then its product by an exact factor. -/
theorem mul_const (h : WithinRel ε x y) (hp : WithinRel ε (y * k) p) (hε : 0 ≤ ε) :
    |p - x * k| ≤ (2 * ε + ε * ε) * |x * k| := by
  have hy : |y * k - x * k| ≤ ε * |x * k| := by
    rw [← sub_mul, abs_mul, abs_mul, ← mul_assoc]
    exact mul_le_mul_of_nonneg_right h (abs_nonneg k)
  have hyk : |y * k| ≤ (1 + ε) * |x * k| := by
    have htri := abs_sub_abs_le_abs_sub (y * k) (x * k)
    linarith
  have hlast : |p - y * k| ≤ ε * ((1 + ε) * |x * k|) := hp.abs_sub_le_of_le hε hyk
  calc |p - x * k| ≤ |p - y * k| + |y * k - x * k| := abs_sub_le _ _ _
    _ ≤ ε * ((1 + ε) * |x * k|) + ε * |x * k| := add_le_add hlast hy
    _ = (2 * ε + ε * ε) * |x * k| := by ring

end WithinRel

section Truncate

variable [FloorRing K]

/-- Conversion to an integer towards zero. -/
def truncate (x : K) : ℤ := if 0 ≤ x then ⌊x⌋ else ⌈x⌉

theorem truncate_of_nonneg {x : K} {n : ℤ} (hn : 0 ≤ n) (hl : (n : K) ≤ x) (hu : x < n + 1) :
    truncate x = n := by
  have hx : 0 ≤ x := (Int.cast_nonneg hn).trans hl
  rw [truncate, if_pos hx, Int.floor_eq_iff]
  exact ⟨hl, hu⟩

theorem truncate_neg (x : K) : truncate (-x) = -truncate x := by
  unfold truncate
  rcases lt_trichotomy x 0 with h | rfl | h
  · rw [if_pos (by linarith), if_neg (by linarith), Int.floor_neg]
  · simp
  · rw [if_neg (by linarith), if_pos h.le, Int.ceil_neg]

theorem abs_truncate_le (x : K) : |(truncate x : K)| ≤ |x| := by
  unfold truncate
  split_ifs with h
  · rw [abs_of_nonneg h, abs_of_nonneg (Int.cast_nonneg (Int.floor_nonneg.mpr h))]
    exact Int.floor_le x
  · have hneg : x < 0 := not_le.mp h
    have hceil : ((⌈x⌉ : ℤ) : K) ≤ 0 := Int.cast_nonpos.mpr (Int.ceil_nonpos.mpr hneg.le)
    rw [abs_of_neg hneg, abs_of_nonpos hceil]
    exact neg_le_neg (Int.le_ceil x)

/-- Rounding half away from zero and truncating: within a quarter of the
offset integer the result is that integer. -/
theorem truncate_offset {x : K} {n : ℤ} (hn : 0 ≤ n) (h : |x - (n + 1 / 2)| ≤ 1 / 4) :
    truncate x = n := by
  rw [abs_le] at h
  exact truncate_of_nonneg hn (by linarith) (by linarith)

/-- The integer nearest to `x`, the one farther from zero where there are two. -/
def NearestAway (x : K) (n : ℤ) : Prop := |x - n| ≤ 1 / 2 ∧ (|x - n| = 1 / 2 → |x| < |(n : K)|)

omit [IsStrictOrderedRing K] [FloorRing K] in
theorem NearestAway.neg {x : K} {n : ℤ} (h : NearestAway x n) : NearestAway (-x) (-n) := by
  have hsub : -x - ((-n : ℤ) : K) = -(x - n) := by
    push_cast
    ring
  rw [NearestAway, hsub, Int.cast_neg, abs_neg, abs_neg, abs_neg]
  exact h

omit [FloorRing K] in
theorem NearestAway.unique {x : K} {m n : ℤ} (hm : NearestAway x m) (hn : NearestAway x n) :
    m = n := by
  wlog hle : m ≤ n generalizing m n
  · exact (this hn hm (le_of_not_ge hle)).symm
  by_contra hne
  have hstep : (m : K) + 1 ≤ n := by exact_mod_cast Int.add_one_le_iff.mpr (lt_of_le_of_ne hle hne)
  have hlow := (abs_le.mp hm.1).2
  have hhigh := (abs_le.mp hn.1).1
  have hx : x - m = 1 / 2 := by linarith
  have hx' : x - n = -(1 / 2) := by linarith
  have hfar := hm.2 (by rw [hx]; norm_num)
  have hfar' := hn.2 (by rw [hx']; norm_num)
  rcases le_or_gt 0 m with h | h
  · have h₀ : (0 : K) ≤ m := Int.cast_nonneg h
    rw [abs_of_nonneg h₀, abs_of_nonneg (by linarith)] at hfar
    linarith
  · have h₀ : (m : K) + 1 ≤ 0 := by exact_mod_cast Int.add_one_le_iff.mpr h
    rw [abs_of_nonpos (by linarith), abs_of_nonpos (by linarith)] at hfar'
    linarith

omit [FloorRing K] in
theorem NearestAway.abs_le {x : K} {m n : ℤ} (h : NearestAway x n) (hx : |x| ≤ m) : |n| ≤ m := by
  have htri := abs_sub_abs_le_abs_sub (n : K) x
  rw [abs_sub_comm] at htri
  have hlt : ((|n| : ℤ) : K) < ((m + 1 : ℤ) : K) := by
    push_cast
    linarith [h.1]
  exact Int.lt_add_one_iff.mp (Int.cast_lt.mp hlt)

/-- Adding one half on the side of the sign and truncating rounds to the nearest
integer, ties away from zero. -/
theorem nearestAway_truncate (x : K) :
    NearestAway x (truncate (x + if x < 0 then -1 / 2 else 1 / 2)) := by
  have hpos : ∀ y : K, 0 ≤ y → NearestAway y (truncate (y + 1 / 2)) := by
    intro y hy
    have hl := Int.floor_le (y + 1 / 2)
    have hu := Int.lt_floor_add_one (y + 1 / 2)
    rw [truncate, if_pos (by linarith)]
    refine ⟨abs_le.mpr ⟨by linarith, by linarith⟩, fun htie => ?_⟩
    rcases abs_choice (y - (⌊y + 1 / 2⌋ : K)) with h | h
    · linarith
    · rw [abs_of_nonneg hy]
      exact lt_of_lt_of_le (by linarith) (le_abs_self _)
  split_ifs with hx
  · have h := (hpos (-x) (by linarith)).neg
    rwa [neg_neg, ← truncate_neg, neg_add, neg_neg, ← neg_div] at h
  · exact hpos x (not_lt.mp hx)

/-- Away from every tie the nearest integer is not lost to an error. -/
theorem nearestAway_of_clear {x δ : K} {n : ℤ} (h : |x - n| ≤ 1 / 2 + δ)
    (hclear : ∀ m : ℤ, δ < |x - (m + 1 / 2)|) : NearestAway x n := by
  have hbelow := hclear (n - 1)
  have habove := hclear n
  push_cast at hbelow
  obtain ⟨hl, hu⟩ := abs_le.mp h
  have hstrict : |x - n| < 1 / 2 := by
    rw [abs_lt]
    constructor
    · by_contra hfar
      rw [abs_of_nonpos (by linarith)] at hbelow
      linarith
    · by_contra hfar
      rw [abs_of_nonneg (by linarith)] at habove
      linarith
  exact ⟨hstrict.le, fun htie => absurd htie hstrict.ne⟩

/-- An inexact sum with one half, truncated, misses the value by half a unit and
the error at most. -/
theorem abs_sub_truncate_le {x q δ : K} (hδ : δ < 1 / 2)
    (h : |q - (x + if x < 0 then -1 / 2 else 1 / 2)| ≤ δ) : |x - truncate q| ≤ 1 / 2 + δ := by
  have hpos : ∀ y r : K, 0 ≤ y → |r - (y + 1 / 2)| ≤ δ → |y - truncate r| ≤ 1 / 2 + δ := by
    intro y r hy hr
    obtain ⟨hlow, hhigh⟩ := abs_le.mp hr
    have hl := Int.floor_le r
    have hu := Int.lt_floor_add_one r
    rw [truncate, if_pos (by linarith), abs_le]
    constructor <;> linarith
  split_ifs at h with hx
  · have hneg : |-q - (-x + 1 / 2)| ≤ δ := by
      rw [← abs_neg]
      convert h using 2
      ring
    have habs := hpos (-x) (-q) (by linarith) hneg
    rw [truncate_neg, Int.cast_neg, ← abs_neg] at habs
    convert habs using 2
    ring
  · exact hpos x q (not_lt.mp hx) h

/-- A scaled decimal, rounded three times on the way: its own value, its product
by the scale and the sum with one half. -/
theorem truncate_scaled_of_nonneg {ε k y p q : K} {n : ℤ} (hn : 0 ≤ n) (hk : 0 < k) (hε : 0 ≤ ε)
    (hsmall : 32 * ε * (n + 1) ≤ 1) (hy : WithinRel ε (n / k) y) (hp : WithinRel ε (y * k) p)
    (hq : WithinRel ε (p + 1 / 2) q) : truncate q = n := by
  have hn' : (0 : K) ≤ n := Int.cast_nonneg hn
  have hε' : ε ≤ 1 := by nlinarith
  have hp' : |p - n| ≤ 3 * ε * n := by
    have h := hy.mul_const hp hε
    rw [div_mul_cancel₀ _ hk.ne', abs_of_nonneg hn'] at h
    refine h.trans (mul_le_mul_of_nonneg_right ?_ hn')
    nlinarith
  have hp₀ : 0 ≤ p := hp.nonneg hε' (mul_nonneg (hy.nonneg hε' (div_nonneg hn' hk.le)) hk.le)
  have hsum : |p + 1 / 2| ≤ 4 * (n + 1) := by
    rw [abs_of_nonneg (by linarith)]
    have hle := (abs_le.mp hp').2
    nlinarith [mul_le_mul_of_nonneg_right hε' hn']
  have hq' : |q - (p + 1 / 2)| ≤ ε * (4 * (n + 1)) := hq.abs_sub_le_of_le hε hsum
  apply truncate_offset hn
  have htri := abs_sub_le q (p + 1 / 2) (n + 1 / 2 : K)
  rw [add_sub_add_right_eq_sub] at htri
  have hεn := mul_nonneg hε hn'
  linarith

/-- The same for both signs, with one half put on the side of the sign. -/
theorem truncate_scaled {ε k y p q : K} {n : ℤ} (hk : 0 < k) (hε : 0 ≤ ε)
    (hsmall : 32 * ε * (|n| + 1) ≤ 1) (hy : WithinRel ε (n / k) y) (hp : WithinRel ε (y * k) p)
    (hq : WithinRel ε (p + if p < 0 then -1 / 2 else 1 / 2) q) : truncate q = n := by
  have hε' : ε < 1 := by
    have habs : (0 : K) ≤ |n| := Int.cast_nonneg (abs_nonneg n)
    nlinarith
  rcases le_or_gt 0 n with hn | hn
  · have hn' : (0 : K) ≤ n := Int.cast_nonneg hn
    have hp₀ : 0 ≤ p :=
      hp.nonneg hε'.le (mul_nonneg (hy.nonneg hε'.le (div_nonneg hn' hk.le)) hk.le)
    rw [if_neg (not_lt.mpr hp₀)] at hq
    rw [abs_of_nonneg hn] at hsmall
    exact truncate_scaled_of_nonneg hn hk hε hsmall hy hp hq
  · have hn' : (n : K) < 0 := Int.cast_lt_zero.mpr hn
    have hy₀ : y < 0 := hy.neg_of_neg hε' (div_neg_of_neg_of_pos hn' hk)
    have hp₀ : p < 0 := hp.neg_of_neg hε' (mul_neg_of_neg_of_pos hy₀ hk)
    rw [if_pos hp₀] at hq
    rw [abs_of_neg hn] at hsmall
    have hy' : WithinRel ε (((-n : ℤ) : K) / k) (-y) := by
      rw [Int.cast_neg, neg_div]
      exact hy.neg
    have hp' : WithinRel ε (-y * k) (-p) := by
      rw [neg_mul]
      exact hp.neg
    have hq' : WithinRel ε (-p + 1 / 2) (-q) := by
      have h := hq.neg
      rwa [neg_add, neg_div, neg_neg] at h
    have hneg := truncate_scaled_of_nonneg (by omega) hk hε (by exact_mod_cast hsmall) hy' hp' hq'
    rw [truncate_neg] at hneg
    omega

end Truncate

end Library
