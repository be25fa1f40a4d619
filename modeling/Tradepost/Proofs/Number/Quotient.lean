import Mathlib.Tactic.FieldSimp
import Mathlib.Tactic.GCongr
import Tradepost.Proofs.Number.Format

/-!
# Numbers divided and multiplied back

A number is divided by another one and multiplied by it again, with a rounding
after each step. What comes back keeps the order and lies within two roundings
of the number. It is the number itself where its quotient has so many more
places that its error does not reach half a place of the number.
-/

namespace Tradepost.Format

open Number

variable {F : Format} {x y c d : ℚ} {b j k l n : ℤ}

/-! ## Errors -/

theorem error_le (h : |x| < F.base ^ (k + F.digits)) (hk : F.least ≤ k) : |F.nearest x - x| ≤ F.base ^ k / 2 := by
  rcases eq_or_ne x 0 with rfl | hx
  · rw [nearest_zero, sub_zero, abs_zero]
    exact (half_pos (base_pow_pos F.base k)).le
  · have hpow := zpow_le_zpow_right₀ F.one_lt.le (place_le hx h hk)
    exact (nearest_error x).trans (div_le_div_of_nonneg_right hpow (by norm_num))

def unit (F : Format) : ℚ := F.base ^ (1 - F.digits : ℤ) / 2

theorem unit_nonneg (F : Format) : 0 ≤ F.unit := (half_pos (base_pow_pos F.base _)).le

theorem relative_error (h : F.base ^ l ≤ |x|) (hl : F.least + F.digits ≤ l + 1) :
    |F.nearest x - x| ≤ |x| * F.unit := by
  have hx : 0 < |x| := (base_pow_pos F.base l).trans_le h
  have hlog := (F.le_log_iff hx).mpr h
  calc |F.nearest x - x| ≤ F.base ^ F.place x / 2 := nearest_error x
    _ = F.base ^ Int.log F.base |x| * F.unit := by
        rw [place, max_eq_right (by omega), add_sub_assoc, base_pow_add, unit, mul_div_assoc]
    _ ≤ |x| * F.unit := mul_le_mul_of_nonneg_right (F.pow_log_le hx) F.unit_nonneg

theorem pow_le_abs_nearest (h : F.base ^ l ≤ |x|) (hl : F.least ≤ l) : F.base ^ l ≤ |F.nearest x| := by
  rw [← nearest_abs, ← nearest_pow hl]
  exact nearest_mono h

/-! ## What comes back -/

/-- A number divided and multiplied by `c`, with a rounding after each step. -/
def back (F : Format) (c x : ℚ) : ℚ := F.nearest (c * F.nearest (x / c))

theorem back_mono (hc : 0 ≤ c) (h : x ≤ y) : F.back c x ≤ F.back c y :=
  nearest_mono (mul_le_mul_of_nonneg_left (nearest_mono (div_le_div_of_nonneg_right h hc)) hc)

theorem back_neg (c x : ℚ) : F.back c (-x) = -F.back c x := by
  unfold back
  rw [neg_div, nearest_neg, mul_neg, nearest_neg]

theorem back_zero (c : ℚ) : F.back c 0 = 0 := by
  unfold back
  rw [zero_div, nearest_zero, mul_zero, nearest_zero]

theorem mul_error (hc : 0 < c) (x : ℚ) : |c * F.nearest (x / c) - x| = c * |F.nearest (x / c) - x / c| := by
  have hx : x = c * (x / c) := (mul_div_cancel₀ x hc.ne').symm
  calc |c * F.nearest (x / c) - x| = |c * (F.nearest (x / c) - x / c)| := by rw [mul_sub, ← hx]
    _ = c * |F.nearest (x / c) - x / c| := by rw [abs_mul, abs_of_pos hc]

structure Divisor (F : Format) (c : ℚ) (b : ℤ) : Prop where
  pos : 0 < b
  low : F.base ^ (b - 1) ≤ c
  high : c < F.base ^ b
  one : 1 ≤ c * F.nearest (1 / c)
  least : F.least + F.digits + b ≤ 1

namespace Divisor

theorem divisor_pos (h : F.Divisor c b) : 0 < c := (base_pow_pos F.base _).trans_le h.low

theorem pow_le_quotient (h : F.Divisor c b) (hx : F.base ^ l ≤ |x|) : F.base ^ (l - b) ≤ |x / c| := by
  rw [abs_div, abs_of_pos h.divisor_pos, le_div_iff₀ h.divisor_pos]
  calc F.base ^ (l - b) * c ≤ F.base ^ (l - b) * F.base ^ b :=
        mul_le_mul_of_nonneg_left h.high.le (base_pow_pos F.base _).le
    _ = F.base ^ l := by rw [← base_pow_add, Int.sub_add_cancel]
    _ ≤ |x| := hx

/-- Neither rounding changes a number by more than half of the last place that a greater one can
have. -/
theorem back_error (h : F.Divisor c b) (hx : |x / c| < F.base ^ (k + F.digits)) (hk : F.least ≤ k) :
    |F.back c x - x| ≤ F.base ^ (k + b) / 2 + c * (F.base ^ k / 2) := by
  have hc := h.divisor_pos
  have hfirst := mul_le_mul_of_nonneg_left (error_le hx hk) hc.le
  rw [← mul_error hc] at hfirst
  have hquot : |F.nearest (x / c)| ≤ F.base ^ (k + F.digits) := by
    rw [← nearest_abs, ← nearest_pow (F := F) (k := k + F.digits) (by omega)]
    exact nearest_mono hx.le
  have hproduct : |c * F.nearest (x / c)| < F.base ^ (k + b + F.digits) := by
    have hsplit : k + b + F.digits = b + (k + F.digits) := by omega
    rw [abs_mul, abs_of_pos hc, hsplit, base_pow_add]
    exact (mul_le_mul_of_nonneg_left hquot hc.le).trans_lt (mul_lt_mul_of_pos_right h.high (base_pow_pos F.base _))
  have hsecond := error_le hproduct (by have := h.pos; omega)
  exact (abs_sub_le _ (c * F.nearest (x / c)) _).trans (add_le_add hsecond hfirst)

theorem back_relative (h : F.Divisor c b) (hx : F.base ^ l ≤ |x|) (hl : F.least + F.digits + b ≤ l + 1) :
    |F.back c x - x| ≤ |x| * (F.unit * (2 + F.unit)) := by
  have hc := h.divisor_pos
  have hb := h.pos
  have hquot := h.pow_le_quotient hx
  have hfirst : |c * F.nearest (x / c) - x| ≤ |x| * F.unit := by
    have hsize : |x| = c * |x / c| := by rw [abs_div, abs_of_pos hc, mul_div_cancel₀ _ hc.ne']
    rw [mul_error hc, hsize, mul_assoc]
    exact mul_le_mul_of_nonneg_left (relative_error hquot (by omega)) hc.le
  have hproduct : F.base ^ (l - 1) ≤ |c * F.nearest (x / c)| := by
    have hsplit : l - 1 = b - 1 + (l - b) := by omega
    have hdigits := F.digits_pos
    rw [abs_mul, abs_of_pos hc, hsplit, base_pow_add]
    exact mul_le_mul h.low (pow_le_abs_nearest hquot (by omega)) (base_pow_pos F.base _).le hc.le
  have hsecond := relative_error hproduct (by omega)
  have hsize : |c * F.nearest (x / c)| ≤ |x| + |x| * F.unit := by
    linarith [abs_sub_abs_le_abs_sub (c * F.nearest (x / c)) x]
  calc |F.back c x - x| ≤ |F.back c x - c * F.nearest (x / c)| + |c * F.nearest (x / c) - x| := abs_sub_le ..
    _ ≤ (|x| + |x| * F.unit) * F.unit + |x| * F.unit :=
        add_le_add (hsecond.trans (mul_le_mul_of_nonneg_right hsize F.unit_nonneg)) hfirst
    _ = |x| * (F.unit * (2 + F.unit)) := by ring

theorem pow_le_mul_nearest (h : F.Divisor c b) (hl : F.least + F.digits + b ≤ l + 1) :
    F.base ^ l ≤ c * F.nearest (F.base ^ l / c) := by
  have hleast := h.least
  have hlog : -b ≤ Int.log F.base |1 / c| := by
    have hquot := h.pow_le_quotient (l := 0) (x := 1) (by simp)
    rwa [zero_sub, ← F.le_log_iff (abs_pos.mpr (one_div_pos.mpr h.divisor_pos).ne')] at hquot
  have hshift : F.nearest (F.base ^ l / c) = F.nearest (1 / c) * F.base ^ l := by
    rw [← nearest_mul_pow (by omega) (by omega), one_div_mul_eq_div]
  rw [hshift, ← mul_assoc]
  exact le_mul_of_one_le_left (base_pow_pos F.base l).le h.one

/-- **What comes back is the number itself,** if its quotient by `c` begins one place lower than its
size allows. -/
theorem back_eq (h : F.Divisor c b) (hx : x = n * F.base ^ j) (hj : F.place x ≤ j) (hl : F.base ^ l ≤ x)
    (hxl : x < c * F.base ^ (l + 1 - b)) (hnormal : F.least + F.digits + b ≤ l + 1) : F.back c x = x := by
  have hc := h.divisor_pos
  have hb := h.pos
  have hdigits := F.digits_pos
  have htop : c * F.base ^ (l + 1 - b) < F.base ^ (l + 1) := by
    calc c * F.base ^ (l + 1 - b) < F.base ^ b * F.base ^ (l + 1 - b) :=
      mul_lt_mul_of_pos_right h.high (base_pow_pos F.base _)
      _ = F.base ^ (l + 1) := by rw [← base_pow_add, add_sub_cancel]
  have hquot : x / c < F.base ^ (l + 1 - b) := by rwa [div_lt_iff₀ hc, mul_comm]
  -- the rounded quotient, multiplied back, has as many digits before the point as the number
  have hge : F.base ^ l ≤ c * F.nearest (x / c) :=
    (h.pow_le_mul_nearest hnormal).trans
      (mul_le_mul_of_nonneg_left (nearest_mono (div_le_div_of_nonneg_right hl hc.le)) hc.le)
  have hlt : c * F.nearest (x / c) < F.base ^ (l + 1) := by
    have hle := nearest_mono (F := F) hquot.le
    rw [nearest_pow (by omega)] at hle
    exact (mul_le_mul_of_nonneg_left hle hc.le).trans_lt htop
  have hplace {z : ℚ} (hz : F.base ^ l ≤ z) (hz' : z < F.base ^ (l + 1)) : F.place z = l + 1 - F.digits := by
    have hz0 : 0 < z := (base_pow_pos F.base l).trans_le hz
    have := (F.le_log_iff hz0).mpr hz
    have := (F.log_lt_iff hz0).mpr hz'
    rw [place_of_pos hz0]
    omega
  refine nearest_of_near hx ?_ ?_
  · rwa [hplace hge hlt, ← hplace hl (hxl.trans htop)]
  · have hsmall : |x / c| < F.base ^ (l + 1 - b - F.digits + F.digits) := by
      rwa [Int.sub_add_cancel, abs_of_nonneg (div_nonneg ((base_pow_pos F.base l).le.trans hl) hc.le)]
    rw [hplace hge hlt, mul_error hc]
    calc c * |F.nearest (x / c) - x / c| ≤ c * (F.base ^ (l + 1 - b - F.digits) / 2) :=
          mul_le_mul_of_nonneg_left (error_le hsmall (by omega)) hc.le
      _ < F.base ^ b * (F.base ^ (l + 1 - b - F.digits) / 2) :=
          mul_lt_mul_of_pos_right h.high (half_pos (base_pow_pos F.base _))
      _ = F.base ^ (l + 1 - F.digits) / 2 := by
          rw [← mul_div_assoc, ← base_pow_add]
          congr 2
          omega

end Divisor

/-! ## The first digits -/

/-- A number of few digits is what everything close to it is rounded to. -/
theorem nearest_of_few (hd : d = n * F.base ^ j) (hn : |n| < F.base ^ F.digits) (hj : F.least ≤ j)
    (h : 2 * F.base ^ F.digits * |x - d| < |x|) : F.nearest x = d := by
  have hpow : (0 : ℚ) < F.base ^ F.digits := by simpa using base_pow_pos F.base F.digits
  have hunit : (0 : ℚ) < F.base ^ j := base_pow_pos F.base j
  have hx : 0 < |x| := lt_of_le_of_lt (by positivity) h
  refine nearest_of_near hd (place_le (abs_pos.mp hx) ?_ hj) ?_
  · have hn' : (|n| : ℚ) ≤ F.base ^ F.digits - 1 := by
      have : |n| + 1 ≤ F.base ^ F.digits := hn
      have : (|n| : ℚ) + 1 ≤ F.base ^ F.digits := by exact_mod_cast this
      linarith
    have hdsize : |d| ≤ (F.base ^ F.digits - 1) * F.base ^ j := by
      rw [hd, abs_mul, abs_of_pos hunit]
      exact mul_le_mul_of_nonneg_right hn' hunit.le
    rw [base_pow_add, zpow_natCast, mul_comm]
    -- a greater number would be too far away
    by_contra hge
    have hone : (1 : ℚ) ≤ F.base ^ F.digits := one_le_pow₀ F.one_lt.le
    have hover : |x| - F.base ^ F.digits * F.base ^ j ≤
        F.base ^ F.digits * (|x| - F.base ^ F.digits * F.base ^ j) :=
      le_mul_of_one_le_left (sub_nonneg.mpr (not_lt.mp hge)) hone
    have hfar : |x| - (F.base ^ F.digits - 1) * F.base ^ j ≤ |x - d| :=
      (sub_le_sub_left hdsize _).trans (abs_sub_abs_le_abs_sub x d)
    have := mul_le_mul_of_nonneg_left hfar hpow.le
    linarith
  · have hplace := F.lt_pow_place (abs_pos.mp hx)
    rw [base_pow_add, zpow_natCast, mul_comm] at hplace
    rw [lt_div_iff₀ (by norm_num)]
    have hsize := h.trans hplace
    refine lt_of_mul_lt_mul_left (a := (F.base : ℚ) ^ F.digits) ?_ hpow.le
    linarith

end Tradepost.Format
