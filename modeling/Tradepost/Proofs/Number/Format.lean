import Mathlib.Data.Int.Log
import Tradepost.Proofs.Number.Nearest

/-!
# Rounding to a number of digits

The number of a floating format that is nearest to a given one: so many digits
in some base, but none below a least place. How digits are computed does not
matter here, and neither does how large a number may get.
-/

namespace Tradepost

structure Format where
  base : ℕ
  digits : ℕ
  least : ℤ
  one_lt_base : 1 < base
  digits_pos : 0 < digits

namespace Format

open Number

variable {F : Format} {x y : ℚ} {j k n : ℤ}

def place (F : Format) (x : ℚ) : ℤ := max F.least (Int.log F.base |x| + 1 - F.digits)

def nearest (F : Format) (x : ℚ) : ℚ := nearestEven (x / F.base ^ F.place x) * F.base ^ F.place x

theorem one_lt (F : Format) : (1 : ℚ) < F.base := by exact_mod_cast F.one_lt_base

instance (F : Format) : NeZero F.base := ⟨(zero_lt_one.trans F.one_lt_base).ne'⟩

/-! ## The nearest number -/

theorem place_neg (x : ℚ) : F.place (-x) = F.place x := by rw [place, abs_neg, place]

theorem nearest_neg (x : ℚ) : F.nearest (-x) = -F.nearest x := by
  unfold nearest
  rw [place_neg, neg_div, nearestEven_neg]
  push_cast
  ring

theorem nearest_zero : F.nearest 0 = 0 := by
  have h0 : nearestEven 0 = 0 := by simpa using nearestEven_intCast 0
  unfold nearest
  rw [zero_div, h0]
  simp

theorem multiple_eq (n : ℤ) (h : k ≤ j) :
    (n : ℚ) * F.base ^ j = (n * F.base ^ (j - k).toNat : ℤ) * (F.base : ℚ) ^ k := by
  have hsplit : (F.base : ℚ) ^ j = F.base ^ (j - k).toNat * F.base ^ k := by
    rw [← zpow_natCast, ← base_pow_add]
    congr 1
    omega
  rw [hsplit]
  push_cast
  ring

theorem nearest_le (h : x ≤ n * F.base ^ j) (hj : F.place x ≤ j) : F.nearest x ≤ n * F.base ^ j := by
  rw [multiple_eq n hj, ← div_le_iff₀ (base_pow_pos F.base _)] at h
  rw [multiple_eq n hj]
  refine mul_le_mul_of_nonneg_right ?_ (base_pow_pos F.base _).le
  exact_mod_cast nearestEven_le h

theorem le_nearest (h : n * F.base ^ j ≤ x) (hj : F.place x ≤ j) : n * F.base ^ j ≤ F.nearest x := by
  have hneg : -x ≤ (-n : ℤ) * F.base ^ j := by
    push_cast
    linarith
  have := nearest_le hneg (by rwa [place_neg])
  rw [nearest_neg] at this
  push_cast at this
  linarith

theorem nearest_eq (h : x = n * F.base ^ j) (hj : F.place x ≤ j) : F.nearest x = x :=
  le_antisymm ((nearest_le h.le hj).trans_eq h.symm) (h.trans_le (le_nearest h.ge hj))

theorem nearest_nonneg (hx : 0 ≤ x) : 0 ≤ F.nearest x := by
  have h0 : (0 : ℤ) * (F.base : ℚ) ^ F.place x ≤ x := by simpa using hx
  simpa using le_nearest h0 le_rfl

/-- A multiple of the last place of `y`, or of a higher one, that is less than half a unit away. -/
theorem nearest_of_near (hx : x = n * F.base ^ j) (hj : F.place y ≤ j) (h : |y - x| < F.base ^ F.place y / 2) :
    F.nearest y = x := by
  have hpos := base_pow_pos F.base (F.place y)
  rw [multiple_eq n hj] at hx
  generalize (n * F.base ^ (j - F.place y).toNat : ℤ) = i at hx
  subst hx
  have hsize : |y / F.base ^ F.place y - i| < 1 / 2 := by
    rw [div_sub' hpos.ne', mul_comm, abs_div, abs_of_pos hpos, div_lt_iff₀ hpos]
    linarith
  unfold nearest
  rw [nearestEven_eq_iff.mpr ⟨hsize.le, fun heq => absurd heq hsize.ne⟩]

theorem nearest_error (x : ℚ) : |F.nearest x - x| ≤ F.base ^ F.place x / 2 := by
  have hpos := base_pow_pos F.base (F.place x)
  obtain ⟨hnear, _⟩ := nearestEven_spec (x / F.base ^ F.place x)
  have hx : x = x / F.base ^ F.place x * F.base ^ F.place x := (div_mul_cancel₀ x hpos.ne').symm
  calc |F.nearest x - x|
      = |(nearestEven (x / F.base ^ F.place x) - x / F.base ^ F.place x) * F.base ^ F.place x| := by
        congr 1
        rw [sub_mul, ← hx]
        rfl
    _ = |x / F.base ^ F.place x - nearestEven (x / F.base ^ F.place x)| * F.base ^ F.place x := by
        rw [abs_mul, abs_of_pos hpos, abs_sub_comm]
    _ ≤ 1 / 2 * F.base ^ F.place x := mul_le_mul_of_nonneg_right hnear hpos.le
    _ = _ := by ring

/-! ## The order is kept -/

theorem pow_log_le (F : Format) (hx : 0 < x) : (F.base : ℚ) ^ Int.log F.base x ≤ x :=
  Int.zpow_log_le_self F.one_lt_base hx

theorem log_lt_iff (F : Format) (hx : 0 < x) : Int.log F.base x < k ↔ x < (F.base : ℚ) ^ k :=
  (Int.lt_zpow_iff_log_lt F.one_lt_base hx).symm

theorem le_log_iff (F : Format) (hx : 0 < x) : k ≤ Int.log F.base x ↔ (F.base : ℚ) ^ k ≤ x :=
  (Int.zpow_le_iff_le_log F.one_lt_base hx).symm

theorem place_of_pos (hx : 0 < x) : F.place x = max F.least (Int.log F.base x + 1 - F.digits) := by
  rw [place, abs_of_pos hx]

theorem lt_pow_place (hx : x ≠ 0) : |x| < F.base ^ (F.place x + F.digits) := by
  rw [← F.log_lt_iff (abs_pos.mpr hx)]
  unfold place
  omega

theorem pow_place_le (hx : x ≠ 0) : F.place x = F.least ∨ F.base ^ (F.place x + F.digits - 1) ≤ |x| := by
  rw [← F.le_log_iff (abs_pos.mpr hx)]
  unfold place
  omega

theorem place_mono (hx : 0 < x) (hxy : x ≤ y) : F.place x ≤ F.place y := by
  rw [place_of_pos hx, place_of_pos (hx.trans_le hxy)]
  have := Int.log_mono_right (b := F.base) hx hxy
  omega

theorem nearest_mono (hxy : x ≤ y) : F.nearest x ≤ F.nearest y := by
  refine monotone_of_odd_of_monotoneOn_nonneg nearest_neg (fun x hx y hy hxy => ?_) hxy
  rcases (show 0 ≤ x from hx).eq_or_lt with rfl | hx
  · rw [nearest_zero]
    exact nearest_nonneg hy
  have hy := hx.trans_le hxy
  have hdigits := F.digits_pos
  have hplaces := place_mono (F := F) hx hxy
  rcases hplaces.eq_or_lt with heq | hlt
  · unfold nearest
    rw [heq]
    refine mul_le_mul_of_nonneg_right ?_ (base_pow_pos F.base _).le
    exact_mod_cast nearestEven_mono (div_le_div_of_nonneg_right hxy (base_pow_pos F.base _).le)
  · -- a power of the base lies between the two, and is itself a number of the format for both
    have hleast : F.least ≤ F.place x := le_max_left ..
    have hpow : x < (F.base : ℚ) ^ Int.log F.base y := by
      rw [← F.log_lt_iff hx]
      rw [place_of_pos hx, place_of_pos hy] at hlt
      omega
    rw [place_of_pos hy] at hplaces hlt
    calc F.nearest x ≤ (1 : ℤ) * F.base ^ Int.log F.base y := nearest_le (by simpa using hpow.le) (by omega)
      _ ≤ F.nearest y := le_nearest (by simpa using F.pow_log_le hy) (by rw [place_of_pos hy]; omega)

theorem nearest_abs (x : ℚ) : F.nearest |x| = |F.nearest x| := map_abs_of_odd nearest_neg nearest_nonneg x

/-! ## Numbers of the format -/

theorem place_le (hx : x ≠ 0) (h : |x| < F.base ^ (k + F.digits)) (hk : F.least ≤ k) : F.place x ≤ k := by
  have := (F.log_lt_iff (abs_pos.mpr hx)).mpr h
  unfold place
  omega

theorem nearest_short {m : ℤ} (hm : |m| < F.base ^ F.digits) (hk : F.least ≤ k) :
    F.nearest (m * F.base ^ k) = m * F.base ^ k := by
  by_cases h0 : (m : ℚ) * F.base ^ k = 0
  · rw [h0, nearest_zero]
  refine nearest_eq rfl (place_le h0 ?_ hk)
  have hm' : |(m : ℚ)| < F.base ^ F.digits := by exact_mod_cast hm
  rw [base_pow_add, zpow_natCast, abs_mul, abs_of_pos (base_pow_pos F.base k), mul_comm]
  exact mul_lt_mul_of_pos_left hm' (base_pow_pos F.base k)

theorem nearest_pow (hk : F.least ≤ k) : F.nearest (F.base ^ k) = F.base ^ k := by
  have hone : |(1 : ℤ)| < F.base ^ F.digits := by
    rw [abs_one]
    exact_mod_cast Nat.one_lt_pow F.digits_pos.ne' F.one_lt_base
  simpa using nearest_short hone hk

theorem nearest_le_pow (F : Format) (h : x ≤ F.base ^ k) (hk : F.least ≤ k) : F.nearest x ≤ F.base ^ k :=
  (nearest_mono h).trans_eq (nearest_pow hk)

theorem pow_le_nearest (F : Format) (h : F.base ^ k ≤ x) (hk : F.least ≤ k) : F.base ^ k ≤ F.nearest x :=
  (nearest_pow hk).symm.trans_le (nearest_mono h)

theorem abs_nearest_le_pow (h : |x| ≤ F.base ^ k) (hk : F.least ≤ k) : |F.nearest x| ≤ F.base ^ k :=
  (nearest_abs x).symm.trans_le (F.nearest_le_pow h hk)

theorem nearest_nearest (x : ℚ) : F.nearest (F.nearest x) = F.nearest x := by
  by_cases hx : x = 0
  · rw [hx, nearest_zero, nearest_zero]
  by_cases h0 : F.nearest x = 0
  · rw [h0, nearest_zero]
  have hplace : F.least ≤ F.place x := le_max_left ..
  have hle : |F.nearest x| ≤ F.base ^ (F.place x + F.digits) := abs_nearest_le_pow (lt_pow_place hx).le (by omega)
  rcases hle.lt_or_eq with hlt | heq
  · exact nearest_eq rfl (place_le h0 hlt hplace)
  · -- the digits are carried up to a power of the base
    rcases (abs_eq (base_pow_pos F.base _).le).mp heq with h | h
    · rw [h, nearest_pow (by omega)]
    · rw [h, nearest_neg, nearest_pow (by omega)]

/-! ## Moving the point -/

theorem log_mul_pow (hx : 0 < x) (k : ℤ) : Int.log F.base (x * F.base ^ k) = Int.log F.base x + k := by
  have hpos : 0 < x * F.base ^ k := mul_pos hx (base_pow_pos F.base k)
  refine le_antisymm (Int.lt_add_one_iff.mp ?_) ?_
  · rw [F.log_lt_iff hpos, add_right_comm, base_pow_add]
    exact mul_lt_mul_of_pos_right ((F.log_lt_iff hx).mp (Int.lt_succ _)) (base_pow_pos F.base k)
  · rw [F.le_log_iff hpos, base_pow_add]
    exact mul_le_mul_of_nonneg_right (F.pow_log_le hx) (base_pow_pos F.base k).le

theorem nearest_mul_pow (h : F.least ≤ Int.log F.base |x| + 1 - F.digits)
    (hk : F.least ≤ Int.log F.base |x| + k + 1 - F.digits) :
    F.nearest (x * F.base ^ k) = F.nearest x * F.base ^ k := by
  rcases eq_or_ne x 0 with rfl | hx
  · rw [zero_mul, nearest_zero, zero_mul]
  have hplace : F.place (x * F.base ^ k) = F.place x + k := by
    unfold place
    rw [abs_mul, abs_of_pos (base_pow_pos F.base k), log_mul_pow (abs_pos.mpr hx)]
    omega
  unfold nearest
  rw [hplace, base_pow_add, mul_div_mul_right _ _ (base_pow_pos F.base k).ne', mul_assoc]

/-- To the right the point can be moved as far as one likes. -/
theorem nearest_shift (h : F.least ≤ Int.log F.base |x| + 1 - F.digits) (hk : 0 ≤ k) :
    F.nearest (x * F.base ^ k) = F.nearest x * F.base ^ k :=
  nearest_mul_pow h (by omega)

end Format

end Tradepost
