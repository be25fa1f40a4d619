import Mathlib.Algebra.Order.Field.Power
import Mathlib.Data.Int.Log
import Mathlib.Data.Rat.Floor
import Mathlib.Tactic.Linarith
import Mathlib.Tactic.NormNum
import Mathlib.Tactic.Positivity
import Mathlib.Tactic.Ring

/-!
# Numbers with an exponent

What a whole number comes to with a power of the base behind it and a sign in
front. Decimals and double precision numbers differ in the base alone, so
nothing here fixes it.
-/

namespace Tradepost.Number

variable {r m n : ℕ} {e f k : ℤ} {s t : Bool} {x y : ℚ}

def size (r m : ℕ) (e : ℤ) : ℚ := m * r ^ e

theorem size_nonneg (r m : ℕ) (e : ℤ) : 0 ≤ size r m e := by
  unfold size
  positivity

theorem size_zero (r : ℕ) (e : ℤ) : size r 0 e = 0 := by simp [size]

theorem size_add (r m n : ℕ) (e : ℤ) : size r (m + n) e = size r m e + size r n e := by
  unfold size
  push_cast
  ring

theorem size_sub (h : n ≤ m) (r : ℕ) (e : ℤ) : size r (m - n) e = size r m e - size r n e := by
  unfold size
  rw [Nat.cast_sub h, sub_mul]

theorem size_mono (h : m ≤ n) (r : ℕ) (e : ℤ) : size r m e ≤ size r n e := by
  unfold size
  gcongr

/-! ## Moving the point -/

section

variable [NeZero r]

theorem base_pow_pos (r : ℕ) [NeZero r] (e : ℤ) : (0 : ℚ) < (r : ℚ) ^ e :=
  zpow_pos (Nat.cast_pos.mpr (NeZero.pos r)) e

theorem base_pow_add (r : ℕ) [NeZero r] (e f : ℤ) : (r : ℚ) ^ (e + f) = r ^ e * r ^ f :=
  zpow_add₀ (NeZero.ne _) e f

theorem size_pos (hm : m ≠ 0) (e : ℤ) : 0 < size r m e :=
  mul_pos (Nat.cast_pos.mpr (Nat.pos_of_ne_zero hm)) (base_pow_pos r e)

theorem size_eq_zero : size r m e = 0 ↔ m = 0 := by
  constructor
  · intro h
    by_contra hm
    exact (size_pos hm e).ne' h
  · rintro rfl
    exact size_zero r e

theorem size_inj : size r m e = size r n e ↔ m = n := by
  unfold size
  rw [mul_left_inj' (base_pow_pos r e).ne', Nat.cast_inj]

theorem size_mul (m n : ℕ) (e f : ℤ) : size r (m * n) (e + f) = size r m e * size r n f := by
  unfold size
  rw [base_pow_add]
  push_cast
  ring

theorem size_shift (m : ℕ) (e k : ℤ) : size r m (e + k) = size r m e * r ^ k := by
  rw [size, base_pow_add, ← mul_assoc, size]

theorem size_mul_pow (m j : ℕ) (e : ℤ) : size r (m * Nat.pow r j) e = size r m (e + j) := by
  unfold size
  rw [base_pow_add, zpow_natCast]
  push_cast [Nat.pow_eq]
  ring

theorem size_aligned (m : ℕ) (h : f ≤ e) : size r (m * Nat.pow r (e - f).toNat) f = size r m e := by
  rw [size_mul_pow]
  congr 1
  omega

theorem size_pow (r j : ℕ) [NeZero r] (e : ℤ) : size r (Nat.pow r j) e = r ^ (e + j) := by
  have := size_mul_pow (r := r) 1 j e
  rw [Nat.one_mul] at this
  rw [this]
  simp [size]

/-! ## Powers of negative exponent -/

theorem pow_toNat (r : ℕ) [NeZero r] (e : ℤ) :
    (r : ℚ) ^ e * (Nat.pow r (-e).toNat : ℕ) = (Nat.pow r e.toNat : ℕ) := by
  push_cast [Nat.pow_eq]
  rw [← zpow_natCast, ← zpow_natCast, ← base_pow_add]
  congr 1
  omega

/-- A size as a quotient of whole numbers, one of which is a power of the base that is one. -/
theorem size_eq_div (r m : ℕ) [NeZero r] (e : ℤ) :
    size r m e = (m * Nat.pow r e.toNat : ℕ) / (Nat.pow r (-e).toNat : ℕ) := by
  have hpos : (0 : ℚ) < (Nat.pow r (-e).toNat : ℕ) := by exact_mod_cast Nat.pow_pos (NeZero.pos r)
  rw [Nat.cast_mul, ← pow_toNat, ← mul_assoc, mul_div_cancel_right₀ _ hpos.ne']
  rfl

theorem lt_size_iff : n < size r m e ↔ n * Nat.pow r (-e).toNat < m * Nat.pow r e.toNat := by
  have hpos : (0 : ℚ) < (Nat.pow r (-e).toNat : ℕ) := by exact_mod_cast Nat.pow_pos (NeZero.pos r)
  rw [size_eq_div, lt_div_iff₀ hpos]
  exact_mod_cast Iff.rfl

/-! ## Powers as bounds -/

theorem size_lt_pow {j : ℕ} (h : m < Nat.pow r j) (e : ℤ) : size r m e < r ^ (e + j) := by
  rw [← size_pow]
  exact mul_lt_mul_of_pos_right (Nat.cast_lt.mpr h) (base_pow_pos r e)

theorem size_le_pow_iff (hk : e ≤ k) : size r m e ≤ r ^ k ↔ m ≤ Nat.pow r (k - e).toNat := by
  have hpow : (r : ℚ) ^ k = size r (Nat.pow r (k - e).toNat) e := by
    rw [size_pow]
    congr 1
    omega
  rw [hpow]
  exact (mul_le_mul_iff_left₀ (base_pow_pos r e)).trans Nat.cast_le

end

theorem log_size (hr : 1 < r) (hm : m ≠ 0) (e : ℤ) : Int.log r (size r m e) = Nat.log r m + e := by
  have : NeZero r := ⟨by omega⟩
  have hpos := size_pos (r := r) hm e
  refine le_antisymm (Int.lt_add_one_iff.mp ?_) ?_
  · rw [← Int.lt_zpow_iff_log_lt hr hpos, add_right_comm, add_comm]
    exact size_lt_pow (Nat.lt_pow_succ_log_self hr m) e
  · rw [← Int.zpow_le_iff_le_log hr hpos, add_comm, ← size_pow]
    exact size_mono (Nat.pow_log_le_self r hm) r e

/-! ## Signs -/

def withSign (negative : Bool) (x : ℚ) : ℚ := if negative then -x else x

theorem withSign_zero (s : Bool) : withSign s 0 = 0 := by cases s <;> simp [withSign]

theorem withSign_not (s : Bool) (x : ℚ) : withSign (!s) x = -withSign s x := by cases s <;> simp [withSign]

theorem withSign_neg (s : Bool) (x : ℚ) : withSign s (-x) = -withSign s x := by cases s <;> simp [withSign]

theorem withSign_add (s : Bool) (x y : ℚ) : withSign s (x + y) = withSign s x + withSign s y := by
  cases s with
  | false => rfl
  | true => exact neg_add x y

theorem withSign_mul (s t : Bool) (x y : ℚ) : withSign s x * withSign t y = withSign (s != t) (x * y) := by
  cases s <;> cases t <;> simp [withSign]

theorem abs_withSign (s : Bool) (x : ℚ) : |withSign s x| = |x| := by cases s <;> simp [withSign]

theorem abs_withSign_size (s : Bool) (r m : ℕ) (e : ℤ) : |withSign s (size r m e)| = size r m e := by
  rw [abs_withSign, abs_of_nonneg (size_nonneg r m e)]

theorem map_withSign {f : ℚ → ℚ} (hodd : ∀ x, f (-x) = -f x) (s : Bool) (x : ℚ) :
    f (withSign s x) = withSign s (f x) := by
  cases s with
  | false => rfl
  | true => exact hodd x

end Tradepost.Number
