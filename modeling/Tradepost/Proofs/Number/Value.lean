import Tradepost.Number.Binary64
import Tradepost.Number.Decimal
import Tradepost.Proofs.Number.Size

/-!
# What numbers stand for

The rational number that a decimal or a double precision number stands for, and
the operations on decimals that are exact: the sign, the product and the sum
before they are brought into the context.
-/

namespace Tradepost

open Number

/-- The number that a double precision number stands for; a special stands for none. -/
def Binary64.value : Binary64 → ℚ
  | finite s m e => withSign s (size 2 m e)
  | infinity _ => 0
  | nan => 0

namespace Decimal

variable {c d : Nat} {e f : Int} {s t : Bool} {x : Decimal}

def value : Decimal → ℚ
  | finite s c e => withSign s (size 10 c e)
  | infinity _ => 0
  | nan _ => 0

theorem isFinite_iff : x.isFinite = true ↔ ∃ s c e, x = finite s c e := by
  cases x <;> simp [isFinite]

theorem value_zero (s : Bool) (e : Int) : (finite s 0 e).value = 0 := by rw [value, size_zero, withSign_zero]

theorem value_neg (x : Decimal) : x.neg.value = -x.value := by
  cases x with
  | finite s c e => exact withSign_not s _
  | infinity s => exact neg_zero.symm
  | nan g => exact neg_zero.symm

theorem value_mul (s : Bool) (c : Nat) (e : Int) (t : Bool) (d : Nat) (f : Int) :
    (finite (s != t) (c * d) (e + f)).value = (finite s c e).value * (finite t d f).value := by
  rw [value, size_mul, ← withSign_mul, value, value]

theorem value_shift (s : Bool) (c : Nat) (e k : Int) :
    (finite s c (e + k)).value = (finite s c e).value * 10 ^ k := by
  rw [value, size_shift, value]
  cases s <;> simp [withSign]

/-! ## Sums -/

theorem exactSum_value (s : Bool) (c : Nat) (e : Int) (t : Bool) (d : Nat) (f : Int) :
    (finite (exactSum s c e t d f).1 (exactSum s c e t d f).2.1 (exactSum s c e t d f).2.2).value =
      (finite s c e).value + (finite t d f).value := by
  simp only [value]
  rw [← size_aligned c (Int.min_le_left e f), ← size_aligned d (Int.min_le_right e f)]
  unfold exactSum
  dsimp only
  generalize c * Nat.pow 10 (e - min e f).toNat = a
  generalize d * Nat.pow 10 (f - min e f).toNat = b
  by_cases hst : s = t
  · subst hst
    rw [if_pos rfl, size_add, withSign_add]
  obtain rfl : t = !s := by cases s <;> cases t <;> simp_all
  rw [if_neg hst, withSign_not, ← withSign_neg, ← withSign_add, ← sub_eq_add_neg]
  rcases Nat.lt_trichotomy a b with hlt | rfl | hgt
  · rw [if_neg (Nat.lt_asymm hlt), if_pos hlt, withSign_not, ← withSign_neg, size_sub hlt.le, neg_sub]
  · rw [if_neg (Nat.lt_irrefl a), if_neg (Nat.lt_irrefl a), size_zero, sub_self, withSign_zero, withSign_zero]
  · rw [if_pos hgt, size_sub hgt.le]

theorem exactSum_size (s : Bool) (c : Nat) (e : Int) (t : Bool) (d : Nat) (f : Int) :
    size 10 (exactSum s c e t d f).2.1 (exactSum s c e t d f).2.2 ≤ size 10 c e + size 10 d f := by
  have hsum := congrArg abs (exactSum_value s c e t d f)
  simp only [value, abs_withSign_size] at hsum
  rw [hsum]
  refine (abs_add_le _ _).trans_eq ?_
  rw [abs_withSign_size, abs_withSign_size]

theorem exactSum_sign {t : Bool} (h : size 10 d f ≤ size 10 c e) : (exactSum false c e t d f).1 = false := by
  rw [← size_aligned c (Int.min_le_left e f), ← size_aligned d (Int.min_le_right e f)] at h
  have hle : d * Nat.pow 10 (f - min e f).toNat ≤ c * Nat.pow 10 (e - min e f).toNat := by
    exact_mod_cast le_of_mul_le_mul_right h (base_pow_pos 10 (min e f))
  unfold exactSum
  dsimp only
  split
  · rfl
  · split
    · rfl
    · rw [if_neg (by omega)]

end Decimal

end Tradepost
