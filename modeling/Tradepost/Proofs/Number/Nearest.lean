import Mathlib.Algebra.Order.Round
import Mathlib.Data.Rat.Floor
import Mathlib.Order.Monotone.Odd
import Tradepost.Proofs.Number.Magnitude

/-!
# Nearest whole numbers

The two tie rules as functions of a rational number, both monotone and odd.
The divisions that drop the last digits of a coefficient compute them, with no
regard to how many digits there are.
-/

namespace Tradepost

open Number

variable {x y : ℚ} {n : ℤ}

theorem map_abs_of_odd {α : Type} [AddCommGroup α] [LinearOrder α] [IsOrderedAddMonoid α] {f : ℚ → α}
    (hodd : ∀ x, f (-x) = -f x) (hnonneg : ∀ {x}, 0 ≤ x → 0 ≤ f x) (x : ℚ) : f |x| = |f x| := by
  rcases le_total 0 x with hx | hx
  · rw [abs_of_nonneg hx, abs_of_nonneg (hnonneg hx)]
  · have hneg := hnonneg (neg_nonneg.mpr hx)
    rw [hodd] at hneg
    rw [abs_of_nonpos hx, hodd, abs_of_nonpos (neg_nonneg.mp hneg)]

/-- The whole number nearest to `x`; a tie goes to the even neighbour. -/
def nearestEven (x : ℚ) : ℤ :=
  if Int.fract x < 1 / 2 then ⌊x⌋ else if 1 / 2 < Int.fract x then ⌊x⌋ + 1 else ⌊x⌋ + ⌊x⌋ % 2

/-- The whole number nearest to `x`; a tie goes away from zero. -/
def nearestAway (x : ℚ) : ℤ := if x < 0 then -round (-x) else round x

/-! ## Ties to even -/

theorem nearestEven_spec (x : ℚ) :
    |x - nearestEven x| ≤ 1 / 2 ∧ (|x - nearestEven x| = 1 / 2 → Even (nearestEven x)) := by
  have hx : x = ⌊x⌋ + Int.fract x := (Int.floor_add_fract x).symm
  have h0 := Int.fract_nonneg x
  have h1 := Int.fract_lt_one x
  unfold nearestEven
  generalize Int.fract x = t at hx h0 h1 ⊢
  generalize ⌊x⌋ = k at hx ⊢
  subst hx
  split
  · rename_i hlow
    rw [add_sub_cancel_left, abs_of_nonneg h0]
    exact ⟨hlow.le, fun h => absurd h hlow.ne⟩
  split
  · rename_i hhigh
    have hsize : |(k : ℚ) + t - (k + 1 : ℤ)| = 1 - t := by
      rw [abs_of_nonpos] <;> push_cast <;> linarith
    rw [hsize]
    exact ⟨by linarith, fun h => absurd h (by linarith)⟩
  · have ht : t = 1 / 2 := by linarith
    subst ht
    rcases Int.even_or_odd k with hk | hk
    · rw [Int.even_iff.mp hk, add_zero, add_sub_cancel_left]
      exact ⟨by norm_num, fun _ => hk⟩
    · rw [Int.odd_iff.mp hk]
      refine ⟨?_, fun _ => hk.add_one⟩
      rw [abs_of_nonpos] <;> push_cast <;> linarith

theorem nearestEven_eq_iff : nearestEven x = n ↔ |x - n| ≤ 1 / 2 ∧ (|x - n| = 1 / 2 → Even n) := by
  refine ⟨fun h => h ▸ nearestEven_spec x, fun ⟨hn, heven⟩ => ?_⟩
  obtain ⟨hm, heven'⟩ := nearestEven_spec x
  generalize nearestEven x = m at hm heven'
  -- two whole numbers that are both nearest lie around a tie, and only one of them is even
  have hdist : |(m : ℚ) - n| ≤ 1 := by
    have := abs_sub_le (m : ℚ) x n
    rw [abs_sub_comm (m : ℚ) x] at this
    linarith
  have hdist' : |m - n| ≤ 1 := by exact_mod_cast hdist
  by_contra hne
  have hone : |(m : ℚ) - n| = 1 := by
    have : |m - n| = 1 := le_antisymm hdist' (Int.one_le_abs (sub_ne_zero.mpr hne))
    exact_mod_cast this
  have hboth : |x - m| = 1 / 2 ∧ |x - n| = 1 / 2 := by
    have := abs_sub_le (m : ℚ) x n
    rw [abs_sub_comm (m : ℚ) x, hone] at this
    exact ⟨by linarith, by linarith⟩
  have hodd : Odd (m - n) := by
    rcases abs_eq (by norm_num : (0 : ℤ) ≤ 1) |>.mp (show |m - n| = 1 by exact_mod_cast hone) with h | h <;>
      rw [h] <;> decide
  exact (Int.not_even_iff_odd.mpr hodd) ((heven' hboth.1).sub (heven hboth.2))

theorem nearestEven_intCast (n : ℤ) : nearestEven n = n :=
  nearestEven_eq_iff.mpr ⟨by simp, fun h => by simp at h⟩

theorem nearestEven_neg (x : ℚ) : nearestEven (-x) = -nearestEven x := by
  obtain ⟨hle, heven⟩ := nearestEven_spec x
  have hsize : |-x - (-nearestEven x : ℤ)| = |x - nearestEven x| := by
    rw [← abs_neg]
    congr 1
    push_cast
    ring
  exact nearestEven_eq_iff.mpr ⟨hsize ▸ hle, fun h => (heven (hsize ▸ h)).neg⟩

theorem nearestEven_mono (hxy : x ≤ y) : nearestEven x ≤ nearestEven y := by
  by_contra hlt
  -- then `x` is at least the upper one less a half, `y` at most the lower one and a half
  have hgap : (nearestEven y : ℚ) + 1 ≤ nearestEven x := by exact_mod_cast Int.lt_of_not_ge hlt
  have hx := abs_le.mp (nearestEven_spec x).1
  have hy := abs_le.mp (nearestEven_spec y).1
  have heq : x = y := by linarith
  exact hlt (heq ▸ le_refl _)

theorem nearestEven_le (h : x ≤ n) : nearestEven x ≤ n := (nearestEven_mono h).trans_eq (nearestEven_intCast n)

theorem le_nearestEven (h : n ≤ x) : n ≤ nearestEven x := (nearestEven_intCast n).symm.trans_le (nearestEven_mono h)

/-! ## Ties away from zero -/

theorem round_mono (hxy : x ≤ y) : round x ≤ round y := by
  rw [round_eq, round_eq]
  gcongr

theorem nearestAway_of_nonneg (hx : 0 ≤ x) : nearestAway x = round x := if_neg (not_lt.mpr hx)

theorem nearestAway_neg (x : ℚ) : nearestAway (-x) = -nearestAway x := by
  unfold nearestAway
  rcases lt_trichotomy x 0 with hx | rfl | hx
  · rw [if_neg (by linarith), if_pos hx, neg_neg]
  · simp
  · rw [if_pos (by linarith), if_neg (by linarith), neg_neg]

theorem nearestAway_mono (hxy : x ≤ y) : nearestAway x ≤ nearestAway y := by
  refine monotone_of_odd_of_monotoneOn_nonneg nearestAway_neg (fun x hx y hy hxy => ?_) hxy
  rw [nearestAway_of_nonneg hx, nearestAway_of_nonneg hy]
  exact round_mono hxy

theorem nearestAway_error (x : ℚ) : |nearestAway x - x| ≤ 1 / 2 := by
  unfold nearestAway
  split
  · have hneg : |((-round (-x) : ℤ) : ℚ) - x| = |-x - round (-x)| := by
      congr 1
      push_cast
      ring
    rw [hneg]
    exact abs_sub_round (-x)
  · rw [abs_sub_comm]
    exact abs_sub_round x

theorem nearestAway_nonneg (hx : 0 ≤ x) : 0 ≤ nearestAway x := by
  simpa [nearestAway] using nearestAway_mono hx

theorem nearestAway_abs (x : ℚ) : nearestAway |x| = |nearestAway x| :=
  map_abs_of_odd nearestAway_neg nearestAway_nonneg x

theorem nearestAway_small (h : |x| < 1 / 2) : nearestAway x = 0 := by
  rw [← abs_eq_zero, ← nearestAway_abs, nearestAway_of_nonneg (abs_nonneg x), round_eq_zero_iff]
  exact ⟨by linarith [abs_nonneg x], h⟩

/-! ## Dropping digits -/

variable {c d k : Nat}

theorem divHalfEven_eq (hd : 0 < d) : (divHalfEven c d : ℤ) = nearestEven ((c : ℚ) / d) := by
  have hd' : (0 : ℚ) < d := by exact_mod_cast hd
  have hfloor : ⌊(c : ℚ) / d⌋ = (c / d : Nat) := by
    rw [Rat.floor_natCast_div_natCast]
    rfl
  have hfract : Int.fract ((c : ℚ) / d) = (c % d : Nat) / d := Int.fract_div_natCast_eq_div_natCast_mod
  have hlow : ((c % d : Nat) : ℚ) / d < 1 / 2 ↔ 2 * (c % d) < d := by
    rw [div_lt_div_iff₀ hd' two_pos, one_mul, mul_comm]
    exact_mod_cast Iff.rfl
  have hhigh : (1 : ℚ) / 2 < ((c % d : Nat) : ℚ) / d ↔ d < 2 * (c % d) := by
    rw [div_lt_div_iff₀ two_pos hd', one_mul, mul_comm]
    exact_mod_cast Iff.rfl
  unfold divHalfEven nearestEven
  simp only [hfloor, hfract, hlow, hhigh]
  split
  · rfl
  · split <;> push_cast <;> rfl

theorem divHalfUp_eq (hd : 0 < d) : (divHalfUp c d : ℤ) = round ((c : ℚ) / d) := by
  have hd' : (0 : ℚ) < d := by exact_mod_cast hd
  have hc : (c : ℚ) = d * (c / d : Nat) + (c % d : Nat) := by exact_mod_cast (Nat.div_add_mod c d).symm
  have hrest : ((c % d : Nat) : ℚ) < d := by exact_mod_cast Nat.mod_lt c hd
  have hrest' : (0 : ℚ) ≤ (c % d : Nat) := Nat.cast_nonneg _
  refine (round_eq_iff.mpr ?_).symm
  rw [Set.mem_Ico, le_div_iff₀ hd', div_lt_iff₀ hd']
  unfold divHalfUp
  generalize c / d = q at hc ⊢
  generalize c % d = r at hc hrest hrest' ⊢
  rw [hc]
  split
  · rename_i hlow
    have hlow' : (2 : ℚ) * r < d := by exact_mod_cast hlow
    constructor <;> push_cast <;> linarith
  · rename_i hhigh
    have hhigh' : (d : ℚ) ≤ 2 * r := by exact_mod_cast Nat.le_of_not_lt hhigh
    constructor <;> push_cast <;> linarith

theorem div_pow_lt (h : digitCount c < k) : (c : ℚ) / (10 ^ k : Nat) < 1 / 2 := by
  have hc : 10 * c < 10 ^ k := by
    have hpow : Nat.pow 10 (digitCount c + 1) = Nat.pow 10 (digitCount c) * 10 := rfl
    have hle : Nat.pow 10 (digitCount c + 1) ≤ Nat.pow 10 k := Nat.pow_le_pow_right (by decide) h
    have := lt_pow_digitCount c
    calc 10 * c < Nat.pow 10 (digitCount c + 1) := by omega
      _ ≤ 10 ^ k := hle
  rw [div_lt_div_iff₀ (by positivity) two_pos, one_mul]
  have : c * 2 < 10 ^ k := by omega
  exact_mod_cast this

theorem dropDigitsHalfEven_eq (c k : Nat) :
    (dropDigitsHalfEven c k : ℤ) = nearestEven ((c : ℚ) / (10 ^ k : Nat)) := by
  unfold dropDigitsHalfEven
  split
  · rename_i hk
    have hlow := div_pow_lt hk
    have h0 : (0 : ℚ) ≤ c / (10 ^ k : Nat) := by positivity
    refine (nearestEven_eq_iff.mpr ?_).symm
    rw [Nat.cast_zero, Int.cast_zero, sub_zero, abs_of_nonneg h0]
    exact ⟨hlow.le, fun h => absurd h hlow.ne⟩
  · exact divHalfEven_eq (Nat.pow_pos (by decide))

theorem dropDigitsHalfEven_zero (c : Nat) : dropDigitsHalfEven c 0 = c := by
  have h := dropDigitsHalfEven_eq c 0
  rw [pow_zero, Nat.cast_one, div_one] at h
  exact_mod_cast h.trans (nearestEven_intCast c)

theorem dropDigitsHalfUp_eq (c k : Nat) : (dropDigitsHalfUp c k : ℤ) = round ((c : ℚ) / (10 ^ k : Nat)) := by
  unfold dropDigitsHalfUp
  split
  · rename_i hk
    have hlow := div_pow_lt hk
    have h0 : (0 : ℚ) ≤ c / (10 ^ k : Nat) := by positivity
    exact (round_eq_zero_iff.mpr ⟨by linarith, by linarith⟩).symm
  · exact divHalfUp_eq (Nat.pow_pos (by decide))

theorem div_pow_le (h : c < Nat.pow 10 (d + k)) : (c : ℚ) / (10 ^ k : Nat) ≤ (10 ^ d : Nat) := by
  rw [div_le_iff₀ (by positivity)]
  have hpow : Nat.pow 10 (d + k) = 10 ^ d * 10 ^ k := Nat.pow_add ..
  exact_mod_cast (h.trans_eq hpow).le

theorem dropDigitsHalfEven_le (h : c < Nat.pow 10 (d + k)) : dropDigitsHalfEven c k ≤ Nat.pow 10 d := by
  have := nearestEven_le (n := (10 ^ d : Nat)) (by exact_mod_cast div_pow_le h)
  rw [← dropDigitsHalfEven_eq] at this
  exact_mod_cast this

theorem dropDigitsHalfUp_le (h : c < Nat.pow 10 (d + k)) : dropDigitsHalfUp c k ≤ Nat.pow 10 d := by
  have := round_mono (div_pow_le h)
  rw [← dropDigitsHalfUp_eq, round_natCast] at this
  exact_mod_cast this

theorem Decimal.wholePart_eq (c : Nat) (e : Int) : (wholePart c e : ℤ) = round (size 10 c e) := by
  unfold wholePart
  by_cases hc : c = 0
  · rw [if_pos hc, hc, size_zero, round_zero]
    rfl
  have hone : Nat.pow 10 0 = 1 := rfl
  rw [if_neg hc, size_eq_div]
  by_cases he : 0 ≤ e
  · rw [if_pos he, Int.toNat_of_nonpos (by omega : -e ≤ 0), hone, Nat.cast_one, div_one, round_natCast]
  · rw [if_neg he, Int.toNat_of_nonpos (by omega : e ≤ 0), hone, Nat.mul_one]
    exact dropDigitsHalfUp_eq c _

end Tradepost
