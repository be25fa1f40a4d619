import Tradepost.Proofs.Number.Quotient
import Tradepost.Proofs.Number.Shortest

/-!
# Operations of double precision numbers

An operation gives the number nearest to its exact result, unless that is too
large for the format; so does reading a decimal that is neither too large nor
too small. Cutting the fraction off gives the floor of a number that is not
negative.
-/

namespace Tradepost.Binary64

open Number

variable {x y : Binary64} {m n d : Nat} {e : Int} {s t : Bool}

/-! ## Ratios and products -/

theorem ofRatio_value (s : Bool) (hd : d ≠ 0) (h : (n : ℚ) / d < 2 ^ 1000) :
    (ofRatio s n d).Canonical ∧ (ofRatio s n d).value = double.nearest (withSign s (n / d)) := by
  obtain ⟨m, e, hx⟩ := ofRatio_finite s hd h
  refine ⟨ofRatio_canonical hd (by rw [hx]; rfl), ?_⟩
  rw [hx, value, (ofRatio_nearest hd hx).2, map_withSign double.nearest_neg]

theorem mul_value (hx : x.Canonical) (hy : y.Canonical) (h : |x.value * y.value| < 2 ^ 1000) :
    (x.mul y).Canonical ∧ (x.mul y).value = double.nearest (x.value * y.value) := by
  obtain ⟨s, m, e, rfl⟩ := hx.finite
  obtain ⟨t, k, f, rfl⟩ := hy.finite
  have hvalue : (finite s m e).value * (finite t k f).value = withSign (s != t) (size 2 (m * k) (e + f)) := by
    rw [value, value, withSign_mul, size_mul]
  rw [hvalue, abs_withSign_size, size_eq_div] at h
  rw [hvalue, size_eq_div]
  exact ofRatio_value (s != t) (Nat.pow_pos (by decide)).ne' h

theorem ofInt_value {n : ℤ} (h : |n| < 2 ^ 53) : (ofInt n).Canonical ∧ (ofInt n).value = n := by
  have hcast : ((n.natAbs : ℕ) : ℚ) / (1 : ℕ) = |(n : ℚ)| := by
    rw [Nat.cast_one, div_one, Nat.cast_natAbs, Int.cast_abs]
  have hlt : ((n.natAbs : ℕ) : ℚ) / (1 : ℕ) < 2 ^ 1000 := by
    rw [hcast]
    have h53 : (|n| : ℚ) < 2 ^ 53 := by exact_mod_cast h
    exact h53.trans (pow_lt_pow_right₀ (by norm_num) (by norm_num))
  obtain ⟨hcanonical, hvalue⟩ := ofRatio_value (decide (n < 0)) one_ne_zero hlt
  refine ⟨hcanonical, hvalue.trans ?_⟩
  have hsigned : withSign (decide (n < 0)) |(n : ℚ)| = n := by
    unfold withSign
    by_cases hn : n < 0
    · rw [if_pos (by simpa using hn), abs_of_neg (by exact_mod_cast hn), neg_neg]
    · rw [if_neg (by simpa using hn), abs_of_nonneg (by exact_mod_cast not_lt.mp hn)]
  rw [hcast, hsigned]
  simpa using double.nearest_short (k := 0) h (by decide)

theorem mul_back {c : ℤ} {q : ℚ} (hx : x.Canonical) (hvalue : x.value = double.nearest (q / c)) (hc : |c| < 2 ^ 53)
    (hq : |q / c| ≤ 2 ^ (900 : ℤ)) : (x.mul (ofInt c)).Canonical ∧ (x.mul (ofInt c)).value = double.back c q := by
  obtain ⟨hcanonical, hcast⟩ := ofInt_value hc
  have hfactor : |x.value| ≤ 2 ^ (900 : ℤ) := by
    rw [hvalue]
    exact Format.abs_nearest_le_pow hq (by decide)
  have hc' : |(c : ℚ)| ≤ 2 ^ (53 : ℤ) := by exact_mod_cast hc.le
  have hproduct : |x.value * (ofInt c).value| < 2 ^ 1000 := by
    rw [hcast, abs_mul]
    calc |x.value| * |(c : ℚ)| ≤ 2 ^ (900 : ℤ) * 2 ^ (53 : ℤ) :=
      mul_le_mul hfactor hc' (abs_nonneg _) (by positivity)
      _ = 2 ^ 953 := by rw [← zpow_add₀ two_ne_zero]; rfl
      _ < 2 ^ 1000 := pow_lt_pow_right₀ (by norm_num) (by norm_num)
  obtain ⟨hproduct', hback⟩ := mul_value hx hcanonical hproduct
  refine ⟨hproduct', hback.trans ?_⟩
  rw [hvalue, hcast, mul_comm]
  rfl

theorem double_divisor {b c : Nat} (hlow : 2 ^ b ≤ c) (hhigh : c < 2 ^ (b + 1)) (hb : b ≤ 1000)
    (hratio : ofRatio false 1 c = finite false m e) (hone : 1 ≤ c * size 2 m e) :
    double.Divisor c (b + 1 : Nat) where
  pos := by omega
  low := by
    rw [Nat.cast_succ, add_sub_cancel_right, zpow_natCast]
    exact_mod_cast hlow
  high := by
    rw [zpow_natCast]
    exact_mod_cast hhigh
  one := by
    have hc : c ≠ 0 := (Nat.pos_of_neZero (2 ^ b)).trans_le hlow |>.ne'
    rwa [(ofRatio_nearest hc hratio).2, Nat.cast_one] at hone
  least := by
    show (-1074 : ℤ) + (53 : Nat) + (b + 1 : Nat) ≤ 1
    omega

/-! ## Decimals -/

theorem ofDecimal_value {c : Nat} (hlow : c = 0 ∨ 10 ^ (-300 : ℤ) ≤ size 10 c e)
    (hhigh : size 10 c e ≤ 10 ^ (300 : ℤ)) :
    (ofDecimal s c e).Canonical ∧ (ofDecimal s c e).value = double.nearest (Decimal.finite s c e).value := by
  unfold ofDecimal
  by_cases hc : c = 0
  · rw [if_pos hc, hc, Decimal.value_zero, double.nearest_zero]
    exact ⟨canonical_zero s, by rw [value, size_zero, withSign_zero]⟩
  have htop := top_le (k := 301) hc (hhigh.trans_lt (zpow_lt_zpow_right₀ (by norm_num) (by norm_num)))
  have hbottom := (Int.zpow_le_iff_le_log (b := 10) (by decide) (size_pos hc e)).mp (hlow.resolve_left hc)
  rw [log_decimal hc] at hbottom
  rw [if_neg hc, if_neg (by omega), if_neg (by omega)]
  have hpow : Nat.pow 10 (-e).toNat ≠ 0 := (Nat.pow_pos (by decide)).ne'
  have hlt : ((c * Nat.pow 10 e.toNat : Nat) : ℚ) / (Nat.pow 10 (-e).toNat : Nat) < 2 ^ 1000 := by
    rw [← size_eq_div]
    refine hhigh.trans_lt ?_
    calc (10 : ℚ) ^ (300 : ℤ) = (10 ^ 3) ^ 100 := by rw [← pow_mul]; rfl
      _ < (2 ^ 10) ^ 100 := pow_lt_pow_left₀ (by norm_num) (by norm_num) (by norm_num)
      _ = 2 ^ 1000 := by rw [← pow_mul]
  obtain ⟨hcanonical, hvalue⟩ := ofRatio_value s hpow hlt
  rw [← size_eq_div] at hvalue
  exact ⟨hcanonical, hvalue⟩

/-! ## The fraction cut off -/

theorem truncate?_eq (hx : x.Canonical) (h : 0 ≤ x.value) : x.truncate? = some ⌊x.value⌋ := by
  obtain ⟨s, m, e, rfl⟩ := hx.finite
  have hfloor : ⌊size 2 m e⌋ = (m * Nat.pow 2 e.toNat / Nat.pow 2 (-e).toNat : Nat) := by
    rw [size_eq_div]
    exact_mod_cast Rat.floor_natCast_div_natCast _ _
  cases s with
  | false => exact congrArg some hfloor.symm
  | true =>
    -- only zero has the sign
    have hzero : size 2 m e = 0 := le_antisymm (neg_nonneg.mp h) (size_nonneg 2 m e)
    have hm := size_eq_zero.mp hzero
    subst hm
    simp [truncate?, value, size_zero, withSign]

end Tradepost.Binary64
