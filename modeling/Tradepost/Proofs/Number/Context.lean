import Tradepost.Proofs.Number.Format
import Tradepost.Proofs.Number.Value

/-!
# What the context keeps of a number

A result of the context is the number of its format that is nearest to the
exact one. It depends on the number alone, not on the digits it was computed
from; and there is none exactly for the numbers from `unheld` on.
-/

namespace Tradepost.Decimal

open Number

variable {x y : ℚ} {s : Bool} {c c' : Nat} {e e' k : Int} {d : Decimal}

def context : Format := ⟨10, precision, leastExponent, by decide, by decide⟩

/-! ## Results of the context -/

theorem place_size (hc : c ≠ 0) (e : Int) :
    context.place (size 10 c e) = max leastExponent (e + digitCount c - precision) := by
  have hlog := log_decimal hc e
  rw [Format.place_of_pos (size_pos hc e)]
  show max leastExponent (Int.log 10 (size 10 c e) + 1 - precision) = _
  omega

/-- So many digits are dropped that the last one stands in the last place, or none if it stands
there or higher. -/
theorem size_dropped {j : Nat} (hj : e + j = max e (context.place (size 10 c e))) :
    size 10 (dropDigitsHalfEven c j) (e + j) = context.nearest (size 10 c e) := by
  rcases le_or_gt (context.place (size 10 c e)) e with hle | hlt
  · obtain rfl : j = 0 := by omega
    rw [dropDigitsHalfEven_zero, Nat.cast_zero, add_zero]
    exact (Format.nearest_eq (n := c) (j := e) rfl hle).symm
  · have hplace : context.place (size 10 c e) = e + j := by omega
    have hdrop : ((dropDigitsHalfEven c j : Nat) : ℚ) = nearestEven ((c : ℚ) / (10 ^ j : Nat)) := by
      exact_mod_cast congrArg (Int.cast (R := ℚ)) (dropDigitsHalfEven_eq c j)
    have hquot : (c : ℚ) / (10 ^ j : Nat) = size 10 c e / (10 : Nat) ^ (e + j) := by
      rw [add_comm, base_pow_add, size, mul_div_mul_right _ _ (base_pow_pos 10 e).ne', zpow_natCast, Nat.cast_pow]
    rw [Format.nearest, hplace, size, hdrop, hquot]
    rfl

structure Fitted (c : Nat) (e : Int) (c' : Nat) (e' : Int) : Prop where
  nearest : size 10 c' e' = context.nearest (size 10 c e)
  digits : c' < Nat.pow 10 precision
  top : size 10 c' e' < 10 ^ (maxExponent + 1)
  exponent : min maxExponent e ≤ e'

theorem fitted_dropped {j : Nat} (hj : e + j = max e (context.place (size 10 c e)))
    (htop : e + digitCount c ≤ maxExponent + 1) (hplace : e + j = e ∨ e + j + precision ≤ maxExponent + 1)
    (hdigits : dropDigitsHalfEven c j < Nat.pow 10 precision) : Fitted c e (dropDigitsHalfEven c j) (e + j) where
  nearest := size_dropped hj
  digits := hdigits
  top := by
    rcases hplace with hsame | hlow
    · obtain rfl : j = 0 := by omega
      rw [dropDigitsHalfEven_zero, hsame]
      exact (size_lt_pow (lt_pow_digitCount c) e).trans_le (zpow_le_zpow_right₀ (by norm_num) htop)
    · exact (size_lt_pow hdigits _).trans_le (zpow_le_zpow_right₀ (by norm_num) hlow)
  exponent := by omega

/-- The carry makes a power of ten, whose last zero goes into the exponent. -/
theorem fitted_carried {j : Nat} (hj : e + j = max e (context.place (size 10 c e)))
    (hlow : e + j + precision ≤ maxExponent) (hcarry : dropDigitsHalfEven c j = Nat.pow 10 precision) :
    Fitted c e (dropDigitsHalfEven c j / 10) (e + j + 1) := by
  have hsize : size 10 (Nat.pow 10 27) (e + j + 1) = 10 ^ (e + j + precision) := by
    rw [size_pow, Nat.cast_ofNat]
    congr 1
    have hprec : precision = 28 := rfl
    omega
  rw [hcarry, show Nat.pow 10 precision / 10 = Nat.pow 10 27 by decide]
  refine ⟨?_, by decide, ?_, by omega⟩
  · rw [← size_dropped hj, hcarry, hsize, size_pow, Nat.cast_ofNat]
  · rw [hsize]
    exact zpow_lt_zpow_right₀ (by norm_num) (by omega)

/-- A number is fitted into the context, unless it comes to more digits before the point than the
greatest exponent has. -/
theorem fit_cases (s : Bool) (c : Nat) (e : Int) :
    (∃ c' e', fit s c e = .ok (.finite s c' e') ∧ Fitted c e c' e') ∨
      (fit s c e = .error .overflow ∧ 10 ^ (maxExponent + 1) ≤ context.nearest (size 10 c e)) := by
  have hprec : precision = 28 := rfl
  have hleast : leastExponent = -1000026 := rfl
  have hmax : maxExponent = 999999 := rfl
  unfold fit
  by_cases hc : c = 0
  · refine .inl ⟨0, _, if_pos hc, ?_, Nat.pow_pos (by decide), ?_, le_max_right ..⟩
    · rw [hc, size_zero, size_zero, Format.nearest_zero]
    · rw [size_zero]
      positivity
  rw [if_neg hc]
  have hplace := place_size hc e
  by_cases hlarge : maxExponent < e + digitCount c - 1
  · refine .inr ⟨if_pos hlarge, context.pow_le_nearest ((context.le_log_iff (size_pos hc e)).mp ?_) (by decide)⟩
    show maxExponent + 1 ≤ Int.log 10 (size 10 c e)
    rw [log_decimal hc]
    omega
  rw [if_neg hlarge, shorten]
  obtain ⟨j, hj⟩ : ∃ j : Nat, max (digitCount c - precision) (leastExponent - e).toNat = j := ⟨_, rfl⟩
  have hej : e + j = max e (context.place (size 10 c e)) := by omega
  have hle : dropDigitsHalfEven c j ≤ Nat.pow 10 precision :=
    dropDigitsHalfEven_le ((lt_pow_digitCount c).trans_le (Nat.pow_le_pow_right (by decide) (by omega)))
  rw [hj]
  by_cases hdigits : dropDigitsHalfEven c j < Nat.pow 10 precision
  · rw [if_pos hdigits]
    exact .inl ⟨_, _, rfl, fitted_dropped hej (by omega) (by omega) hdigits⟩
  rw [if_neg hdigits]
  have hcarry := le_antisymm hle (not_lt.mp hdigits)
  by_cases hover : maxExponent < e + j + precision
  · refine .inr ⟨if_pos hover, ?_⟩
    rw [← size_dropped hej, hcarry, size_pow]
    exact zpow_le_zpow_right₀ (by norm_num) (by omega)
  · rw [if_neg hover]
    exact .inl ⟨_, _, rfl, fitted_carried hej (by omega) hcarry⟩

theorem fit_fitted (h : fit s c e = .ok d) : ∃ c' e', d = .finite s c' e' ∧ Fitted c e c' e' := by
  rcases fit_cases s c e with ⟨c', e', hfit, hfitted⟩ | ⟨hfit, _⟩
  · exact ⟨c', e', Except.ok.inj (h.symm.trans hfit), hfitted⟩
  · cases h.symm.trans hfit

theorem fit_value (h : fit s c e = .ok d) : d.value = context.nearest (finite s c e).value := by
  obtain ⟨c', e', rfl, hfitted⟩ := fit_fitted h
  rw [value, value, map_withSign Format.nearest_neg, hfitted.nearest]

theorem fit_size (s : Bool) (h : size 10 c e ≤ 10 ^ k) (h0 : 0 ≤ k) (hk : k ≤ maxExponent) :
    ∃ c' e', fit s c e = .ok (.finite s c' e') ∧ size 10 c' e' ≤ 10 ^ k := by
  have hle : context.nearest (size 10 c e) ≤ 10 ^ k :=
    context.nearest_le_pow h (le_trans (by decide) h0)
  rcases fit_cases s c e with ⟨c', e', hfit, hfitted⟩ | ⟨_, hlarge⟩
  · exact ⟨c', e', hfit, hfitted.nearest.trans_le hle⟩
  · have hlt : (10 : ℚ) ^ k < 10 ^ (maxExponent + 1) := zpow_lt_zpow_right₀ (by norm_num) (by omega)
    exact absurd (hlarge.trans hle) hlt.not_ge

/-! ## Numbers that are too large -/

def unheld : ℚ := (10 ^ precision - 1 / 2) * 10 ^ (maxExponent + 1 - precision)

theorem top_split (i : Nat) :
    (10 : ℚ) ^ (maxExponent + 1 - precision + i) = 10 ^ i * 10 ^ (maxExponent + 1 - precision) := by
  rw [zpow_add₀ (by norm_num), zpow_natCast, mul_comm]

theorem top_eq : (10 : ℚ) ^ (maxExponent + 1) = 10 ^ precision * 10 ^ (maxExponent + 1 - precision) := by
  rw [← top_split, Int.sub_add_cancel]

theorem place_top (hlow : 10 ^ maxExponent ≤ x) (hhigh : x < 10 ^ (maxExponent + 1)) :
    context.place x = maxExponent + 1 - precision := by
  have hpos : 0 < x := lt_of_lt_of_le (by positivity) hlow
  have hlog := (context.le_log_iff hpos).mpr hlow
  have hlog' := (context.log_lt_iff hpos).mpr hhigh
  rw [Format.place_of_pos hpos]
  generalize Int.log context.base x = l at hlog hlog' ⊢
  show max leastExponent (l + 1 - precision) = _
  have hprec : precision = 28 := rfl
  have hleast : leastExponent = -1000026 := rfl
  have hmax : maxExponent = 999999 := rfl
  omega

theorem pow_lt_unheld : 10 ^ maxExponent < unheld := by
  have hsplit := top_split 27
  rw [show maxExponent + 1 - precision + (27 : Nat) = maxExponent by decide] at hsplit
  rw [hsplit, unheld]
  refine mul_lt_mul_of_pos_right ?_ (by positivity)
  norm_num [precision]

theorem unheld_lt_pow : unheld < 10 ^ (maxExponent + 1) := by
  rw [top_eq, unheld]
  refine mul_lt_mul_of_pos_right ?_ (by positivity)
  norm_num [precision]

theorem nearest_top (hlow : 10 ^ maxExponent ≤ x) (hhigh : x < 10 ^ (maxExponent + 1)) :
    context.nearest x =
      nearestEven (x / 10 ^ (maxExponent + 1 - precision)) * 10 ^ (maxExponent + 1 - precision) := by
  rw [Format.nearest, place_top hlow hhigh]
  rfl

theorem nearest_lt_pow (hx : x < unheld) : context.nearest x < 10 ^ (maxExponent + 1) := by
  have hpos : (0 : ℚ) < 10 ^ (maxExponent + 1 - precision) := by positivity
  -- a smaller number is no better than the power of ten that has the same last place as the numbers above it
  refine (Format.nearest_mono (le_max_left x (10 ^ maxExponent))).trans_lt ?_
  have hy : max x (10 ^ maxExponent) < unheld := max_lt hx pow_lt_unheld
  have hlow := le_max_right x (10 ^ maxExponent)
  generalize max x (10 ^ maxExponent) = y at hy hlow
  have hquot : y / 10 ^ (maxExponent + 1 - precision) < 10 ^ precision - 1 / 2 := (div_lt_iff₀ hpos).mpr hy
  rw [nearest_top hlow (hy.trans unheld_lt_pow), top_eq]
  refine mul_lt_mul_of_pos_right ?_ hpos
  have hnear := (abs_le.mp (nearestEven_spec (y / 10 ^ (maxExponent + 1 - precision))).1).1
  linarith

/-- The tie below the power of ten goes up to it, and everything below the tie stays below the
power. -/
theorem pow_le_nearest_iff : 10 ^ (maxExponent + 1) ≤ context.nearest x ↔ unheld ≤ x := by
  refine ⟨fun h => not_lt.mp fun hx => (nearest_lt_pow hx).not_ge h, fun h => ?_⟩
  refine le_trans (le_of_eq ?_) (Format.nearest_mono h)
  have hpos : (0 : ℚ) < 10 ^ (maxExponent + 1 - precision) := by positivity
  have htie : nearestEven (10 ^ precision - 1 / 2) = 10 ^ precision :=
    nearestEven_eq_iff.mpr ⟨by norm_num, fun _ => by decide⟩
  rw [nearest_top pow_lt_unheld.le unheld_lt_pow, top_eq, unheld, mul_div_cancel_right₀ _ hpos.ne', htie]
  push_cast
  rfl

theorem fit_eq_error {b : Breakdown} : fit s c e = .error b ↔ b = .overflow ∧ unheld ≤ size 10 c e := by
  rw [← pow_le_nearest_iff]
  rcases fit_cases s c e with ⟨c', e', hfit, hfitted⟩ | ⟨hfit, hlarge⟩
  · rw [hfit, ← hfitted.nearest]
    exact ⟨nofun, fun h => absurd h.2 hfitted.top.not_ge⟩
  · rw [hfit]
    exact ⟨fun h => ⟨(Except.error.inj h).symm, hlarge⟩, fun h => h.1 ▸ rfl⟩

/-! ## Operations -/

theorem nearest_size (hc : c < Nat.pow 10 precision) (he : leastExponent ≤ e) :
    context.nearest (size 10 c e) = size 10 c e := by
  refine context.nearest_short (m := c) ?_ he
  rw [abs_of_nonneg (Int.natCast_nonneg c)]
  exact_mod_cast hc

theorem nearest_value (s : Bool) (hc : c < Nat.pow 10 precision) (he : leastExponent ≤ e) :
    context.nearest (finite s c e).value = (finite s c e).value := by
  rw [value, map_withSign Format.nearest_neg, nearest_size hc he]

theorem add_value {x y : Decimal} (hx : x.isFinite = true) (hy : y.isFinite = true) (h : x.add y = .ok d) :
    d.isFinite = true ∧ d.value = context.nearest (x.value + y.value) := by
  obtain ⟨s, c, e, rfl⟩ := isFinite_iff.mp hx
  obtain ⟨t, c', f, rfl⟩ := isFinite_iff.mp hy
  obtain ⟨_, _, hd, _⟩ := fit_fitted h
  rw [← exactSum_value]
  exact ⟨isFinite_iff.mpr ⟨_, _, _, hd⟩, fit_value h⟩

theorem mul_value {x y : Decimal} (hx : x.isFinite = true) (hy : y.isFinite = true) (h : x.mul y = .ok d) :
    d.isFinite = true ∧ d.value = context.nearest (x.value * y.value) := by
  obtain ⟨s, c, e, rfl⟩ := isFinite_iff.mp hx
  obtain ⟨t, c', f, rfl⟩ := isFinite_iff.mp hy
  obtain ⟨_, _, hd, _⟩ := fit_fitted h
  rw [← value_mul]
  exact ⟨isFinite_iff.mpr ⟨_, _, _, hd⟩, fit_value h⟩

end Tradepost.Decimal
