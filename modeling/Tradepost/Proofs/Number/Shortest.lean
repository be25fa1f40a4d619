import Mathlib.Data.Nat.Cast.Order.Field
import Tradepost.Proofs.Number.Context
import Tradepost.Proofs.Number.Double

/-!
# Shortest digits keep the order

The decimal that a double precision number is written as is rounded back to
that number, whether it was found as the shortest one or all 18 digits were
taken. So a greater number is never written as a smaller decimal.
-/

namespace Tradepost

open Number

namespace Binary64

variable {m : Nat} {e p : Int} {s : Bool} {x y : Binary64}

theorem ofDecimal_nearest {c : Nat} (h : ofDecimal false c p = finite false m e) (hm : m ≠ 0) :
    double.nearest (size 10 c p) = size 2 m e := by
  unfold ofDecimal at h
  split at h
  · cases h
    exact absurd rfl hm
  split at h
  · cases h
  split at h
  · cases h
    exact absurd rfl hm
  · rw [size_eq_div]
    exact (ofRatio_nearest (Nat.pow_pos (by decide)).ne' h).2.symm

/-! ## Digits of a number -/

theorem one_le_size {i k : Nat} (hm : m ≠ 0) (he : -(i : ℤ) ≤ e) (h : 2 ^ i ≤ 10 ^ k) :
    1 ≤ size 2 m e * 10 ^ (k : ℤ) := by
  have hm' : (1 : ℚ) ≤ m := by exact_mod_cast Nat.pos_of_ne_zero hm
  have he' : (2 : ℚ) ^ (-(i : ℤ)) ≤ 2 ^ e := zpow_le_zpow_right₀ (by norm_num) he
  have h' : (2 : ℚ) ^ (i : ℤ) ≤ 10 ^ (k : ℤ) := by
    rw [zpow_natCast, zpow_natCast]
    exact_mod_cast h
  calc (1 : ℚ) = 1 * 2 ^ (-(i : ℤ)) * 2 ^ (i : ℤ) := by
        rw [one_mul, ← zpow_add₀ (by norm_num), neg_add_cancel, zpow_zero]
    _ ≤ m * 2 ^ e * 10 ^ (k : ℤ) := by gcongr

theorem pow_leadingExponent_le (hm : m ≠ 0) (he : leastExponent ≤ e) : 10 ^ leadingExponent m e ≤ size 2 m e := by
  -- the exponents get names, for their powers are too large to be computed over and over
  obtain ⟨i, hi⟩ : ∃ i : Nat, leastExponent = -(i : ℤ) := ⟨1074, rfl⟩
  obtain ⟨k, hk⟩ : ∃ k : Nat, (k : ℤ) = 330 := ⟨330, rfl⟩
  have hpow : 2 ^ i ≤ 10 ^ k := by
    obtain rfl : i = 1074 := by
      have hleast : leastExponent = -1074 := rfl
      omega
    obtain rfl : k = 330 := by omega
    decide +kernel
  obtain ⟨N, hN⟩ : ∃ N, (inTenths m e k).1 / (inTenths m e k).2 = N := ⟨_, rfl⟩
  have hlead : leadingExponent m e = -k + digitCount N - 1 := by
    have h330 : leadingExponent m e = (digitCount ((inTenths m e 330).1 / (inTenths m e 330).2) : Int) - 331 := rfl
    rw [h330, ← hN, hk]
    omega
  have hN0 : N ≠ 0 := by
    rw [← hN]
    refine (Nat.div_pos ?_ (inTenths_pos m e k)).ne'
    have hone := one_le_size hm (hi ▸ he) hpow
    rw [← inTenths_eq, le_div_iff₀ (by exact_mod_cast inTenths_pos m e k), one_mul] at hone
    exact_mod_cast hone
  have hsize : size 10 N (-k) ≤ size 2 m e := by
    have hquot : (N : ℚ) ≤ size 2 m e * 10 ^ (k : ℤ) := by
      rw [← inTenths_eq, ← hN]
      exact Nat.cast_div_le
    rw [size, zpow_neg, ← div_eq_mul_inv]
    exact (div_le_iff₀ (by positivity)).mpr hquot
  have hlow := Int.zpow_log_le_self (b := 10) (by decide) (size_pos (r := 10) hN0 (-k))
  rw [log_decimal hN0, ← hlead] at hlow
  exact hlow.trans hsize

theorem divHalfEven_error (m : Nat) (e p : Int) :
    |size 10 (divHalfEven (inTenths m e (-p)).1 (inTenths m e (-p)).2) p - size 2 m e| ≤ 10 ^ p / 2 := by
  have hc := divHalfEven_eq (c := (inTenths m e (-p)).1) (inTenths_pos m e (-p))
  rw [inTenths_eq] at hc
  generalize divHalfEven (inTenths m e (-p)).1 (inTenths m e (-p)).2 = c at hc
  have hc' : (c : ℚ) = nearestEven (size 2 m e * 10 ^ (-p)) := by exact_mod_cast congrArg (Int.cast (R := ℚ)) hc
  have hpos : (0 : ℚ) < 10 ^ p := by positivity
  have hx : size 2 m e = size 2 m e * 10 ^ (-p) * 10 ^ p := by
    rw [mul_assoc, ← zpow_add₀ (by norm_num), neg_add_cancel, zpow_zero, mul_one]
  obtain ⟨hnear, _⟩ := nearestEven_spec (size 2 m e * 10 ^ (-p))
  rw [← hc', abs_sub_comm] at hnear
  calc |size 10 c p - size 2 m e| = |(c - size 2 m e * 10 ^ (-p)) * 10 ^ p| := by
        rw [sub_mul, ← hx]
        rfl
    _ = |c - size 2 m e * 10 ^ (-p)| * 10 ^ p := by rw [abs_mul, abs_of_pos hpos]
    _ ≤ 1 / 2 * 10 ^ p := mul_le_mul_of_nonneg_right hnear hpos.le
    _ = 10 ^ p / 2 := by ring

/-! ## Reading back -/

/-- What differs from a number by less than it has in its 18th digit is rounded to it. -/
theorem nearest_of_close (h : (finite s m e).Canonical) (hm : m ≠ 0) {z u : ℚ} (hu : 10 ^ 17 * u ≤ size 2 m e)
    (hz : |z - size 2 m e| ≤ u / 2) : double.nearest z = size 2 m e := by
  obtain ⟨hlt, hleast, _⟩ := h
  have hpos := size_pos (r := 2) hm e
  have hu0 : 0 ≤ u := by linarith [abs_nonneg (z - size 2 m e)]
  obtain ⟨hlow, hhigh⟩ := abs_le.mp hz
  have hz0 : 0 < z := by linarith
  refine double.nearest_of_near (n := m) (j := e) rfl (double.place_le hz0.ne' ?_ hleast) ?_
  · have hm' : (m : ℚ) ≤ 2 ^ 53 - 1 := by
      have : m + 1 ≤ 2 ^ 53 := hlt
      have : (m : ℚ) + 1 ≤ 2 ^ 53 := by exact_mod_cast this
      linarith
    have hunit : (0 : ℚ) < 2 ^ e := by positivity
    have hx : size 2 m e ≤ (2 ^ 53 - 1) * 2 ^ e := mul_le_mul_of_nonneg_right hm' hunit.le
    rw [abs_of_pos hz0, base_pow_add double.base]
    show z < 2 ^ e * 2 ^ (53 : ℤ)
    norm_num at hx ⊢
    linarith
  · have hplace := double.lt_pow_place hz0.ne'
    rw [abs_of_pos hz0, base_pow_add double.base] at hplace
    have hplace' : z < 2 ^ double.place z * 2 ^ (53 : ℤ) := hplace
    refine hz.trans_lt ?_
    show u / 2 < 2 ^ double.place z / 2
    norm_num at hplace'
    linarith

theorem neighbour?_readsBack {c : Nat} (h : neighbour? m e p = some c) :
    ofDecimal false c p = finite false m e := by
  unfold neighbour? at h
  dsimp only at h
  generalize divHalfEven (inTenths m e (-p)).1 (inTenths m e (-p)).2 = near at h
  generalize (if near = (inTenths m e (-p)).1 / (inTenths m e (-p)).2 then _ else _) = far at h
  split at h
  · rename_i hnear
    cases h
    exact hnear
  · split at h
    · rename_i hfar
      cases h
      exact hfar
    · cases h

theorem shortestFrom_nearest (h : (finite s m e).Canonical) (hm : m ≠ 0) {lead : Int} (hl : 10 ^ lead ≤ size 2 m e)
    (len fuel : Nat) (hlen : len + fuel = 17) :
    double.nearest (size 10 (shortestFrom m e lead len fuel).1 (shortestFrom m e lead len fuel).2) =
      size 2 m e := by
  induction fuel generalizing len with
  | zero =>
    -- out of fuel, all 18 digits are taken
    unfold shortestFrom
    refine nearest_of_close h hm ?_ (divHalfEven_error m e _)
    refine le_trans (le_of_eq ?_) hl
    rw [← zpow_natCast, ← zpow_add₀ (by norm_num)]
    congr 1
    omega
  | succ fuel ih =>
    unfold shortestFrom
    cases hn : neighbour? m e (lead - len) with
    | some c => exact ofDecimal_nearest (neighbour?_readsBack hn) hm
    | none => exact ih (len + 1) (by omega)

theorem size_trimZeros (c : Nat) (p : Int) (fuel : Nat) :
    size 10 (trimZeros c p fuel).1 (trimZeros c p fuel).2 = size 10 c p := by
  obtain ⟨j, hp, hc⟩ := trimZeros_eq c p fuel
  rw [hp, ← size_mul_pow, ← hc]

theorem shortest_nearest (h : (finite s m e).Canonical) :
    double.nearest (size 10 (shortest m e).1 (shortest m e).2) = size 2 m e := by
  by_cases hm : m = 0
  · rw [hm, shortest_zero, size_zero, size_zero, double.nearest_zero]
  · have hfrom := shortestFrom_nearest h hm (pow_leadingExponent_le hm h.2.1) 0 17 rfl
    cases hs : shortestFrom m e (leadingExponent m e) 0 17 with
    | mk c p =>
      rw [hs] at hfrom
      have heq : shortest m e = trimZeros c p 20 := by rw [shortest, if_neg hm, hs]
      rw [heq, size_trimZeros]
      exact hfrom

theorem toDecimal_nearest (h : x.Canonical) : double.nearest x.toDecimal.value = x.value := by
  cases x with
  | infinity s => cases h
  | nan => cases h
  | finite s m e => rw [toDecimal, Decimal.value, map_withSign double.nearest_neg, shortest_nearest h, value]

/-! ## Order -/

theorem toDecimal_zero (s : Bool) (e : Int) : (finite s 0 e).toDecimal = .finite s 0 0 := by
  rw [toDecimal, shortest_zero]

theorem Canonical.finite (h : x.Canonical) : ∃ s m e, x = .finite s m e := by
  cases x with
  | finite s m e => exact ⟨s, m, e, rfl⟩
  | infinity s => cases h
  | nan => cases h

theorem toDecimal_value_eq (hx : x.Canonical) (hy : y.Canonical) (h : x.value = y.value) :
    x.toDecimal.value = y.toDecimal.value := by
  obtain ⟨s, m, e, rfl⟩ := hx.finite
  obtain ⟨t, n, f, rfl⟩ := hy.finite
  obtain ⟨rfl, rfl⟩ : m = n ∧ e = f := by
    have habs := congrArg abs h
    rw [value, value, abs_withSign_size, abs_withSign_size] at habs
    exact canonical_ext hx hy habs
  by_cases hst : s = t
  · rw [hst]
  · -- then the number is its own opposite
    have hopposite : withSign s (size 2 m e) = -withSign s (size 2 m e) := by
      rw [← withSign_not, ← Bool.eq_not.mpr (Ne.symm hst)]
      exact h
    have hsize : size 2 m e = 0 := by rw [← abs_withSign_size s, self_eq_neg.mp hopposite, abs_zero]
    rw [size_eq_zero.mp hsize, toDecimal_zero, toDecimal_zero, Decimal.value_zero, Decimal.value_zero]

theorem toDecimal_mono (hx : x.Canonical) (hy : y.Canonical) (h : x.value ≤ y.value) :
    x.toDecimal.value ≤ y.toDecimal.value := by
  rcases h.eq_or_lt with heq | hlt
  · exact (toDecimal_value_eq hx hy heq).le
  · by_contra hgt
    have hback := double.nearest_mono (not_le.mp hgt).le
    rw [toDecimal_nearest hx, toDecimal_nearest hy] at hback
    exact absurd hlt hback.not_gt

end Binary64

end Tradepost
