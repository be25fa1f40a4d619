import Tradepost.Number.Binary64Text
import Tradepost.Proofs.Number.Size

/-!
# How large the shortest digits get

The shortest digits of a double precision number come to no more than the power
of ten above it.
-/

namespace Tradepost

open Number

/-! ## Digits -/

variable {n : Nat}

theorem digitCount_eq (n : Nat) : digitCount n = Nat.log 10 n + 1 := by
  have hiff (k : Nat) : digitCount n ≤ k + 1 ↔ n < 10 ^ (k + 1) :=
    Nat.length_toDigits_le_iff (by decide) (Nat.succ_pos k)
  have hpos : 0 < digitCount n := Nat.length_toDigits_pos
  refine le_antisymm ((hiff _).mpr (Nat.lt_pow_succ_log_self (by decide) n)) ?_
  refine Nat.log_lt_of_lt_pow' hpos.ne' ?_
  have := (hiff (digitCount n - 1)).mp (by omega)
  rwa [Nat.sub_add_cancel hpos] at this

theorem digitCount_le {k : Nat} (hk : 0 < k) (h : n < Nat.pow 10 k) : digitCount n ≤ k :=
  (Nat.length_toDigits_le_iff (by decide) hk).mpr h

theorem lt_pow_digitCount (n : Nat) : n < Nat.pow 10 (digitCount n) := by
  rw [digitCount_eq]
  exact Nat.lt_pow_succ_log_self (by decide) n

theorem log_decimal (hn : n ≠ 0) (e : Int) : Int.log 10 (size 10 n e) = e + digitCount n - 1 := by
  have := log_size (r := 10) (by decide) hn e
  rw [digitCount_eq]
  push_cast at this ⊢
  omega

theorem top_le {e k : Int} (hn : n ≠ 0) (h : size 10 n e < 10 ^ k) : e + digitCount n ≤ k := by
  have hlog := (Int.lt_zpow_iff_log_lt (b := 10) (by decide) (size_pos hn e)).mp h
  rw [log_decimal hn] at hlog
  omega

theorem divHalfEven_le (n d : Nat) : divHalfEven n d ≤ n / d + 1 := by
  unfold divHalfEven
  split
  · omega
  · split <;> omega

/-! ## Shortest digits -/

namespace Binary64

variable {m : Nat} {e : Int} {k : Nat}

theorem inTenths_pos (m : Nat) (e k : Int) : 0 < (inTenths m e k).2 :=
  Nat.mul_pos (Nat.pow_pos (by decide)) (Nat.pow_pos (by decide))

theorem inTenths_eq (m : Nat) (e k : Int) :
    ((inTenths m e k).1 : ℚ) / (inTenths m e k).2 = size 2 m e * 10 ^ k := by
  have hten : (10 : ℚ) ^ k = size 10 1 k := by simp [size]
  rw [hten, size_eq_div, size_eq_div, div_mul_div_comm]
  unfold inTenths
  push_cast
  rw [one_mul]

theorem inTenths_lt (h : size 2 m e < 10 ^ k) {j : Int} (hj : 0 ≤ k + j) :
    (inTenths m e j).1 / (inTenths m e j).2 < Nat.pow 10 (k + j).toNat := by
  rw [Nat.div_lt_iff_lt_mul (inTenths_pos m e j)]
  have hpos : (0 : ℚ) < (inTenths m e j).2 := by exact_mod_cast inTenths_pos m e j
  have hlt : ((inTenths m e j).1 : ℚ) / (inTenths m e j).2 < (Nat.pow 10 (k + j).toNat : Nat) := by
    rw [inTenths_eq]
    have hsplit : ((Nat.pow 10 (k + j).toNat : Nat) : ℚ) = 10 ^ k * 10 ^ j := by
      rw [← zpow_natCast 10 k, ← zpow_add₀ (by norm_num)]
      push_cast [Nat.pow_eq]
      rw [← zpow_natCast]
      congr 1
      omega
    rw [hsplit]
    exact mul_lt_mul_of_pos_right h (by positivity)
  exact_mod_cast (div_lt_iff₀ hpos).mp hlt

theorem neighbour?_le {p : Int} {c : Nat} (h : neighbour? m e p = some c) :
    c ≤ (inTenths m e (-p)).1 / (inTenths m e (-p)).2 + 1 := by
  unfold neighbour? at h
  dsimp only at h
  generalize inTenths m e (-p) = t at h ⊢
  have hnear := divHalfEven_le t.1 t.2
  have hfar : (if divHalfEven t.1 t.2 = t.1 / t.2 then t.1 / t.2 + 1 else t.1 / t.2) ≤ t.1 / t.2 + 1 := by
    split <;> omega
  generalize (if divHalfEven t.1 t.2 = t.1 / t.2 then t.1 / t.2 + 1 else t.1 / t.2) = far at h hfar
  split at h
  · cases h
    exact hnear
  · split at h
    · cases h
      exact hfar
    · cases h

theorem shortestFrom_size (h : size 2 m e < 10 ^ k) {lead : Int}
    (hl : lead ≤ k) (len fuel : Nat) :
    (shortestFrom m e lead len fuel).2 ≤ lead - len ∧
      (shortestFrom m e lead len fuel).1 ≤ Nat.pow 10 (k - (shortestFrom m e lead len fuel).2).toNat := by
  induction fuel generalizing len with
  | zero =>
    unfold shortestFrom
    have hc := divHalfEven_le (inTenths m e (-(lead - len))).1 (inTenths m e (-(lead - len))).2
    exact ⟨Int.le_refl _, Nat.le_trans hc (inTenths_lt h (by omega))⟩
  | succ fuel ih =>
    unfold shortestFrom
    cases hn : neighbour? m e (lead - len) with
    | some c =>
      dsimp only
      exact ⟨Int.le_refl _, Nat.le_trans (neighbour?_le hn) (inTenths_lt h (by omega))⟩
    | none =>
      dsimp only
      obtain ⟨hp, hc⟩ := ih (len + 1)
      exact ⟨by omega, hc⟩

theorem trimZeros_eq (c : Nat) (p : Int) (fuel : Nat) :
    ∃ j : Nat, (trimZeros c p fuel).2 = p + j ∧ c = (trimZeros c p fuel).1 * Nat.pow 10 j := by
  induction fuel generalizing c p with
  | zero => exact ⟨0, by simp [trimZeros], by simp [trimZeros]⟩
  | succ fuel ih =>
    unfold trimZeros
    split
    · rename_i hc
      obtain ⟨j, hp, hcj⟩ := ih (c / 10) (p + 1)
      refine ⟨j + 1, by omega, ?_⟩
      have : Nat.pow 10 (j + 1) = Nat.pow 10 j * 10 := rfl
      rw [this, ← Nat.mul_assoc, ← hcj]
      omega
    · exact ⟨0, by simp, by simp⟩

theorem leadingExponent_le (h : size 2 m e < 10 ^ k) :
    leadingExponent m e ≤ k - 1 := by
  have hle := digitCount_le (by omega) (inTenths_lt h (j := 330) (by omega))
  have hl : leadingExponent m e = (digitCount ((inTenths m e 330).1 / (inTenths m e 330).2) : Int) - 331 := rfl
  omega

/-- The shortest digits are digits that were found, without the zeros at their end. -/
theorem shortest_found (h : size 2 m e < 10 ^ k) (hm : m ≠ 0) :
    ∃ (p : Int) (j : Nat), p ≤ k ∧ (shortest m e).2 = p + j ∧
      (shortest m e).1 * Nat.pow 10 j ≤ Nat.pow 10 (k - p).toNat := by
  have hhigh := leadingExponent_le h
  have hsize := shortestFrom_size h (Int.le_trans hhigh (by omega)) 0 17
  cases hs : shortestFrom m e (leadingExponent m e) 0 17 with
  | mk c p =>
    rw [hs] at hsize
    obtain ⟨hp, hc⟩ := hsize
    obtain ⟨j, hpj, hcj⟩ := trimZeros_eq c p 20
    have heq : shortest m e = trimZeros c p 20 := by rw [shortest, if_neg hm, hs]
    rw [heq]
    exact ⟨p, j, by omega, hpj, hcj ▸ hc⟩

theorem shortest_zero (e : Int) : shortest 0 e = (0, 0) := if_pos rfl

/-- Written in decimal a number stays below a power of ten, or reaches it at most. -/
theorem shortest_le (h : size 2 m e < 10 ^ k) : size 10 (shortest m e).1 (shortest m e).2 ≤ 10 ^ k := by
  by_cases hm : m = 0
  · rw [hm, shortest_zero, size_zero]
    positivity
  · obtain ⟨p, j, hp, hpj, hc⟩ := shortest_found h hm
    rw [hpj, ← size_mul_pow]
    exact (size_le_pow_iff hp).mpr hc

theorem toDecimal_le (s : Bool) (h : size 2 m e < 10 ^ k) :
    ∃ c p, (finite s m e).toDecimal = .finite s c p ∧ size 10 c p ≤ 10 ^ k :=
  ⟨_, _, rfl, shortest_le h⟩

/-! ## Comparisons -/

theorem size_le_units (m : Nat) (e : Int) :
    size 2 m e ≤ size 2 (m * Nat.pow 2 (e - leastExponent).toNat) leastExponent := by
  by_cases he : leastExponent ≤ e
  · exact (size_aligned m he).ge
  · rw [Int.toNat_of_nonpos (by omega), Nat.mul_one]
    exact mul_le_mul_of_nonneg_left (zpow_le_zpow_right₀ (by norm_num) (by omega)) (Nat.cast_nonneg m)

theorem size_of_lt {s : Bool} {b : Nat} {f : Int} (hf : leastExponent ≤ f)
    (hlow : (finite true b f).lt (finite s m e) = true) (hhigh : (finite s m e).lt (finite false b f) = true) :
    size 2 m e < size 2 b f := by
  have hlow := of_decide_eq_true hlow
  have hhigh := of_decide_eq_true hhigh
  have hunits : m * Nat.pow 2 (e - leastExponent).toNat < b * Nat.pow 2 (f - leastExponent).toNat := by
    unfold units at hlow hhigh
    cases s with
    | true =>
      simp only [ite_true] at hlow
      omega
    | false =>
      simp only [Bool.false_eq_true, ite_false] at hhigh
      omega
  refine (size_le_units m e).trans_lt ?_
  rw [← size_aligned b hf]
  exact mul_lt_mul_of_pos_right (by exact_mod_cast hunits) (base_pow_pos 2 _)

end Binary64

end Tradepost
