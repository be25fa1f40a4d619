import Tradepost.Proofs.Number.Context

/-!
# Whole numbers that the context holds

A result of the context has 28 digits at most, with zeros behind them. A whole
number of that form loses nothing when its point is shifted, however many
zeros it has; and every whole number that scaling gives is of that form.
-/

namespace Tradepost.Decimal

open Number

variable {c c' n : Nat} {e e' : Int}

structure Holds (n : Nat) : Prop where
  digits : ∃ m k, n = m * Nat.pow 10 k ∧ m < Nat.pow 10 precision
  size : (digitCount n : Int) ≤ maxExponent + 1

theorem holds_of_lt (h : n < Nat.pow 10 precision) : Holds n where
  digits := ⟨n, 0, (Nat.mul_one n).symm, h⟩
  size := by
    have hcount : digitCount n ≤ precision := digitCount_le (by decide) h
    have hprec : precision = 28 := rfl
    have hmax : maxExponent = 999999 := rfl
    omega

theorem Fitted.holds (h : Fitted c e c' e') : Holds (wholePart c' e') := by
  unfold wholePart
  by_cases hc : c' = 0
  · rw [if_pos hc]
    exact holds_of_lt (by decide)
  rw [if_neg hc]
  by_cases he : 0 ≤ e'
  · rw [if_pos he]
    have hsize : size 10 (c' * Nat.pow 10 e'.toNat) 0 = size 10 c' e' := by simpa using size_aligned (r := 10) c' he
    have hwhole : c' * Nat.pow 10 e'.toNat ≠ 0 := Nat.mul_ne_zero hc (Nat.pow_pos (by decide)).ne'
    have htop := top_le hwhole (hsize.trans_lt h.top)
    rw [zero_add] at htop
    exact ⟨⟨c', e'.toNat, rfl, h.digits⟩, htop⟩
  · rw [if_neg he]
    have hle : dropDigitsHalfUp c' (-e').toNat ≤ Nat.pow 10 27 :=
      dropDigitsHalfUp_le (h.digits.trans_le (Nat.pow_le_pow_right (by decide) (by omega : 28 ≤ 27 + (-e').toNat)))
    exact holds_of_lt (hle.trans_lt (by decide))

theorem fit_held {places : Nat} (hn : Holds n) (hplaces : places ≤ 8) (s : Bool) :
    ∃ c j : Nat, fit s n (-places) = .ok (.finite s c (-places + j)) ∧ c * Nat.pow 10 j = n := by
  have hleast : leastExponent = -1000026 := rfl
  have hmax : maxExponent = 999999 := rfl
  obtain ⟨m, k, hmk, hm⟩ := hn.digits
  have hexact : context.nearest (size 10 n (-places)) = size 10 n (-places) := by
    rw [hmk, size_mul_pow]
    exact nearest_size hm (by omega)
  rcases fit_cases s n (-places) with ⟨c, e, hfit, hfitted⟩ | ⟨_, hlarge⟩
  · have he := hfitted.exponent
    obtain ⟨j, rfl⟩ : ∃ j : Nat, e = -places + j := ⟨(e + places).toNat, by omega⟩
    refine ⟨c, j, hfit, (size_inj (r := 10) (e := -places)).mp ?_⟩
    rw [size_mul_pow, hfitted.nearest, hexact]
  · rw [hexact] at hlarge
    have hcount := hn.size
    have hsmall : size 10 n (-places) < 10 ^ (maxExponent + 1) :=
      (size_lt_pow (lt_pow_digitCount n) _).trans_le (zpow_le_zpow_right₀ (by norm_num) (by omega))
    exact absurd hlarge hsmall.not_ge

end Tradepost.Decimal
