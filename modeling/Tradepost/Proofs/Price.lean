import Tradepost.Price
import Tradepost.Proofs.Number.Exact
import Tradepost.Proofs.Number.PointText

/-!
# Prices written and read again

Every scaled price is a whole number that the context holds. Such a number is
written out in full, and what is written scales to the same number again.
-/

namespace Tradepost.Price

open Decimal

variable {v : Int} {currency : String}

theorem precision_le (currency : String) : Currency.precision currency ≤ 8 := by
  unfold Currency.precision Currency.cryptoPrecision Currency.fiatPrecision
  split <;> omega

/-! ## Writing -/

def plainText (v : Int) (currency : String) : String :=
  String.ofList (signed (v < 0) (pointText (Currency.precision currency) v.natAbs))

theorem textOf_plain (hv : Holds v.natAbs) (currency : String) :
    textOf v currency = .ok (plainText v currency) := by
  obtain ⟨c, j, hfit, hcj⟩ := fit_held hv (precision_le currency) (v < 0)
  have hshift : (Decimal.ofInt v).shift (-Currency.precision currency) =
      .ok (.finite (v < 0) c (-Currency.precision currency + j)) := by
    rw [Decimal.ofInt, Decimal.shift, Int.zero_add, hfit]
  have hplaces : -(Currency.precision currency : Int) + j + Currency.precision currency = j := by omega
  unfold textOf
  dsimp only
  rw [hshift]
  show Except.ok (fixedText _ _ _ _) = _
  rw [fixedText, hplaces, if_pos (Int.natCast_nonneg j), Int.toNat_natCast, hcj]
  rfl

/-! ## Reading -/

theorem read_plain (hv : Holds v.natAbs) (currency : String) :
    read (.text (plainText v currency)) = .ok (.finite (v < 0) v.natAbs (-Currency.precision currency)) := by
  have hlimits : withinLimits? (v < 0) v.natAbs (-Currency.precision currency) =
      some (.finite (v < 0) v.natAbs (-Currency.precision currency)) := by
    have hsize := hv.size
    have hprec := precision_le currency
    have hmax : maxExponent = 999999 := rfl
    have hexact : exactMax = 999999999999999999 := rfl
    have hexact' : exactLeast = -1999999999999999997 := rfl
    unfold withinLimits?
    dsimp only
    refine if_pos ⟨by omega, ?_⟩
    split <;> omega
  obtain ⟨whole, fraction, hform, htext⟩ := pointText_form (Currency.precision currency) v.natAbs
  unfold read plainText
  dsimp only
  rw [htext, strip_figures (hform.figures _), hform.read, hlimits]
  rfl

theorem wholePart_natCast (c j : Nat) : wholePart c j = c * Nat.pow 10 j := by
  unfold wholePart
  by_cases hc : c = 0
  · rw [if_pos hc, hc, Nat.zero_mul]
  · rw [if_neg hc, if_pos (Int.natCast_nonneg j), Int.toNat_natCast]

theorem toInt_natAbs {c : Nat} {e : Int} (h : wholePart c e = v.natAbs) :
    (Decimal.finite (v < 0) c e).toInt = .ok v := by
  unfold Decimal.toInt
  dsimp only
  rw [h]
  refine congrArg Except.ok ?_
  by_cases hneg : v < 0
  · rw [decide_eq_true hneg, if_pos rfl]
    omega
  · rw [decide_eq_false hneg, if_neg Bool.false_ne_true]
    omega

theorem scale_plain (hv : Holds v.natAbs) (currency : String) :
    scale (.finite (v < 0) v.natAbs (-Currency.precision currency)) currency = .ok v := by
  obtain ⟨c, j, hfit, hcj⟩ := fit_held hv (Nat.zero_le 8) (v < 0)
  have hj : -((0 : Nat) : Int) + j = j := by omega
  rw [hj] at hfit
  refine bind_eq_ok.mpr ⟨.finite (v < 0) c j, ?_, toInt_natAbs ((wholePart_natCast c j).trans hcj)⟩
  rw [Decimal.shift, Int.add_left_neg]
  exact hfit

theorem scaled_plain (hv : Holds v.natAbs) (currency : String) :
    scaled (.text (plainText v currency)) currency = .ok v :=
  bind_eq_ok.mpr ⟨_, reported_eq_ok.mpr (read_plain hv currency), computed_eq_ok.mpr (scale_plain hv currency)⟩

/-- Whatever is scaled, the context holds. -/
theorem holds_of_scale {x : Decimal} (h : scale x currency = .ok v) : Holds v.natAbs := by
  obtain ⟨y, hy, hint⟩ := bind_eq_ok.mp h
  obtain ⟨s, c, e, rfl, hheld⟩ : ∃ s c e, y = .finite s c e ∧ Holds (wholePart c e) := by
    cases x with
    | finite s c e =>
      obtain ⟨c', e', rfl, hfitted⟩ := fit_fitted hy
      exact ⟨s, c', e', rfl, hfitted.holds⟩
    | infinity s =>
      cases hy
      cases hint
    | nan g =>
      cases g with
      | true => cases hy
      | false =>
        cases hy
        cases hint
  cases hint
  have hsize : (if s = true then -(wholePart c e : Int) else wholePart c e).natAbs = wholePart c e := by
    split <;> simp
  rwa [hsize]

theorem holds_of_scaled {sent : Json} (h : scaled sent currency = .ok v) : Holds v.natAbs := by
  obtain ⟨x, _, hx⟩ := bind_eq_ok.mp h
  exact holds_of_scale (computed_eq_ok.mp hx)

/-! ## Round trip -/

/-- A whole number that the context holds is written as digits around a point and read back. The
context holds all that have no more digits than it, and all that anything sent is scaled to. -/
theorem text_read_back (currency : String) :
    (∀ v : Int, Holds v.natAbs → ∃ whole fraction,
      PointForm (Currency.precision currency) v.natAbs whole fraction ∧
      textOf v currency = .ok (String.ofList (signed (v < 0) (whole ++ '.' :: fraction))) ∧
      scaled (.text (String.ofList (signed (v < 0) (whole ++ '.' :: fraction)))) currency = .ok v) ∧
    (∀ v : Int, v.natAbs < Nat.pow 10 precision → Holds v.natAbs) ∧
    ∀ sent v, scaled sent currency = .ok v → Holds v.natAbs := by
  refine ⟨fun v hv => ?_, fun v => holds_of_lt, fun sent v => holds_of_scaled⟩
  obtain ⟨whole, fraction, hform, htext⟩ := pointText_form (Currency.precision currency) v.natAbs
  have hplain : plainText v currency = String.ofList (signed (v < 0) (whole ++ '.' :: fraction)) := by
    rw [plainText, htext]
  exact ⟨whole, fraction, hform, hplain ▸ textOf_plain hv currency, hplain ▸ scaled_plain hv currency⟩

theorem text_read_back_large : Holds (12 * Nat.pow 10 40) ∧ ∃ whole fraction,
    PointForm (Currency.precision "EUR") (12 * Nat.pow 10 40) whole fraction ∧
    textOf (-(12 * Nat.pow 10 40 : Nat)) "EUR" = .ok (String.ofList (signed true (whole ++ '.' :: fraction))) ∧
    scaled (.text (String.ofList (signed true (whole ++ '.' :: fraction)))) "EUR" =
      .ok (-(12 * Nat.pow 10 40 : Nat)) := by
  have hheld : Holds (12 * Nat.pow 10 40) := ⟨⟨12, 40, rfl, by decide⟩, by decide +kernel⟩
  exact ⟨hheld, (text_read_back "EUR").1 (-(12 * Nat.pow 10 40 : Nat)) hheld⟩

end Tradepost.Price
