import Tradepost.Proofs.Number.Shortest
import Tradepost.Proofs.Offer.Pricing
import Tradepost.Proofs.Price.Scaling

/-!
# What a margin does to a price

Roundings lie between a margin and the price it gives: to the shortest decimal,
twice to the digits of the context, and to smallest units. Each of them keeps
the order, so a greater margin never takes a price back, and a margin of zero
is none at all.
-/

namespace Tradepost

open Number

namespace Price

open Decimal

variable {currency : String} {s : Bool} {c : Nat} {e : Int}

/-! ## The context first -/

/-- A scaled price is told by what the context keeps of the amount. -/
theorem scale_eq (s : Bool) (c : Nat) (e : Int) (currency : String) : scale (finite s c e) currency =
    if 10 ^ (maxExponent + 1) ≤ |context.nearest (units (finite s c e) currency)| then .error .overflow
    else .ok (nearestAway (context.nearest (units (finite s c e) currency))) := by
  have hlarge : 10 ^ (maxExponent + 1) ≤ |context.nearest (units (finite s c e) currency)| ↔
      scale (finite s c e) currency = .error .overflow := by
    rw [← Format.nearest_abs, pow_le_nearest_iff, scale_eq_error]
    exact ⟨fun h => ⟨rfl, h⟩, And.right⟩
  cases h : scale (finite s c e) currency with
  | error b =>
    obtain ⟨rfl, _⟩ := scale_eq_error.mp h
    rw [if_pos (hlarge.mpr h)]
  | ok v =>
    have hsmall : ¬ 10 ^ (maxExponent + 1) ≤ |context.nearest (units (finite s c e) currency)| := by
      rw [hlarge, h]
      exact nofun
    rw [if_neg hsmall, scale_value h]

theorem scale_small (h : |units (finite s c e) currency| ≤ 10 ^ (-1 : ℤ)) :
    scale (finite s c e) currency = .ok 0 := by
  have hnear : |context.nearest (units (finite s c e) currency)| ≤ 10 ^ (-1 : ℤ) :=
    context.abs_nearest_le_pow h (by decide)
  have hone : (10 : ℚ) ^ (-1 : ℤ) < 10 ^ (maxExponent + 1) := zpow_lt_zpow_right₀ (by norm_num) (by decide)
  rw [scale_eq, if_neg (hnear.trans_lt hone).not_ge, nearestAway_small (hnear.trans_lt (by norm_num))]

theorem units_small {d : Decimal} (h : |d.value| ≤ 10 ^ (leastExponent + precision)) (currency : String) :
    |units d currency| ≤ 10 ^ (-1 : ℤ) := by
  have hle := precision_le currency
  rw [units, abs_mul, abs_of_pos (by positivity : (0 : ℚ) < 10 ^ Currency.precision currency)]
  calc |d.value| * 10 ^ Currency.precision currency
      ≤ 10 ^ (leastExponent + precision) * 10 ^ (8 : ℕ) := by gcongr; norm_num
    _ = 10 ^ (leastExponent + precision + 8) := by rw [← zpow_natCast, ← zpow_add₀ (by norm_num)]; rfl
    _ ≤ 10 ^ (-1 : ℤ) := zpow_le_zpow_right₀ (by norm_num) (by decide)

/-- Bringing a number into the context before it is scaled makes no difference. -/
theorem scale_fit (s : Bool) (c : Nat) (e : Int) (currency : String) :
    (do scale (← fit s c e) currency) = scale (finite s c e) currency := by
  rcases fit_cases s c e with ⟨c', e', hfit, _⟩ | ⟨hfit, hlarge⟩
  · have hvalue := fit_value hfit
    rw [hfit]
    show scale (finite s c' e') currency = _
    by_cases hdigits : leastExponent ≤ Int.log 10 |(finite s c e).value| + 1 - precision
    · have hunits : context.nearest (units (finite s c' e') currency) =
          context.nearest (units (finite s c e) currency) := by
        unfold units
        rw [hvalue, ← zpow_natCast]
        have hshift := context.nearest_shift hdigits (Int.natCast_nonneg (Currency.precision currency))
        exact (congrArg context.nearest hshift.symm).trans (context.nearest_nearest _)
      rw [scale_eq, scale_eq, hunits]
    · -- so small a number is no price, rounded or not
      have hne : (finite s c e).value ≠ 0 := by
        intro h0
        rw [h0, abs_zero, Int.log_zero_right] at hdigits
        exact hdigits (by decide)
      have hlow : |(finite s c e).value| ≤ 10 ^ (leastExponent + precision) :=
        ((context.log_lt_iff (abs_pos.mpr hne)).mp (show Int.log 10 _ < leastExponent + precision by omega)).le
      have hlow' : |(finite s c' e').value| ≤ 10 ^ (leastExponent + precision) := by
        rw [hvalue]
        exact context.abs_nearest_le_pow hlow (by decide)
      rw [scale_small (units_small hlow currency), scale_small (units_small hlow' currency)]
  · rw [hfit]
    refine (scale_eq_error.mpr ⟨rfl, (pow_le_nearest_iff.mp hlarge).trans ?_⟩).symm
    rw [units, abs_mul, Decimal.value, abs_withSign_size,
      abs_of_pos (by positivity : (0 : ℚ) < 10 ^ Currency.precision currency)]
    exact le_mul_of_one_le_right (size_nonneg 10 c e) (one_le_pow₀ (by norm_num))

end Price

namespace Payload

open Decimal

variable {p : Payload} {quote : Decimal} {v w : Price}

/-! ## The price by its margin -/

/-- What a quote of `q` comes to with a margin of `r`, in smallest units. -/
def rounded (p : Payload) (q r : ℚ) : ℤ :=
  nearestAway (context.nearest
    (context.nearest (q * context.nearest (if p.below then 1 - r else 1 + r)) * 10 ^ Currency.precision p.currency))

theorem isFinite_toDecimal {x : Binary64} (h : x.Canonical) : x.toDecimal.isFinite = true := by
  obtain ⟨s, m, e, rfl⟩ := h.finite
  rfl

theorem factor_value {a : Decimal} (hm : p.margin.Canonical) (h : p.factor = .ok a) :
    a.isFinite = true ∧
      a.value = context.nearest
        (if p.below then 1 - p.margin.toDecimal.value else 1 + p.margin.toDecimal.value) := by
  have hone : (ofInt 1).value = 1 := by simp [ofInt, value, withSign, size]
  have hfinite := isFinite_toDecimal hm
  unfold factor at h
  by_cases hb : p.below = true
  · rw [if_pos hb] at h ⊢
    have hneg : p.margin.toDecimal.neg.isFinite = true := by
      obtain ⟨s, c, e, hd⟩ := isFinite_iff.mp hfinite
      rw [hd]
      rfl
    have := add_value rfl hneg h
    rwa [hone, value_neg, ← sub_eq_add_neg] at this
  · rw [if_neg hb] at h ⊢
    have := add_value rfl hfinite h
    rwa [hone] at this

theorem marketPrice_value (hm : p.margin.Canonical) (hq : quote.isFinite = true) (h : p.marketPrice quote = .ok v) :
    v.value = p.rounded quote.value p.margin.toDecimal.value := by
  rw [marketPrice_eq] at h
  obtain ⟨a, ha, h⟩ := bind_eq_ok.mp h
  obtain ⟨y, hy, h⟩ := bind_eq_ok.mp h
  obtain ⟨u, hu, h⟩ := bind_eq_ok.mp h
  cases h
  obtain ⟨hfinite, hfactor⟩ := factor_value hm ha
  obtain ⟨_, hproduct⟩ := mul_value hq hfinite hy
  show u = _
  rw [Price.scale_value hu, Price.units, hproduct, hfactor]
  rfl

/-- From `v` to `w` a price goes to the maker's side: up for the seller on a fiat
market and the buyer on a crypto market, down for the others. -/
structure MakersSide (p : Payload) (v w : Int) : Prop where
  rises : p.direction = (if Currency.isCrypto p.currency then .buy else .sell) → v ≤ w
  falls : p.direction = (if Currency.isCrypto p.currency then .sell else .buy) → w ≤ v

theorem makersSide_iff {v w : Int} : p.MakersSide v w ↔ if p.below then w ≤ v else v ≤ w := by
  have hsplit : p.MakersSide v w ↔ (p.direction = (if Currency.isCrypto p.currency then .buy else .sell) → v ≤ w) ∧
      (p.direction = (if Currency.isCrypto p.currency then .sell else .buy) → w ≤ v) :=
    ⟨fun h => ⟨h.rises, h.falls⟩, fun h => ⟨h.1, h.2⟩⟩
  rw [hsplit]
  unfold below
  cases Currency.isCrypto p.currency <;> cases p.direction <;> simp

theorem rounded_mono {q r₁ r₂ : ℚ} (hq : 0 ≤ q) (h : r₁ ≤ r₂) : p.MakersSide (p.rounded q r₁) (p.rounded q r₂) := by
  have hmono {a b : ℚ} (hab : a ≤ b) : nearestAway (context.nearest
      (context.nearest (q * context.nearest a) * 10 ^ Currency.precision p.currency)) ≤ nearestAway (context.nearest
        (context.nearest (q * context.nearest b) * 10 ^ Currency.precision p.currency)) := by
    have hproduct := mul_le_mul_of_nonneg_left (context.nearest_mono hab) hq
    refine nearestAway_mono (context.nearest_mono ?_)
    exact mul_le_mul_of_nonneg_right (context.nearest_mono hproduct) (by positivity)
  rw [makersSide_iff]
  unfold rounded
  cases p.below with
  | true =>
    simp only [ite_true]
    exact hmono (by linarith)
  | false =>
    simp only [Bool.false_eq_true, ite_false]
    exact hmono (by linarith)

theorem marketPrice_zero (hm : p.margin.isZero = true) (hq : quote.isFinite = true) :
    p.marketPrice quote = (Price.scale quote p.currency).map fun v => ⟨v, p.currency⟩ := by
  obtain ⟨s, c, e, rfl⟩ := isFinite_iff.mp hq
  obtain ⟨t, f, hz⟩ : ∃ t f, p.margin = .finite t 0 f := by
    unfold Binary64.isZero at hm
    split at hm
    · exact ⟨_, _, ‹_›⟩
    · cases hm
  have hfactor : p.factor = .ok (.finite false 1 0) := by
    unfold factor
    rw [hz, Binary64.toDecimal_zero]
    cases p.below <;> cases t <;> decide
  have hmul : (finite s c e).mul (finite false 1 0) = fit s c e := by
    show fit (s != false) (c * 1) (e + 0) = _
    rw [Bool.bne_false, Nat.mul_one, Int.add_zero]
  rw [marketPrice_eq, hfactor, ← Price.scale_fit]
  show (do
    let value ← Price.scale (← (finite s c e).mul (finite false 1 0)) p.currency
    pure (⟨value, p.currency⟩ : Price)) = _
  rw [hmul]
  cases fit s c e with
  | error b => rfl
  | ok y =>
    show (do
      let value ← Price.scale y p.currency
      pure (⟨value, p.currency⟩ : Price)) = (Price.scale y p.currency).map _
    cases Price.scale y p.currency <;> rfl

end Payload

namespace Offer

variable {o : Offer} {node : Quotes} {quote : Decimal}

def withMargin (o : Offer) (margin : Binary64) : Offer := { o with payload := { o.payload with margin } }

theorem margin_withMargin (o : Offer) (m : Binary64) : (o.withMargin m).payload.margin = m := rfl

theorem rounded_withMargin (o : Offer) (m : Binary64) : (o.withMargin m).payload.rounded = o.payload.rounded := rfl

section

variable (hmarket : o.payload.useMarketPrice = true) (hquote : o.quote? node = some quote)
  (hfinite : quote.isFinite = true)
include hmarket hquote

theorem price?_withMargin (m : Binary64) :
    (o.withMargin m).price? node = ((o.withMargin m).payload.marketPrice quote).map some :=
  price?_quoted hmarket hquote

include hfinite

theorem price?_value {m : Binary64} {v : Price} (hm : m.Canonical)
    (h : (o.withMargin m).price? node = .ok (some v)) :
    v.value = o.payload.rounded quote.value m.toDecimal.value := by
  rw [price?_withMargin hmarket hquote] at h
  cases hp : (o.withMargin m).payload.marketPrice quote with
  | error b =>
    rw [hp] at h
    cases h
  | ok x =>
    rw [hp] at h
    obtain rfl : x = v := Option.some.inj (Except.ok.inj h)
    have hvalue := Payload.marketPrice_value (p := (o.withMargin m).payload) hm hfinite hp
    rwa [rounded_withMargin, margin_withMargin] at hvalue

theorem price?_zero {m : Binary64} (hm : m.isZero = true) : (o.withMargin m).price? node =
    (Price.scale quote o.currency).map fun v => some ⟨v, o.currency⟩ := by
  have hcurrency : (o.withMargin m).payload.currency = o.currency := rfl
  rw [price?_withMargin hmarket hquote, Payload.marketPrice_zero hm hfinite, hcurrency]
  cases Price.scale quote o.currency <;> rfl

theorem price?_mono (hnonneg : 0 ≤ quote.value) {low high : Binary64} {v w : Price} (hlow : low.Canonical)
    (hhigh : high.Canonical) (hle : low.value ≤ high.value) (hv : (o.withMargin low).price? node = .ok (some v))
    (hw : (o.withMargin high).price? node = .ok (some w)) : o.payload.MakersSide v.value w.value := by
  rw [price?_value hmarket hquote hfinite hlow hv, price?_value hmarket hquote hfinite hhigh hw]
  exact Payload.rounded_mono hnonneg (Binary64.toDecimal_mono hlow hhigh hle)

end

/-- **A margin moves a market price to the maker's side, monotonically.** For every offer that
follows the market, and every quote that is a number and not negative: of two margins the greater
one gives the price further on the maker's side, whatever digits the quote and the margins have; a
margin of zero gives the quote itself, in smallest units; and a margin that is not negative gives a
price on the maker's side of it. -/
theorem price_by_margin (hmarket : o.payload.useMarketPrice = true) (hquote : o.quote? node = some quote)
    (hfinite : quote.isFinite = true) (hnonneg : 0 ≤ quote.value) :
    (∀ low high v w, low.Canonical → high.Canonical → low.value ≤ high.value →
      (o.withMargin low).price? node = .ok (some v) → (o.withMargin high).price? node = .ok (some w) →
      o.payload.MakersSide v.value w.value) ∧
    (∀ zero, zero.isZero = true → (o.withMargin zero).price? node =
      (Price.scale quote o.currency).map fun v => some ⟨v, o.currency⟩) ∧
    (∀ margin v w, margin.Canonical → 0 ≤ margin.value → Price.scale quote o.currency = .ok v →
      (o.withMargin margin).price? node = .ok (some w) → o.payload.MakersSide v w.value) := by
  have hmono {low high : Binary64} {v w : Price} (hlow : low.Canonical) (hhigh : high.Canonical)
      (hle : low.value ≤ high.value) := price?_mono (v := v) (w := w) hmarket hquote hfinite hnonneg hlow hhigh hle
  refine ⟨fun _ _ _ _ => hmono, fun _ => price?_zero hmarket hquote hfinite, fun margin v w hm hpos hv hw => ?_⟩
  -- the plain price is the one that a margin of zero gives
  have hplain : (o.withMargin .zero).price? node = .ok (some ⟨v, o.currency⟩) := by
    rw [price?_zero hmarket hquote hfinite rfl, hv]
    rfl
  have hzero : Binary64.zero.value = 0 := size_zero 2 _
  exact hmono (v := ⟨v, o.currency⟩) (Binary64.canonical_zero false) hm (hzero.trans_le hpos) hplain hw

def longQuote : Decimal := .finite false 123456789012345678901234567890123456789 (-10)

def sellAtLongQuote : Offer :=
  { payload := { (default : Payload) with
      id := "offer-1", direction := .sell, baseCurrency := bitcoin,
      counterCurrency := "EUR", useMarketPrice := true }
    feed := .own (.ofList [("EUR", longQuote)]) }

theorem price_by_margin_sellAtLongQuote :
    let low := Binary64.ofDecimal true 5 (-2)
    let high := Binary64.ofDecimal false 1 (-1)
    sellAtLongQuote.quote? {} = some longQuote ∧ low.Canonical ∧ high.Canonical ∧ low.value ≤ high.value ∧
      sellAtLongQuote.payload.MakersSide 117283949561728394956172839500000 135802467913580246791358024700000 ∧
      (sellAtLongQuote.withMargin .zero).price? {} = .ok (some ⟨123456789012345678901234567900000, "EUR"⟩) ∧
      sellAtLongQuote.payload.MakersSide 123456789012345678901234567900000 135802467913580246791358024700000 := by
  intro low high
  have hquote : sellAtLongQuote.quote? {} = some longQuote := by decide +kernel
  have hlow : low.Canonical := Binary64.ofDecimal_canonical (by decide +kernel)
  have hhigh : high.Canonical := Binary64.ofDecimal_canonical (by decide +kernel)
  have hl : low = .finite true 7205759403792794 (-57) := by decide +kernel
  have hh : high = .finite false 7205759403792794 (-56) := by decide +kernel
  have hneg : low.value ≤ 0 := by
    rw [hl]
    exact neg_nonpos.mpr (size_nonneg _ _ _)
  have hpos : 0 ≤ high.value := by
    rw [hh]
    exact size_nonneg _ _ _
  have hscaled : Price.scale longQuote "EUR" = .ok 123456789012345678901234567900000 := by decide +kernel
  have hv : (sellAtLongQuote.withMargin low).price? {} = .ok (some ⟨117283949561728394956172839500000, "EUR"⟩) := by
    decide +kernel
  have hw : (sellAtLongQuote.withMargin high).price? {} =
    .ok (some ⟨135802467913580246791358024700000, "EUR"⟩) := by
    decide +kernel
  obtain ⟨hmono, hzero, hplain⟩ := price_by_margin (o := sellAtLongQuote) rfl hquote rfl (size_nonneg _ _ _)
  refine ⟨hquote, hlow, hhigh, hneg.trans hpos, hmono low high _ _ hlow hhigh (hneg.trans hpos) hv hw, ?_,
    hplain high _ _ hhigh hpos hscaled hw⟩
  have hcurrency : sellAtLongQuote.currency = "EUR" := by decide +kernel
  rw [hzero .zero rfl, hcurrency, hscaled]
  rfl

end Offer

end Tradepost
