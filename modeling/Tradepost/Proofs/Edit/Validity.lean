import Tradepost.Edit.Merge
import Tradepost.Edit.Validate
import Tradepost.Proofs.Number.Context
import Tradepost.Proofs.Number.Double

/-!
# Valid edits

`Valid` tells which requests pass validation, and `Repriced` what their prices,
margins and flags then come to. Whatever is valid can be merged: its price has
been read before, and a margin within its bounds is a fraction of one at most.
-/

namespace Tradepost

open Number EditRequest

variable {p : Payload} {r : EditRequest} {t : EditType} {v : ValidatedEdit}

/-! ## Validation -/

structure EditRequest.Valid (r : EditRequest) (p : Payload) (v : ValidatedEdit) : Prop where
  type : EditType.read? r.editType = some v.editType
  scope : v.scope = v.editType.scope
  activation : ActivationChange.read? r.activation = some v.activation
  requested : ¬ (v.editType = .activationOnly ∧ v.activation = .unspecified)
  price : v.scope.fixedPrice = true → ∃ k, Price.scaled r.price p.currency = .ok k ∧ 0 < k
  margin : v.scope.margin = true → ∀ m, r.marginPercent = some m → marginInRange m = true
  trigger : v.scope.trigger = true →
    0 ≤ r.triggerPrice ∧ (p.useMarketPrice || (v.scope.margin || r.useMarketPrice)) = true

theorem checkType_eq_ok : r.checkType = .ok t ↔ EditType.read? r.editType = some t := by
  unfold checkType
  cases EditType.read? r.editType <;> simp

theorem checkActivation_eq_ok {change : ActivationChange} : checkActivation p t r = .ok change ↔
    ActivationChange.read? r.activation = some change ∧ ¬ (t = .activationOnly ∧ change = .unspecified) := by
  unfold checkActivation
  cases ActivationChange.read? r.activation with
  | none => simp
  | some sent =>
    dsimp only
    split
    · rename_i h
      simp only [reduceCtorEq, Option.some.injEq, false_iff]
      rintro ⟨rfl, hn⟩
      exact hn h
    · rename_i h
      simp only [Except.ok.injEq, Option.some.injEq]
      exact ⟨fun x => ⟨x, x ▸ h⟩, fun x => x.1⟩

theorem checkPrice_eq_ok : checkPrice p r = .ok () ↔ ∃ k, Price.scaled r.price p.currency = .ok k ∧ 0 < k := by
  unfold checkPrice
  rw [bind_eq_ok]
  refine exists_congr fun k => and_congr_right fun _ => ?_
  by_cases hk : k ≤ 0
  · have : ¬ 0 < k := by omega
    simp [hk, this, throw, throwThe, MonadExceptOf.throw]
  · have : 0 < k := by omega
    simp [hk, this, pure, Except.pure]

theorem checkMargin_eq_ok : r.checkMargin = .ok () ↔ ∀ m, r.marginPercent = some m → marginInRange m = true := by
  unfold checkMargin
  cases r.marginPercent with
  | none => simp
  | some m => by_cases h : marginInRange m = true <;> simp [h]

theorem checkTrigger_eq_ok {s : EditScope} : checkTrigger p s r = .ok () ↔
    0 ≤ r.triggerPrice ∧ (p.useMarketPrice || (s.margin || r.useMarketPrice)) = true := by
  unfold checkTrigger
  by_cases h : r.triggerPrice < 0
  · have : ¬ 0 ≤ r.triggerPrice := by omega
    simp [h, this]
  · have : 0 ≤ r.triggerPrice := by omega
    cases p.useMarketPrice <;> cases hs : (s.margin || r.useMarketPrice) <;> simp [h, this]

theorem validate_eq_ok : r.validate p = .ok v ↔ r.Valid p v := by
  unfold validate
  simp only [bind_eq_ok, guard_eq_ok, reported_eq_ok, checkType_eq_ok, checkActivation_eq_ok, checkPrice_eq_ok,
    checkMargin_eq_ok, checkTrigger_eq_ok]
  constructor
  · rintro ⟨t, ht, change, ⟨hc, hr⟩, hp, hm, htr, hv⟩
    cases hv
    exact ⟨ht, rfl, hc, hr, hp, hm, htr⟩
  · intro h
    obtain ⟨t, s, change⟩ := v
    obtain rfl : s = t.scope := h.scope
    exact ⟨t, h.type, change, ⟨h.activation, h.requested⟩, h.price, h.margin, h.trigger, rfl⟩

/-! ## Prices, margins and flags -/

/-- What pricing a payload anew comes to, by what the edit covers. -/
inductive EditRequest.Repriced (r : EditRequest) (p : Payload) (s : EditScope) : Pricing → Prop where
  | margin {f : Binary64} : s.margin = true → r.marginFraction = .ok f → Repriced r p s ⟨p.price, f, true⟩
  | trigger : s.margin = false → s.trigger = true →
      Repriced r p s ⟨p.price, p.margin, p.useMarketPrice || r.useMarketPrice⟩
  | fixed {k : Int} : s.margin = false → s.trigger = false → s.fixedPrice = true →
      Price.scaled r.price p.currency = .ok k → Repriced r p s ⟨k, .zero, false⟩
  | none : s.margin = false → s.trigger = false → s.fixedPrice = false → Repriced r p s p.pricing

/-- No edit type sets a fixed price together with what only market prices have. -/
theorem scope_apart (t : EditType) : (t.scope.followsMarket && t.scope.fixedPrice) = false := by
  cases t <;> rfl

section

variable (p r)

theorem pricing_margin (hm : t.scope.margin = true) :
    r.pricing p t = (do pure ⟨p.price, ← computed r.marginFraction, true⟩) := by
  have hf : t.scope.fixedPrice = false := by simpa [EditScope.followsMarket, hm] using scope_apart t
  simp [pricing, hf, hm]

theorem pricing_trigger (hm : t.scope.margin = false) (ht : t.scope.trigger = true) :
    r.pricing p t = .ok ⟨p.price, p.margin, p.useMarketPrice || r.useMarketPrice⟩ := by
  have hf : t.scope.fixedPrice = false := by simpa [EditScope.followsMarket, ht] using scope_apart t
  simp only [pricing, hf, hm, ht, Bool.false_eq_true, ite_false, ite_true]
  rfl

theorem pricing_fixed (hm : t.scope.margin = false) (ht : t.scope.trigger = false)
    (hf : t.scope.fixedPrice = true) :
    r.pricing p t = (do pure ⟨← Price.scaled r.price p.currency, .zero, false⟩) := by
  simp [pricing, hf, hm, ht]

theorem pricing_none (hm : t.scope.margin = false) (ht : t.scope.trigger = false)
    (hf : t.scope.fixedPrice = false) : r.pricing p t = .ok p.pricing := by
  simp only [pricing, hf, hm, ht, Bool.false_eq_true, ite_false]
  rfl

end

theorem pricing_eq_ok {q : Pricing} : r.pricing p t = .ok q ↔ r.Repriced p t.scope q := by
  constructor
  · intro h
    cases hm : t.scope.margin with
    | true =>
      rw [pricing_margin p r hm] at h
      obtain ⟨f, hk, hq⟩ := bind_eq_ok.mp h
      cases hq
      exact .margin hm (computed_eq_ok.mp hk)
    | false =>
      cases ht : t.scope.trigger with
      | true =>
        cases (pricing_trigger p r hm ht).symm.trans h
        exact .trigger hm ht
      | false =>
        cases hf : t.scope.fixedPrice with
        | true =>
          rw [pricing_fixed p r hm ht hf] at h
          obtain ⟨k, hk, hq⟩ := bind_eq_ok.mp h
          cases hq
          exact .fixed hm ht hf hk
        | false =>
          cases (pricing_none p r hm ht hf).symm.trans h
          exact .none hm ht hf
  · intro h
    cases h with
    | margin hm hk =>
      rw [pricing_margin p r hm]
      exact bind_eq_ok.mpr ⟨_, computed_eq_ok.mpr hk, rfl⟩
    | trigger hm ht => exact pricing_trigger p r hm ht
    | fixed hm ht hf hk =>
      rw [pricing_fixed p r hm ht hf]
      exact bind_eq_ok.mpr ⟨_, hk, rfl⟩
    | none hm ht hf => exact pricing_none p r hm ht hf

theorem merge_eq_ok {p' : Payload} :
    r.merge p t = .ok p' ↔ ∃ q, r.Repriced p t.scope q ∧ p.withPricing q = p' := by
  unfold merge
  cases hq : r.pricing p t with
  | error e =>
    simp only [Except.map, reduceCtorEq, false_iff, not_exists, not_and]
    intro q h
    rw [pricing_eq_ok.mpr h] at hq
    cases hq
  | ok q =>
    simp only [Except.map, Except.ok.injEq, ← pricing_eq_ok, hq]
    simp

/-! ## Valid requests can be merged -/

theorem marginInRange_size {m : Binary64} (h : marginInRange m = true) : ∃ s k e, m = .finite s k e ∧
    size 2 k e < 10 ^ 2 := by
  have hlow : Binary64.ofInt (-100) = .finite true 7036874417766400 (-46) := by decide +kernel
  have hhigh : Binary64.ofInt 100 = .finite false 7036874417766400 (-46) := by decide +kernel
  obtain ⟨h₁, h₂⟩ := Bool.and_eq_true_iff.mp h
  rw [hlow] at h₁
  rw [hhigh] at h₂
  cases m with
  | nan => cases h₂
  | infinity s =>
    cases s with
    | true => cases h₁
    | false => cases h₂
  | finite s k e =>
    have hsize := Binary64.size_of_lt (by decide) h₁ h₂
    have hhundred : size 2 7036874417766400 (-46) = 10 ^ 2 := by norm_num [size]
    exact ⟨s, k, e, rfl, hsize.trans_eq hhundred⟩

theorem hundredth_decimal : hundredth.toDecimal = .finite false 1 (-2) := by decide +kernel

theorem fractionOf_upToOne {m : Binary64} (h : marginInRange m = true) : ∃ f, fractionOf m = .ok f ∧ f.UpToOne := by
  obtain ⟨s, k, e, rfl, hk⟩ := marginInRange_size h
  obtain ⟨c, p, hc, hsize⟩ := Binary64.toDecimal_le s hk
  have hproduct : size 10 (c * 1) (p + -2) ≤ 10 ^ (0 : Int) := by
    rw [size_mul]
    have hone : size 10 1 (-2) = 1 / 10 ^ 2 := by norm_num [size]
    rw [hone, zpow_zero]
    linarith
  obtain ⟨c', e', hfit, hsize'⟩ := Decimal.fit_size (s != false) hproduct (by decide) (by decide)
  refine ⟨.ofDecimal (s != false) c' e', ?_, Binary64.ofDecimal_upToOne _ (by simpa using hsize')⟩
  refine bind_eq_ok.mpr ⟨.finite (s != false) c' e', ?_, rfl⟩
  rw [hc, hundredth_decimal]
  exact hfit

theorem zero_inRange : marginInRange .zero = true := by decide +kernel

theorem marginFraction_upToOne (h : ∀ m, r.marginPercent = some m → marginInRange m = true) :
    ∃ f, r.marginFraction = .ok f ∧ f.UpToOne := by
  unfold marginFraction
  cases hm : r.marginPercent with
  | none => exact fractionOf_upToOne zero_inRange
  | some m =>
    dsimp only
    split
    · exact fractionOf_upToOne zero_inRange
    · exact fractionOf_upToOne (h m hm)

theorem EditRequest.Valid.repriced (h : r.Valid p v) : ∃ q, r.Repriced p v.scope q := by
  cases hm : v.scope.margin with
  | true =>
    obtain ⟨f, hf, _⟩ := marginFraction_upToOne (h.margin hm)
    exact ⟨_, .margin hm hf⟩
  | false =>
    cases ht : v.scope.trigger with
    | true => exact ⟨_, .trigger hm ht⟩
    | false =>
      cases hf : v.scope.fixedPrice with
      | true =>
        obtain ⟨k, hk, _⟩ := h.price hf
        exact ⟨_, .fixed hm ht hf hk⟩
      | false => exact ⟨_, .none hm ht hf⟩

theorem EditRequest.Valid.merges (h : r.Valid p v) : ∃ p', r.merge p v.editType = .ok p' := by
  obtain ⟨q, hq⟩ := h.repriced
  exact ⟨_, merge_eq_ok.mpr ⟨q, h.scope ▸ hq, rfl⟩⟩

end Tradepost
