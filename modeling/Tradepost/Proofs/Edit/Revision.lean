import Tradepost.Proofs.Edit.Validity
import Tradepost.Proofs.Node.Perform

/-!
# An open offer before and after an edit

`Revised` tells an edited open offer from the one before and from the request.
The two differ only in what the scope of the edit covers, except for the
activation, which is applied to whatever scope; and an offer that is well
priced stays so.
-/

namespace Tradepost.Registry

open EditRequest

variable {e e' : Entry} {r : EditRequest} {v : ValidatedEdit}

structure Revised (r : EditRequest) (v : ValidatedEdit) (e e' : Entry) : Prop where
  valid : r.Valid e.offer.payload v
  offer : ∃ q, r.Repriced e.offer.payload v.scope q ∧ e'.offer = .edited (e.offer.payload.withPricing q)
  trigger : e'.triggerPrice = newTrigger v.scope e'.offer.payload e.triggerPrice r
  state : e'.state = v.activation.apply e.state

theorem plan_eq_ok {edited : Payload} {trigger : Int} {state : OpenState} :
    e.plan r = .ok (edited, trigger, state) ↔
      ∃ v, Revised r v e { offer := .edited edited, triggerPrice := trigger, state } := by
  unfold Entry.plan Node.planEdit
  dsimp only
  rw [bind_eq_ok]
  refine exists_congr fun v => ?_
  rw [bind_eq_ok, validate_eq_ok]
  constructor
  · rintro ⟨hv, p, hp, h⟩
    obtain ⟨q, hq, rfl⟩ := merge_eq_ok.mp hp
    cases h
    exact ⟨hv, ⟨q, hv.scope ▸ hq, rfl⟩, rfl, rfl⟩
  · rintro ⟨hv, ⟨q, hq, hp⟩, ht, hs⟩
    cases hp
    dsimp only at ht hs
    subst ht hs
    exact ⟨hv, _, merge_eq_ok.mpr ⟨q, hv.scope ▸ hq, rfl⟩, rfl⟩

theorem Revised.owner (h : Revised r v e e') : e'.offer.payload.owner = e.offer.payload.owner := by
  obtain ⟨q, _, ho⟩ := h.offer
  rw [ho]
  rfl

/-! ## What an edit covers -/

structure Confined (s : EditScope) (r : EditRequest) (e e' : Entry) : Prop where
  rest : e'.offer.payload = e.offer.payload.withPricing e'.offer.payload.pricing
  price : s.fixedPrice = false → e'.offer.payload.price = e.offer.payload.price
  margin : s.margin = false → s.fixedPrice = false → e'.offer.payload.margin = e.offer.payload.margin
  toMarket : e.offer.payload.useMarketPrice = false → e'.offer.payload.useMarketPrice = true →
    s.margin = true ∨ (s.trigger = true ∧ r.useMarketPrice = true)
  toFixed : e.offer.payload.useMarketPrice = true → e'.offer.payload.useMarketPrice = false → s.fixedPrice = true
  trigger : s.trigger = false → e'.triggerPrice = if e'.offer.payload.useMarketPrice then e.triggerPrice else 0

section

variable {p : Payload} {s : EditScope} {q : Pricing}

theorem repriced_price (h : r.Repriced p s q) (hf : s.fixedPrice = false) : q.price = p.price := by
  cases h with
  | margin _ _ => rfl
  | trigger _ _ => rfl
  | fixed _ _ hf' _ => cases hf.symm.trans hf'
  | none _ _ _ => rfl

theorem repriced_margin (h : r.Repriced p s q) (hm : s.margin = false) (hf : s.fixedPrice = false) :
    q.margin = p.margin := by
  cases h with
  | margin hm' _ => cases hm.symm.trans hm'
  | trigger _ _ => rfl
  | fixed _ _ hf' _ => cases hf.symm.trans hf'
  | none _ _ _ => rfl

theorem repriced_toMarket (h : r.Repriced p s q) (hp : p.useMarketPrice = false) (hq : q.useMarketPrice = true) :
    s.margin = true ∨ (s.trigger = true ∧ r.useMarketPrice = true) := by
  cases h with
  | margin hm _ => exact .inl hm
  | trigger _ ht =>
    rw [hp, Bool.false_or] at hq
    exact .inr ⟨ht, hq⟩
  | fixed _ _ _ _ => cases hq
  | none _ _ _ => cases hp.symm.trans hq

theorem repriced_toFixed (h : r.Repriced p s q) (hp : p.useMarketPrice = true) (hq : q.useMarketPrice = false) :
    s.fixedPrice = true := by
  cases h with
  | margin _ _ => cases hq
  | trigger _ _ =>
    rw [hp] at hq
    cases hq
  | fixed _ _ hf _ => exact hf
  | none _ _ _ => cases hp.symm.trans hq

theorem repriced_fixed (h : r.Repriced p s q) (hq : q.useMarketPrice = false) :
    (p.useMarketPrice = false ∧ q.price = p.price ∧ q.margin = p.margin) ∨
      (s.fixedPrice = true ∧ Price.scaled r.price p.currency = .ok q.price ∧ q.margin = .zero) := by
  cases h with
  | margin _ _ => cases hq
  | trigger _ _ => exact .inl ⟨(Bool.or_eq_false_iff.mp hq).1, rfl, rfl⟩
  | fixed _ _ hf hk => exact .inr ⟨hf, hk, rfl⟩
  | none _ _ _ => exact .inl ⟨hq, rfl, rfl⟩

end

theorem Revised.confined (h : Revised r v e e') : Confined v.scope r e e' := by
  have ht := h.trigger
  obtain ⟨q, hq, ho⟩ := h.offer
  have hp : e'.offer.payload = e.offer.payload.withPricing q := congrArg Offer.payload ho
  rw [hp] at ht
  constructor <;> rw [hp]
  · rfl
  · exact repriced_price hq
  · exact repriced_margin hq
  · exact repriced_toMarket hq
  · exact repriced_toFixed hq
  · intro hs
    rw [ht, newTrigger, hs]
    rfl

/-! ## Well priced offers -/

/-- Trigger prices are not negative, and a fixed price is positive and goes without margin and
trigger. A zero margin may have either sign. -/
structure Entry.WellPriced (e : Entry) : Prop where
  trigger : 0 ≤ e.triggerPrice
  fixed : e.offer.payload.useMarketPrice = false →
    0 < e.offer.payload.price ∧ e.offer.payload.margin.isZero = true ∧ e.triggerPrice = 0

theorem Revised.trigger_nonneg (h : Revised r v e e') (hw : e.WellPriced) : 0 ≤ e'.triggerPrice := by
  rw [h.trigger, newTrigger]
  split
  · rename_i ht
    exact (h.valid.trigger ht).1
  · split
    · exact hw.trigger
    · exact Int.le_refl 0

theorem Revised.follows (h : Revised r v e e') (ht : v.scope.trigger = true) :
    e'.offer.payload.useMarketPrice = true := by
  obtain ⟨q, hq, ho⟩ := h.offer
  rw [ho]
  show q.useMarketPrice = true
  cases hq with
  | margin _ _ => rfl
  | trigger hm _ =>
    have hmarket := (h.valid.trigger ht).2
    rw [hm, Bool.false_or] at hmarket
    exact hmarket
  | fixed _ ht' _ _ => cases ht.symm.trans ht'
  | none _ ht' _ => cases ht.symm.trans ht'

theorem Revised.untriggered (h : Revised r v e e') (hfixed : e'.offer.payload.useMarketPrice = false) :
    e'.triggerPrice = 0 := by
  cases hs : v.scope.trigger with
  | true => cases hfixed.symm.trans (h.follows hs)
  | false =>
    rw [h.confined.trigger hs, hfixed]
    rfl

theorem Revised.wellPriced (h : Revised r v e e') (hw : e.WellPriced) : e'.WellPriced := by
  refine ⟨h.trigger_nonneg hw, fun hfixed => ?_⟩
  have htrigger := h.untriggered hfixed
  obtain ⟨q, hq, ho⟩ := h.offer
  rw [ho] at hfixed ⊢
  show 0 < q.price ∧ q.margin.isZero = true ∧ _
  -- the price was fixed before, or validation has read the new one
  rcases repriced_fixed hq hfixed with ⟨hold, hprice, hmargin⟩ | ⟨hf, hk, hmargin⟩
  · obtain ⟨hpos, hzero, _⟩ := hw.fixed hold
    exact ⟨hprice ▸ hpos, hmargin ▸ hzero, htrigger⟩
  · obtain ⟨k, hk', hpos⟩ := h.valid.price hf
    obtain rfl : k = q.price := Except.ok.inj (hk'.symm.trans hk)
    exact ⟨hpos, hmargin ▸ rfl, htrigger⟩

end Tradepost.Registry
