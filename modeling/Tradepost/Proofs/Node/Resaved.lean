import Tradepost.Proofs.Node.Lifetime
import Tradepost.Proofs.Price
import Tradepost.Web.View

/-!
# Saving an offer with the price it shows

A fixed price is kept as a scaled number, whatever text it came from. It is
shown in full, and an edit that sends back what is shown scales it to the same
number again, so it leaves the payload as it was.
-/

namespace Tradepost.Node

open Registry EditRequest

variable {n : Node} {log : List (Node × Call)} {own : Own} {r : EditRequest}

/-! ## Fixed prices that were scaled -/

def Scaled (e : Entry) : Prop :=
  e.offer.payload.useMarketPrice = false →
    Decimal.Holds e.offer.payload.price.natAbs ∧ e.offer.payload.margin = .zero

theorem scaled_opened {p : CreateParams} {o : Offer} (ho : (n.draftOffer p).2 = .ok o) :
    Scaled (.opened o p.triggerPrice) := by
  intro hfixed
  obtain ⟨t, f, hd⟩ := draftOffer_drafted ho
  have hmarket : p.useMarketPrice = false := hd.market ▸ hfixed
  refine ⟨Price.holds_of_scaled (hd.price hmarket), hd.margin.trans ?_⟩
  rw [hmarket]
  rfl

theorem Scaled.revised {v : ValidatedEdit} {e e' : Entry} (hrev : Revised r v e e') (h : Scaled e) : Scaled e' := by
  obtain ⟨q, hq, ho⟩ := hrev.offer
  have hp : e'.offer.payload = e.offer.payload.withPricing q := congrArg Offer.payload ho
  unfold Scaled
  rw [hp]
  intro hfixed
  show Decimal.Holds q.price.natAbs ∧ q.margin = .zero
  rcases repriced_fixed hq hfixed with ⟨hbefore, hprice, hmargin⟩ | ⟨_, hk, hmargin⟩
  · rw [hprice, hmargin]
    exact h hbefore
  · exact ⟨Price.holds_of_scaled hk, hmargin⟩

theorem Ran.scaled (h : Ran log n) (hown : own ∈ n.snapshotOwn) : Scaled own.entry :=
  h.entry (h.upheld (fun _ _ _ _ ho => scaled_opened ho) fun _ _ _ _ => Scaled.revised) hown

/-! ## What is shown -/

theorem Ran.getMyOpenOffer (h : Ran log n) (hown : own ∈ n.snapshotOwn) :
    n.getMyOpenOffer own.offer.id = .ok own := by
  have howner : own.offer.isOwnedBy n.fingerprint = true := decide_eq_true (h.entry h.owned hown)
  exact h.reachable.sound.getMyOpenOffer_eq_ok.mpr ⟨hown, rfl, howner⟩

theorem shown_price (hfixed : own.offer.payload.useMarketPrice = false)
    (hv : Decimal.Holds own.offer.payload.price.natAbs) (quotes : Quotes) :
    ∃ view, OfferView.ofOwn quotes own.offer own.terms = .ok view ∧
      view.price = some (Price.plainText own.offer.payload.price own.offer.payload.currency) := by
  have hprice : own.offer.price? quotes = .ok (some ⟨own.offer.payload.price, own.offer.payload.currency⟩) := by
    unfold Offer.price?
    simp only [hfixed, Bool.not_false, ite_true]
  have htext : OfferView.priceText quotes own.offer =
      .ok (some (Price.plainText own.offer.payload.price own.offer.payload.currency)) := by
    unfold OfferView.priceText
    exact bind_eq_ok.mpr ⟨_, hprice, bind_eq_ok.mpr ⟨_, Price.textOf_plain hv _, rfl⟩⟩
  exact ⟨_, bind_eq_ok.mpr ⟨_, bind_eq_ok.mpr ⟨_, htext, rfl⟩, rfl⟩, rfl⟩

/-! ## Sending it back -/

structure PriceOnly (r : EditRequest) (text : String) : Prop where
  type : EditType.read? r.editType = some .fixedPriceOnly
  price : r.price = .text text
  activation : ∃ change, ActivationChange.read? r.activation = some change

section

variable {e e' : Entry} {v : ValidatedEdit} {text : String}

theorem PriceOnly.plan (h : PriceOnly r text) (hpos : 0 < e.offer.payload.price)
    (htext : Price.scaled (.text text) e.offer.payload.currency = .ok e.offer.payload.price) :
    ∃ edited, e.plan r = .ok edited := by
  obtain ⟨change, hchange⟩ := h.activation
  have hscaled : Price.scaled r.price e.offer.payload.currency = .ok e.offer.payload.price := h.price ▸ htext
  have hvalid : r.Valid e.offer.payload ⟨.fixedPriceOnly, EditType.fixedPriceOnly.scope, change⟩ :=
    { type := h.type
      scope := rfl
      activation := hchange
      requested := by rintro ⟨hx, _⟩; cases hx
      price := fun _ => ⟨_, hscaled, hpos⟩
      margin := by intro hx; cases hx
      trigger := by intro hx; cases hx }
  exact ⟨_, plan_eq_ok.mpr ⟨_, hvalid, ⟨_, .fixed rfl rfl rfl hscaled, rfl⟩, rfl, rfl⟩⟩

theorem PriceOnly.payload (h : PriceOnly r text) (hrev : Revised r v e e')
    (hfixed : e.offer.payload.useMarketPrice = false) (hmargin : e.offer.payload.margin = .zero)
    (htext : Price.scaled (.text text) e.offer.payload.currency = .ok e.offer.payload.price) :
    e'.offer.payload = e.offer.payload := by
  have hscope : v.scope = EditType.fixedPriceOnly.scope := by
    rw [hrev.valid.scope, Option.some.inj (hrev.valid.type.symm.trans h.type)]
  obtain ⟨q, hq, ho⟩ := hrev.offer
  rw [hscope] at hq
  have hq' : q = ⟨e.offer.payload.price, .zero, false⟩ := by
    cases hq with
    | margin hm _ => cases hm
    | trigger _ ht => cases ht
    | fixed _ _ _ hk =>
      rw [h.price] at hk
      rw [Except.ok.inj (hk.symm.trans htext)]
    | none _ _ hf => cases hf
  rw [ho, hq', ← hmargin, ← hfixed]
  rfl

end

/-- **Saving an offer with the price it shows changes nothing.** After any run, and whatever text
the fixed price came from: it is shown, and every edit of the price alone that sends back what is
shown succeeds and leaves the payload as it was. -/
theorem resaved_unchanged (h : Ran log n) (hown : own ∈ n.snapshotOwn)
    (hfixed : own.offer.payload.useMarketPrice = false) (hpos : 0 < own.offer.payload.price) :
    ∃ view text, OfferView.ofOwn n.quotes own.offer own.terms = .ok view ∧ view.price = some text ∧
      ∀ r, PriceOnly r text → ∃ x own', (n.perform (.edit own.offer.id r)).2 = .ok x ∧
        (n.perform (.edit own.offer.id r)).1.getMyOpenOffer own.offer.id = .ok own' ∧
        own'.offer.payload = own.offer.payload := by
  obtain ⟨hholds, hmargin⟩ := h.scaled hown hfixed
  obtain ⟨view, hview, htext⟩ := shown_price hfixed hholds n.quotes
  refine ⟨view, _, hview, htext, fun r hr => ?_⟩
  have hscaled := Price.scaled_plain hholds own.offer.payload.currency
  obtain ⟨⟨edited, trigger, state⟩, hplan⟩ : ∃ edited, own.entry.plan r = .ok edited := hr.plan hpos hscaled
  have hchange : n.change? n.registry.contents (.edit own.offer.id r) = some
      ((n.registry.contents.withdraw own.offer.id).publish own.offer.id
        { offer := .edited edited, triggerPrice := trigger, state := state }) := by
    have hunedited : own.offer.id ∉ n.registry.contents.editing := by
      rw [h.unedited]
      exact List.not_mem_nil
    unfold change?
    simp only [own?_of_getMyOpenOffer (h.getMyOpenOffer hown), hplan, if_neg hunedited]
  obtain ⟨x, hx⟩ := h.reachable.sound.succeeds hchange
  obtain ⟨v, own₀, own', he⟩ := h.reachable.sound.edited hx
  obtain rfl : own = own₀ := Except.ok.inj ((h.getMyOpenOffer hown).symm.trans he.before)
  exact ⟨x, own', hx, he.after, hr.payload he.revised hfixed hmargin hscaled⟩

def longPrice : Node := (euroTrader.perform (.create (createFixed "12345678901234567890123456789012345" 0))).1

theorem longPrice_ran :
    Ran [(euroTrader, .create (createFixed "12345678901234567890123456789012345" 0))] longPrice :=
  (Ran.fresh rfl rfl rfl : Ran [] euroTrader).call _

def sendShownPrice : EditRequest :=
  { editType := .text "FIXED_PRICE_ONLY", price := .text "12345678901234567890123456790000000.0000" }

theorem resaved_unchanged_longPrice : ∃ own own', own ∈ longPrice.snapshotOwn ∧
    (longPrice.perform (.edit own.offer.id sendShownPrice)).1.getMyOpenOffer own.offer.id = .ok own' ∧
    own'.offer.payload = own.offer.payload := by
  obtain ⟨own, hown, hfixed, hpos, hshown⟩ : ∃ own ∈ longPrice.snapshotOwn,
    own.offer.payload.useMarketPrice = false ∧
      0 < own.offer.payload.price ∧
        (OfferView.ofOwn longPrice.quotes own.offer own.terms).toOption.bind OfferView.price =
        some "12345678901234567890123456790000000.0000" := by decide +kernel
  obtain ⟨view, text, hview, htext, hsaved⟩ := resaved_unchanged longPrice_ran hown hfixed hpos
  rw [hview] at hshown
  obtain rfl : text = "12345678901234567890123456790000000.0000" := Option.some.inj (htext.symm.trans hshown)
  obtain ⟨_, own', _, ho', hpayload⟩ := hsaved sendShownPrice ⟨by decide, rfl, .unspecified, by decide⟩
  exact ⟨own, own', hown, ho', hpayload⟩

end Tradepost.Node
