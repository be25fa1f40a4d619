import Tradepost.Proofs.Node.Edited

/-!
# Sending an edit again

An edit leaves an open offer on which it is still valid and which it no longer
changes: the switch of the pricing mode, the trigger price and the activation
are each fixed points of what the request asks for. The book loses its entry
and gets the same one back in the same place.
-/

namespace Tradepost

theorem ActivationChange.apply_apply (change : ActivationChange) (s : OpenState) :
    change.apply (change.apply s) = change.apply s := by
  cases change <;> rfl

theorem EditRequest.newTrigger_again (s : EditScope) (p : Payload) (current : Int) (r : EditRequest) :
    newTrigger s p (newTrigger s p current r) r = newTrigger s p current r := by
  unfold newTrigger
  cases s.trigger with
  | true => rfl
  | false => cases p.useMarketPrice <;> rfl

theorem EditRequest.Repriced.again {r : EditRequest} {p : Payload} {s : EditScope} {q : Pricing}
    (h : r.Repriced p s q) : r.Repriced (p.withPricing q) s q := by
  cases h with
  | margin hm hf => exact .margin hm hf
  | trigger hm ht =>
    have hflag : (p.useMarketPrice || r.useMarketPrice || r.useMarketPrice) =
        (p.useMarketPrice || r.useMarketPrice) := by rw [Bool.or_assoc, Bool.or_self]
    have htwice : r.Repriced (p.withPricing ⟨p.price, p.margin, p.useMarketPrice || r.useMarketPrice⟩) s
        ⟨p.price, p.margin, p.useMarketPrice || r.useMarketPrice || r.useMarketPrice⟩ := .trigger hm ht
    rwa [hflag] at htwice
  | fixed hm ht hf hk => exact .fixed hm ht hf hk
  | none hm ht hf => exact .none hm ht hf

namespace Registry

variable {r : EditRequest} {v : ValidatedEdit} {e e' : Entry}

theorem Revised.again (h : Revised r v e e') : Revised r v e' e' := by
  obtain ⟨q, hq, ho⟩ := h.offer
  have hp : e'.offer.payload = e.offer.payload.withPricing q := congrArg Offer.payload ho
  refine ⟨?_, ⟨q, ?_, ?_⟩, ?_, ?_⟩
  · -- validation reads no more of the offer than its currency and whether it follows the market
    have hcurrency : e'.offer.payload.currency = e.offer.payload.currency := by
      rw [hp]
      rfl
    exact
      { h.valid with
        price := by rw [hcurrency]; exact h.valid.price
        trigger := fun ht => ⟨(h.valid.trigger ht).1, by rw [h.follows ht, Bool.true_or]⟩ }
  · rw [hp]
    exact hq.again
  · rw [hp]
    exact ho
  · rw [h.trigger, EditRequest.newTrigger_again]
  · rw [h.state, ActivationChange.apply_apply]

theorem Revised.published (h : Revised r v e e') :
    { offer := .edited e'.offer.payload, triggerPrice := e'.triggerPrice, state := e'.state } = e' := by
  obtain ⟨q, _, ho⟩ := h.offer
  have hoffer : Offer.edited e'.offer.payload = e'.offer := by
    rw [ho]
    rfl
  rw [hoffer]

theorem Revised.replanned (h : Revised r v e e') :
    e'.plan r = .ok (e'.offer.payload, e'.triggerPrice, e'.state) := by
  refine plan_eq_ok.mpr ⟨v, ?_⟩
  rw [h.published]
  exact h.again

theorem Contents.publish_again (c : Contents) (id : String) (e : Entry) :
    (((c.withdraw id).publish id e).withdraw id).publish id e = (c.withdraw id).publish id e := by
  refine Contents.ext ?_ ?_ ?_
  · unfold Contents.publish Contents.withdraw
    dsimp only
    split
    · rw [OrderedMap.erase_insert, OrderedMap.erase_erase]
    · exact OrderedMap.erase_erase ..
  · exact OrderedMap.insert_self ((OrderedMap.get?_insert ..).trans (if_pos rfl))
  · unfold Contents.publish Contents.withdraw
    simp

end Registry

namespace Node

open Registry

variable {n m : Node} {id : String} {r : EditRequest} {v : ValidatedEdit} {own own' : Own}

theorem Sound.comes_to (h : m.Sound) {c : Call} {s : Contents} (hs : m.change? m.registry.contents c = some s) :
    ∃ x, (m.perform c).2 = .ok x ∧ (m.perform c).1.registry.contents = s := by
  rcases h.perform_kept c with ⟨x, s', hx, hs', hm, _⟩ | ⟨_, _, hnone, _⟩
  · obtain rfl : s = s' := Option.some.inj (hs.symm.trans hs')
    exact ⟨x, hx, hm⟩
  · cases hs.symm.trans hnone

theorem Edited.unmarked (h : Edited n m id r v own own') : id ∉ m.registry.contents.editing := by
  rw [h.contents]
  exact fun he => (mem_unmarked.mp he).2 rfl

/-- After a successful edit its request comes to the contents that are there already. -/
theorem Edited.change?_again (h : Edited n m id r v own own') :
    m.change? m.registry.contents (.edit id r) = some m.registry.contents := by
  unfold change?
  dsimp only
  rw [own?_of_getMyOpenOffer h.after]
  dsimp only
  rw [h.revised.replanned]
  dsimp only
  rw [if_neg h.unmarked, h.revised.published, h.contents, Contents.publish_again]

/-- **An edit that is sent again changes nothing.** In every state of the node and for every edit
that succeeds: the same request, sent again right away, succeeds too and leaves book, table and
editing set, all that they show and its order, as the first one left them; and the id is not being
edited. -/
theorem edit_sent_again (h : n.Reachable) {x : Receipt} (hx : (n.perform (.edit id r)).2 = .ok x) :
    ∃ x', ((n.perform (.edit id r)).1.perform (.edit id r)).2 = .ok x' ∧
      ((n.perform (.edit id r)).1.perform (.edit id r)).1.registry.contents =
        (n.perform (.edit id r)).1.registry.contents ∧
      id ∉ (n.perform (.edit id r)).1.registry.contents.editing := by
  obtain ⟨v, own, own', he⟩ := h.sound.edited hx
  obtain ⟨x', hx', hm⟩ := (h.sound.perform (.edit id r)).comes_to he.change?_again
  exact ⟨x', hx', hm, he.unmarked⟩

def marginAndTrigger : EditRequest :=
  { editType := .text "MKT_PRICE_MARGIN_AND_TRIGGER_PRICE", marginPercent := some (.ofInt 5), triggerPrice := 7 }

def retriggered : Node := (twoOwn.perform (.edit "own-1" marginAndTrigger)).1

theorem marginAndTrigger_moves :
    ∃ s, twoOwn.change? twoOwn.registry.contents (.edit "own-1" marginAndTrigger) = some s ∧
    s.book.keys = ["own-2", "own-1"] :=
  Option.map_eq_some_iff.mp (by decide +kernel)

/-- The first edit moves the entry to the end of the book, where the second one leaves it. -/
theorem edit_sent_again_retriggered : twoOwn.registry.contents.book.keys = ["own-1", "own-2"] ∧
    ∃ x, (retriggered.perform (.edit "own-1" marginAndTrigger)).2 = .ok x ∧
      (retriggered.perform (.edit "own-1" marginAndTrigger)).1.registry.contents = retriggered.registry.contents ∧
      retriggered.registry.contents.book.keys = ["own-2", "own-1"] := by
  obtain ⟨s, hs, hkeys⟩ := marginAndTrigger_moves
  obtain ⟨_, hx, rfl⟩ := twoOwn_reachable.sound.comes_to hs
  obtain ⟨x, hx', hm, _⟩ := edit_sent_again twoOwn_reachable hx
  refine ⟨by decide +kernel, ?_⟩
  unfold retriggered
  exact ⟨x, hx', hm, hkeys⟩

end Node

end Tradepost
