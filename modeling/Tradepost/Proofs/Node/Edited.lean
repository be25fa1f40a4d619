import Tradepost.Proofs.Edit.Revision

/-!
# What a successful edit does to a node

A successful edit replaces the own offer under its id by the revised one and
leaves everything else in book and table as it was. The main statements say
what that means for prices and margins, for the activation, and for well priced
offers.
-/

namespace Tradepost.Node

open Registry

variable {n : Node} {id : String} {r : EditRequest}

theorem getMyOpenOffer_of_own? {e : Entry} (h : n.registry.contents.own? n.fingerprint id = some e) :
    ∃ own, n.getMyOpenOffer id = .ok own ∧ own.entry = e := by
  rw [← getMyOpenOffer_entry] at h
  cases ho : n.getMyOpenOffer id with
  | error x =>
    rw [ho] at h
    cases h
  | ok own =>
    rw [ho] at h
    exact ⟨own, rfl, Option.some.inj h⟩

theorem change?_edit {c s : Contents} (h : n.change? c (.edit id r) = some s) :
    ∃ v e e', c.own? n.fingerprint id = some e ∧ Revised r v e e' ∧ s = (c.withdraw id).publish id e' := by
  unfold change? at h
  dsimp only at h
  cases ho : c.own? n.fingerprint id with
  | none =>
    rw [ho] at h
    cases h
  | some e =>
    rw [ho] at h
    dsimp only at h
    cases hp : e.plan r with
    | error x =>
      rw [hp] at h
      cases h
    | ok plan =>
      obtain ⟨edited, trigger, state⟩ := plan
      rw [hp] at h
      dsimp only at h
      obtain ⟨v, hv⟩ := plan_eq_ok.mp hp
      split at h
      · cases h
      · exact ⟨v, e, _, rfl, hv, (Option.some.inj h).symm⟩

theorem own?_published {c : Contents} {owner : String} {e : Entry} (h : e.offer.payload.owner = owner) :
    ((c.withdraw id).publish id e).own? owner id = some e := by
  unfold Contents.own? Contents.publish
  dsimp only
  rw [OrderedMap.get?_insert, if_pos rfl]
  simp [Option.filter, Offer.isOwnedBy, h]

structure Edited (n m : Node) (id : String) (r : EditRequest) (v : ValidatedEdit) (own own' : Own) : Prop where
  before : n.getMyOpenOffer id = .ok own
  after : m.getMyOpenOffer id = .ok own'
  revised : Revised r v own.entry own'.entry
  contents : m.registry.contents = (n.registry.contents.withdraw id).publish id own'.entry

theorem Sound.edited (h : n.Sound) {x : Receipt} (hx : (n.perform (.edit id r)).2 = .ok x) :
    ∃ v own own', Edited n (n.perform (.edit id r)).1 id r v own own' := by
  rcases h.perform_kept (.edit id r) with ⟨_, s, _, hs, hm, _⟩ | ⟨e, he, _⟩
  · obtain ⟨v, e, e', hown, hrev, rfl⟩ := change?_edit hs
    obtain ⟨own, ho, rfl⟩ := getMyOpenOffer_of_own? hown
    have howner : e'.offer.payload.owner = (n.perform (.edit id r)).1.fingerprint := by
      rw [hrev.owner, (n.perform_alike (.edit id r)).fingerprint]
      exact of_decide_eq_true (getMyOpenOffer_ok ho).2
    obtain ⟨own', ho', rfl⟩ := getMyOpenOffer_of_own? (hm ▸ own?_published howner)
    exact ⟨v, own, own', ho, ho', hrev, hm⟩
  · cases hx.symm.trans he

variable {m : Node} {v : ValidatedEdit} {own own' : Own}

theorem Edited.table (h : Edited n m id r v own own') :
    m.registry.contents.table.erase id = n.registry.contents.table.erase id := by
  rw [h.contents]
  exact OrderedMap.erase_insert ..

theorem Edited.book (h : Edited n m id r v own own') :
    m.registry.contents.book.erase id = n.registry.contents.book.erase id := by
  rw [h.contents]
  unfold Contents.publish Contents.withdraw
  dsimp only
  split
  · rw [OrderedMap.erase_insert, OrderedMap.erase_erase]
  · exact OrderedMap.erase_erase ..

theorem Edited.type (h : Edited n m id r v own own') :
    ∃ t, EditType.read? r.editType = some t ∧ v.scope = t.scope :=
  ⟨v.editType, h.revised.valid.type, h.revised.valid.scope⟩

/-! ## What is certain of every successful edit -/

theorem Sound.succeeds (h : n.Sound) {c : Call} {s : Contents} (hs : n.change? n.registry.contents c = some s) :
    ∃ x, (n.perform c).2 = .ok x := by
  rcases h.perform_kept c with ⟨x, _, hx, _⟩ | ⟨_, _, hnone, _⟩
  · exact ⟨x, hx⟩
  · cases hs.symm.trans hnone

def fixedOffer : Offer :=
  { payload := (Offer.small "me" "own-1").payload.withPricing ⟨20000, .zero, false⟩, state := .available }

def fixedOwn : Own :=
  { number := 0, terms := { offer := 0, triggerPrice := 0, state := .available }, offer := fixedOffer }

def twoOwn : Node :=
  { registry := after {} [
      .makeOffer fixedOffer, .command (.place 0 0), .makeOffer (Offer.small "me" "own-2"), .command (.place 1 0)] }

theorem twoOwn_reachable : twoOwn.Reachable := Reachable.after (.fresh rfl rfl rfl : Reachable {}) _

theorem twoOwn_first : twoOwn.getMyOpenOffer "own-1" = .ok fixedOwn := rfl

def followMarket : EditRequest :=
  { editType := .text "TRIGGER_PRICE_ONLY", triggerPrice := 5, activation := .integer 0, useMarketPrice := true }

theorem followMarket_type : EditType.read? followMarket.editType = some .triggerOnly := by decide

def followed : Node := (twoOwn.perform (.edit "own-1" followMarket)).1

theorem followMarket_succeeds : ∃ x, (twoOwn.perform (.edit "own-1" followMarket)).2 = .ok x := by
  have h : (twoOwn.change? twoOwn.registry.contents (.edit "own-1" followMarket)).isSome = true := by decide
  obtain ⟨_, hs⟩ := Option.isSome_iff_exists.mp h
  exact twoOwn_reachable.sound.succeeds hs

/-- **An edit changes what its type covers and nothing else.** In every state of the node and for
every request that succeeds, the own offer stays confined to the scope, and all other entries of
table and book stay as they are, in their order. -/
theorem edit_confined (h : n.Reachable) {x : Receipt} (hx : (n.perform (.edit id r)).2 = .ok x) :
    ∃ own own' t, n.getMyOpenOffer id = .ok own ∧ (n.perform (.edit id r)).1.getMyOpenOffer id = .ok own' ∧
      EditType.read? r.editType = some t ∧ Confined t.scope r own.entry own'.entry ∧
      (n.perform (.edit id r)).1.registry.contents.table.erase id = n.registry.contents.table.erase id ∧
      (n.perform (.edit id r)).1.registry.contents.book.erase id = n.registry.contents.book.erase id := by
  obtain ⟨v, own, own', he⟩ := h.sound.edited hx
  obtain ⟨t, ht, hs⟩ := he.type
  exact ⟨own, own', t, he.before, he.after, ht, hs ▸ he.revised.confined, he.table, he.book⟩

theorem edit_confined_followed :
    (∃ own, followed.getMyOpenOffer "own-1" = .ok own ∧ own.offer.payload.price = 20000) ∧
      followed.registry.contents.table.erase "own-1" = twoOwn.registry.contents.table.erase "own-1" := by
  obtain ⟨_, hx⟩ := followMarket_succeeds
  obtain ⟨own, own', t, ho, ho', ht, hc, htable, _⟩ := edit_confined twoOwn_reachable hx
  obtain rfl : fixedOwn = own := Except.ok.inj (twoOwn_first.symm.trans ho)
  obtain rfl : .triggerOnly = t := Option.some.inj (followMarket_type.symm.trans ht)
  exact ⟨⟨own', ho', hc.price rfl⟩, htable⟩

/-- **The activation that is sent decides the state.** Whatever the type of an edit covers, the
state afterwards is the change applied to the state before; so it stays exactly if no change is
sent, or one into the state it has. -/
theorem edit_activation (h : n.Reachable) {x : Receipt} (hx : (n.perform (.edit id r)).2 = .ok x) :
    ∃ own own' t change, n.getMyOpenOffer id = .ok own ∧ (n.perform (.edit id r)).1.getMyOpenOffer id = .ok own' ∧
      EditType.read? r.editType = some t ∧ ActivationChange.read? r.activation = some change ∧
      own'.terms.state = change.apply own.terms.state ∧
      (own'.terms.state = own.terms.state ↔
        change = .unspecified ∨ (change = .enable ∧ own.terms.state = .available) ∨
          (change = .disable ∧ own.terms.state = .deactivated)) := by
  obtain ⟨v, own, own', he⟩ := h.sound.edited hx
  obtain ⟨t, ht, _⟩ := he.type
  have hstate : own'.terms.state = v.activation.apply own.terms.state := he.revised.state
  refine ⟨own, own', t, v.activation, he.before, he.after, ht, he.revised.valid.activation, hstate, ?_⟩
  rw [hstate]
  cases v.activation with
  | unspecified => simp [ActivationChange.apply]
  | enable => simp [ActivationChange.apply, eq_comm]
  | disable => simp [ActivationChange.apply, eq_comm]

theorem edit_activation_followed :
    ∃ own, followed.getMyOpenOffer "own-1" = .ok own ∧ own.terms.state = .deactivated := by
  obtain ⟨_, hx⟩ := followMarket_succeeds
  obtain ⟨_, own', _, change, _, ho', _, hc, hstate, _⟩ := edit_activation twoOwn_reachable hx
  obtain rfl : .disable = change := Option.some.inj hc
  exact ⟨own', ho', hstate⟩

/-- The type of the edit covers the trigger price only, and yet the offer is switched off. -/
theorem activation_beyond_scope :
    EditType.read? followMarket.editType = some .triggerOnly ∧ EditType.triggerOnly.scope.activation = false ∧
      (∃ x, (twoOwn.perform (.edit "own-1" followMarket)).2 = .ok x) ∧
      ∃ own own', twoOwn.getMyOpenOffer "own-1" = .ok own ∧ followed.getMyOpenOffer "own-1" = .ok own' ∧
        own.terms.state = .available ∧ own'.terms.state = .deactivated := by
  obtain ⟨x, hx⟩ := followMarket_succeeds
  obtain ⟨v, own, own', he⟩ := twoOwn_reachable.sound.edited hx
  obtain rfl : fixedOwn = own := Except.ok.inj (twoOwn_first.symm.trans he.before)
  have hstate : own'.terms.state = v.activation.apply .available := he.revised.state
  have hchange : some v.activation = some .disable := he.revised.valid.activation.symm
  rw [Option.some.inj hchange] at hstate
  exact ⟨followMarket_type, rfl, ⟨x, hx⟩, fixedOwn, own', he.before, he.after, rfl, hstate⟩

/-- **Edits keep offers well priced.** What validation lets through can be merged; and of a well
priced own offer a successful edit leaves a well priced one, which follows the market if the edit
covers the trigger price. -/
theorem edit_wellPriced (h : n.Reachable) {own : Own} (ho : n.getMyOpenOffer id = .ok own)
    (hw : own.entry.WellPriced) (r : EditRequest) :
    (∀ p v, r.validate p = .ok v → ∃ q, r.merge p v.editType = .ok q) ∧
      ∀ x, (n.perform (.edit id r)).2 = .ok x →
        ∃ own' t, (n.perform (.edit id r)).1.getMyOpenOffer id = .ok own' ∧ own'.entry.WellPriced ∧
          EditType.read? r.editType = some t ∧
          (t.scope.trigger = true → own'.offer.payload.useMarketPrice = true) := by
  refine ⟨fun p v hv => (validate_eq_ok.mp hv).merges, fun x hx => ?_⟩
  obtain ⟨v, own₀, own', he⟩ := h.sound.edited hx
  obtain rfl : own = own₀ := Except.ok.inj (ho.symm.trans he.before)
  obtain ⟨t, ht, hs⟩ := he.type
  exact ⟨own', t, he.after, he.revised.wellPriced hw, ht, fun htr => he.revised.follows (hs ▸ htr)⟩

theorem edit_wellPriced_followed :
    (∃ q, followMarket.merge fixedOffer.payload .triggerOnly = .ok q) ∧
      ∃ own, followed.getMyOpenOffer "own-1" = .ok own ∧ own.entry.WellPriced ∧
        own.offer.payload.useMarketPrice = true := by
  have hw : fixedOwn.entry.WellPriced := ⟨by decide, fun _ => by decide⟩
  obtain ⟨hmerge, hedit⟩ := edit_wellPriced twoOwn_reachable twoOwn_first hw followMarket
  obtain ⟨x, hx⟩ := followMarket_succeeds
  obtain ⟨own', t, ho', hw', ht, hmarket⟩ := hedit x hx
  obtain rfl : .triggerOnly = t := Option.some.inj (followMarket_type.symm.trans ht)
  have hv : followMarket.validate fixedOffer.payload =
    .ok ⟨.triggerOnly, EditType.triggerOnly.scope, .disable⟩ := rfl
  exact ⟨hmerge _ _ hv, own', ho', hw', hmarket rfl⟩

end Tradepost.Node
