import Tradepost.Proofs.Node.Lifetime

/-!
# Where own offers come from

A call that creates an offer returns it. Whatever calls follow, an own offer
keeps the payload it was last created with under its id, but for the way it is
priced, and it still fits the account it was created for.
-/

namespace Tradepost

open Registry EditRequest

/-! ## Accounts by id -/

namespace AccountStore

def Keyed (s : AccountStore) : Prop := ∀ id a, s.lookup id = some a → a.id = id

theorem Keyed.add {s : AccountStore} (h : s.Keyed) (a : PaymentAccount) : (s.add a).Keyed := by
  intro id b hb
  have hget : (s.byId.insert a.id a).get? id = some b := hb
  rw [OrderedMap.get?_insert] at hget
  split at hget
  · rename_i hid
    cases hget
    exact hid.symm
  · exact h id b hget

theorem keyed_ofList (accounts : List PaymentAccount) : (ofList accounts).Keyed := by
  have hfold : ∀ s : AccountStore, s.Keyed → (accounts.foldl add s).Keyed := by
    induction accounts with
    | nil => exact fun s h => h
    | cons a rest ih => exact fun s h => ih _ (h.add a)
  refine hfold {} ?_
  intro id a h
  cases h

end AccountStore

theorem Registry.Keyed.contents_id {r : Registry} (h : r.Keyed) {id : String} {e : Entry}
    (he : r.contents.table.get? id = some (some e)) : e.offer.id = id := by
  have hjoin := lookup_entry r id
  rw [he] at hjoin
  obtain ⟨own, hown, rfl⟩ := Option.map_eq_some_iff.mp hjoin
  exact (h.lookup hown).2.2

namespace Node

variable {n : Node} {log : List (Node × Call)} {accounts : List PaymentAccount}
  {payloads : List Payload} {p : Payload}

/-! ## Payloads that offers were created with -/

def createdBy (n : Node) (c : Call) : List Payload :=
  match c, n.perform c with
  | .create _, (m, .ok (.placed k)) => ((m.registry.offer? k).map Offer.payload).toList
  | _, _ => []

def created (log : List (Node × Call)) : List Payload := log.flatMap fun x => x.1.createdBy x.2

theorem createdBy_placed {c : CreateParams} {o : Offer} (hd : (n.draftOffer c).2 = .ok o)
    (hv : amountsValid o.payload = true) (hk : n.registry.table.get? o.id = none) :
    n.createdBy (.create c) = [o.payload] := by
  unfold createdBy
  have hcreation := n.perform_creation c
  generalize n.perform (.create c) = m at hcreation ⊢
  cases hcreation with
  | undrafted hd' => cases hd'.symm.trans hd
  | invalid hd' hv' =>
    obtain rfl := Except.ok.inj (hd'.symm.trans hd)
    cases hv'.symm.trans hv
  | taken hd' hk' =>
    obtain rfl := Except.ok.inj (hd'.symm.trans hd)
    cases hk'.symm.trans hk
  | @placed o' hd' _ _ =>
    obtain rfl := Except.ok.inj (hd'.symm.trans hd)
    have hrecord := offer?_placed_filed n.registry o' c.triggerPrice
    simp [withPlaced, holding, hrecord]

theorem createdBy_of_error {c : Call} {e : Failure} (h : (n.perform c).2 = .error e) : n.createdBy c = [] := by
  unfold createdBy
  generalize n.perform c = m at h
  obtain ⟨m, x⟩ := m
  cases h
  cases c <;> rfl

theorem createdBy_edit (n : Node) (id : String) (r : EditRequest) : n.createdBy (.edit id r) = [] := rfl

/-! ## What own offers keep -/

structure Genuine (owner : String) (accounts : AccountStore) (payloads : List Payload) (p : Payload) : Prop where
  owner : p.owner = owner
  amounts : 0 < p.amount ∧ p.minAmount ≤ p.amount
  origin : ∃ p₀, payloads.find? (·.id = p.id) = some p₀ ∧ p = p₀.withPricing p.pricing
  margin : p.useMarketPrice = false → p.margin = .zero
  account : ∃ a, accounts.lookup p.makerAccount = some a ∧ a.fits p = true

theorem genuine_drafted (ha : n.accounts.Keyed) {c : CreateParams} {o : Offer} (hd : (n.draftOffer c).2 = .ok o)
    (hv : amountsValid o.payload = true) (payloads : List Payload) :
    Genuine n.fingerprint n.accounts (o.payload :: payloads) o.payload := by
  obtain ⟨t, f, hdrafted⟩ := draftOffer_drafted hd
  obtain ⟨a, hlookup, hid, hfits⟩ := draftOffer_account hd
  refine ⟨?_, by simpa [amountsValid] using hv, ⟨o.payload, ?_, rfl⟩, fun hfixed => ?_, a, ?_, hfits⟩
  · rw [hdrafted.offer]
    rfl
  · simp
  · rw [hdrafted.margin, ← hdrafted.market, hfixed]
    rfl
  · rw [hid, ha _ _ hlookup]
    exact hlookup

theorem Genuine.cons {owner : String} {store : AccountStore} (h : Genuine owner store payloads p) {q : Payload}
    (hne : q.id ≠ p.id) : Genuine owner store (q :: payloads) p := by
  obtain ⟨p₀, hfind, hp⟩ := h.origin
  exact { h with origin := ⟨p₀, by rw [List.find?_cons_of_neg (by simpa using hne), hfind], hp⟩ }

theorem Genuine.revised {owner : String} {store : AccountStore} {r : EditRequest} {v : ValidatedEdit} {e e' : Entry}
    (hrev : Revised r v e e') (h : Genuine owner store payloads e.offer.payload) :
    Genuine owner store payloads e'.offer.payload := by
  obtain ⟨q, hq, ho⟩ := hrev.offer
  have hp : e'.offer.payload = e.offer.payload.withPricing q := congrArg Offer.payload ho
  obtain ⟨p₀, hfind, horigin⟩ := h.origin
  rw [hp]
  refine ⟨h.owner, h.amounts, ⟨p₀, hfind, ?_⟩, fun hfixed => ?_, h.account⟩
  · rw [horigin]
    rfl
  · show q.margin = .zero
    rcases repriced_fixed hq hfixed with ⟨hbefore, _, hmargin⟩ | ⟨_, _, hmargin⟩
    · exact hmargin.trans (h.margin hbefore)
    · exact hmargin

theorem genuine_call (hs : n.Sound) (ha : n.accounts.Keyed)
    (h : n.registry.contents.All (Genuine n.fingerprint n.accounts payloads ·.offer.payload)) (c : Call) :
    (n.perform c).1.registry.contents.All
      (Genuine n.fingerprint n.accounts (n.createdBy c ++ payloads) ·.offer.payload) := by
  rcases hs.perform_kept c with ⟨_, s, _, hchange, hm, _⟩ | ⟨e, he, _, hu⟩
  · rw [hm]
    cases c with
    | create p =>
      obtain ⟨o, hd, hv, hk, rfl⟩ := change?_create hchange
      rw [createdBy_placed hd hv ((get?_contents_table _ _).mp hk)]
      refine Contents.All.place (fun id e he => (h id e he).cons ?_) (genuine_drafted ha hd hv payloads)
      -- the new offer has an id that was not in the table
      intro hid
      have hkey : o.id = id := hid.trans (hs.keyed.contents_id he)
      cases hk.symm.trans (hkey ▸ he)
    | edit id r =>
      obtain ⟨v, e, e', hown, hrev, rfl⟩ := change?_edit hchange
      rw [createdBy_edit]
      exact h.publish (Genuine.revised hrev (h.own hown))
    | cancel id =>
      obtain ⟨e, _, rfl⟩ := Option.map_eq_some_iff.mp hchange
      exact h.clear
  · rw [hu.contents, createdBy_of_error he]
    exact h

theorem Ran.genuine (h : Ran log n) (ha : ∀ x ∈ log, x.1.accounts = .ofList accounts) :
    n.registry.contents.All (Genuine n.fingerprint (.ofList accounts) (created log) ·.offer.payload) := by
  have hkept := h.table_kept (P := fun log owner e => (∀ x ∈ log, x.1.accounts = .ofList accounts) →
    Genuine owner (.ofList accounts) (created log) e.offer.payload) ?_
  · exact fun id e he => hkept id e he ha
  · intro log n c hran ih id e he ha
    have hn : n.accounts = .ofList accounts := ha _ (.head _)
    have hcall := genuine_call hran.reachable.sound (hn ▸ AccountStore.keyed_ofList accounts)
      (hn ▸ fun id e he => ih id e he fun x hx => ha x (.tail _ hx)) c
    rw [hn] at hcall
    exact hcall id e he

/-- **An own offer keeps the payload it was created with, but for its pricing.** Whatever calls
follow, as long as they are made with the same accounts: it is owned by the node, its amounts are in
order, a fixed price goes without a margin, and it fits the account it names. -/
theorem own_offer_genuine (h : Ran log n) (ha : ∀ x ∈ log, x.1.accounts = .ofList accounts) {own : Own}
    (hown : own ∈ n.snapshotOwn) : Genuine n.fingerprint (.ofList accounts) (created log) own.offer.payload :=
  h.entry (h.genuine ha) hown

theorem fixedLog_accounts :
    ∀ x ∈ fixedLog, x.1.accounts = .ofList [{ id := "account-1", method := "SEPA", currencies := ["EUR"] }] := by
  unfold fixedLog
  simp only [List.forall_mem_cons, (perform_alike _ _).accounts]
  exact ⟨rfl, rfl, fun _ hx => absurd hx List.not_mem_nil⟩

theorem own_offer_genuine_marketThenFixed :
    ∃ own ∈ marketThenFixed.snapshotOwn, ∃ p₀ ∈ euroTrader.createdBy (.create (createMarket .zero)),
      own.offer.payload = p₀.withPricing own.offer.payload.pricing := by
  obtain ⟨own, hown, _⟩ := marketThenFixed_fixed
  obtain ⟨p₀, hfind, hp⟩ := (own_offer_genuine marketThenFixed_ran fixedLog_accounts hown).origin
  have hcreated : created fixedLog = euroTrader.createdBy (.create (createMarket .zero)) := by
    simp [created, fixedLog, createdBy_edit]
  exact ⟨own, hown, p₀, hcreated ▸ List.mem_of_find?_eq_some hfind, hp⟩

end Node

end Tradepost
