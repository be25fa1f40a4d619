import Tradepost.Node.Service
import Tradepost.Proofs.Node.Draft
import Tradepost.Proofs.Registry.Contents
import Tradepost.Proofs.Registry.History

/-!
# The states of a node

A node comes into its states by calls, by what is done to its registry
directly, and by changes from outside that leave the registry alone. In all of
them the registry is keyed and the snapshots list book and table. So an own
offer is found alike by its id and among the snapshots.
-/

namespace Tradepost.Node

open Registry

inductive Reachable : Node → Prop where
  | fresh {n : Node} : n.registry = {} → n.bookView = none → n.tableView = none → Reachable n
  | call {n : Node} (c : Call) : Reachable n → Reachable (n.perform c).1
  | direct {n : Node} (a : Action) : Reachable n → Reachable { n with registry := n.registry.act a }
  | loaded {n : Node} (o : Offer) (trigger : Int) (state : OpenState) (inBook : Bool) :
      Reachable n → Reachable { n with registry := n.registry.loadOpen o trigger state inBook }
  | offerState {n : Node} (id : String) (state : OfferState) :
      Reachable n → Reachable { n with registry := n.registry.setOfferState id state }
  | openState {n : Node} (id : String) (state : OpenState) :
      Reachable n → Reachable { n with registry := n.registry.setOpenState id state }
  | outside {n m : Node} : Reachable n → m.registry = n.registry → m.fingerprint = n.fingerprint →
      m.bookView = n.bookView → m.tableView = n.tableView → Reachable m

structure Sound (n : Node) : Prop where
  keyed : n.registry.Keyed
  book : n.bookView = none
  table : n.tableView = none

variable {n : Node}

/-! ## How calls begin -/

theorem begin_create_error {p : CreateParams} {e : Failure} (h : (n.draftOffer p).2 = .error e) :
    n.begin (.create p) = ((n.draftOffer p).1, .finished (.error e)) := by
  generalize hd : n.draftOffer p = d at h ⊢
  obtain ⟨m, x⟩ := d
  cases h
  rw [Node.begin, hd]

theorem begin_create {p : CreateParams} {o : Offer} (h : (n.draftOffer p).2 = .ok o) :
    n.begin (.create p) =
      ({ (n.draftOffer p).1 with registry := (n.registry.fileOffer o).1 },
        .waiting (.place n.registry.offers.nextNumber p.triggerPrice) (.placing n.registry.offers.nextNumber)) := by
  obtain ⟨w, ids, hn, _⟩ := n.draftOffer_node p
  generalize hd : n.draftOffer p = d at h hn ⊢
  obtain ⟨m, x⟩ := d
  cases h
  obtain rfl : m = { n with wallet := w, ids } := hn
  rw [Node.begin, hd]
  rfl

theorem begin_edit_unknown {id : String} {r : EditRequest} {e : ServiceError} (h : n.getMyOpenOffer id = .error e) :
    n.begin (.edit id r) = (n, failed e) := by
  rw [Node.begin, h]

theorem begin_edit_error {id : String} {r : EditRequest} {own : Own} {e : Failure}
    (h : n.getMyOpenOffer id = .ok own) (hp : planEdit own r = .error e) :
    n.begin (.edit id r) = (n, .finished (.error e)) := by
  rw [Node.begin, h]
  dsimp only
  rw [hp]

theorem begin_edit {id : String} {r : EditRequest} {own : Own} {edited : Payload}
    {trigger : Int} {state : OpenState}
    (h : n.getMyOpenOffer id = .ok own) (hp : planEdit own r = .ok (edited, trigger, state)) :
    n.begin (.edit id r) =
      ((n.fileEdited own.offer.currency edited).1,
        .waiting (.editStart own.number) (.starting n.registry.offers.nextNumber trigger state)) := by
  rw [Node.begin, h]
  dsimp only
  rw [hp]
  rfl

theorem begin_cancel_unknown {id : String} {e : ServiceError} (h : n.getMyOffer id = .error e) :
    n.begin (.cancel id) = (n, failed e) := by
  rw [Node.begin, h]

theorem begin_cancel {id : String} {own : Own} (h : n.getMyOffer id = .ok own) :
    n.begin (.cancel id) = (n, .waiting (.remove own.terms.offer) .removing) := by
  rw [Node.begin, h]

/-- Up to its first command a call leaves the registry alone, but for a record
that it may file. -/
theorem begin_node (n : Node) (c : Call) :
    (n.begin c).1.Alike n ∧ (n.begin c).1.bookView = n.bookView ∧ (n.begin c).1.tableView = n.tableView ∧
      ((n.begin c).1.registry = n.registry ∨ ∃ o, (n.begin c).1.registry = (n.registry.fileOffer o).1) := by
  cases c with
  | create p =>
    obtain ⟨w, ids, hn, ha, hl⟩ := n.draftOffer_node p
    cases hd : (n.draftOffer p).2 with
    | error e =>
      rw [begin_create_error hd, hn]
      exact ⟨⟨rfl, rfl, ha, hl⟩, rfl, rfl, .inl rfl⟩
    | ok o =>
      rw [begin_create hd, hn]
      exact ⟨⟨rfl, rfl, ha, hl⟩, rfl, rfl, .inr ⟨o, rfl⟩⟩
  | edit id r =>
    cases ho : n.getMyOpenOffer id with
    | error e =>
      rw [begin_edit_unknown ho]
      exact ⟨.refl n, rfl, rfl, .inl rfl⟩
    | ok own =>
      cases hp : planEdit own r with
      | error e =>
        rw [begin_edit_error ho hp]
        exact ⟨.refl n, rfl, rfl, .inl rfl⟩
      | ok plan =>
        rw [begin_edit ho hp]
        exact ⟨⟨rfl, rfl, rfl, rfl⟩, rfl, rfl, .inr ⟨_, rfl⟩⟩
  | cancel id =>
    cases ho : n.getMyOffer id with
    | error e =>
      rw [begin_cancel_unknown ho]
      exact ⟨.refl n, rfl, rfl, .inl rfl⟩
    | ok own =>
      rw [begin_cancel ho]
      exact ⟨.refl n, rfl, rfl, .inl rfl⟩

theorem settle_alike (n : Node) (p : Progress) : (n.settle p).1.Alike n := by
  fun_induction Node.settle n p with
  | case1 n outcome => exact .refl n
  | case2 n c s registry report hrun m ih => exact ih.trans ⟨rfl, rfl, rfl, rfl⟩

theorem perform_alike (n : Node) (c : Call) : (n.perform c).1.Alike n := (settle_alike _ _).trans (n.begin_node c).1

/-! ## Sound states -/

theorem Sound.begin (h : n.Sound) (c : Call) : (n.begin c).1.Sound := by
  obtain ⟨_, hb, ht, hr | ⟨o, hr⟩⟩ := n.begin_node c
  · exact ⟨hr ▸ h.keyed, hb.trans h.book, ht.trans h.table⟩
  · exact ⟨hr ▸ h.keyed.fileOffer o, hb.trans h.book, ht.trans h.table⟩

theorem Sound.settle (h : n.Sound) (p : Progress) : (n.settle p).1.Sound := by
  fun_induction Node.settle n p with
  | case1 n outcome => exact h
  | case2 n c s registry report hrun m ih =>
    refine ih ⟨?_, h.book, h.table⟩
    have := h.keyed.run c
    rw [hrun] at this
    exact this

theorem Sound.perform (h : n.Sound) (c : Call) : (n.perform c).1.Sound := (h.begin c).settle _

theorem Reachable.sound (h : n.Reachable) : n.Sound := by
  induction h with
  | fresh hr hb ht => exact ⟨hr ▸ keyed_empty, hb, ht⟩
  | call c _ ih => exact ih.perform c
  | direct a _ ih => exact ⟨ih.keyed.act a, ih.book, ih.table⟩
  | loaded o t s b _ ih => exact ⟨ih.keyed.loadOpen o t s b, ih.book, ih.table⟩
  | offerState id s _ ih => exact ⟨ih.keyed.setOfferState id s, ih.book, ih.table⟩
  | openState id s _ ih => exact ⟨ih.keyed.setOpenState id s, ih.book, ih.table⟩
  | outside _ hr _ hb ht ih => exact ⟨hr ▸ ih.keyed, hb.trans ih.book, ht.trans ih.table⟩

theorem Reachable.after (h : n.Reachable) (actions : List Action) :
    Reachable { n with registry := n.registry.after actions } := by
  induction actions generalizing n with
  | nil => exact h
  | cons a rest ih => exact ih (h.direct a)

/-! ## Offers of peers -/

def hear (n : Node) (x : Offer) : Node := { n with registry := n.registry.addNetworkOffer x }

theorem addNetworkOffer_eq (r : Registry) (x : Offer) : r.addNetworkOffer x =
    { (r.fileOffer x).1.amendOffer r.offers.nextNumber Offer.attached with
      book := r.book.insert x.id r.offers.nextNumber } := announce_eq (offer?_filed x)

theorem Reachable.hear (h : n.Reachable) (x : Offer) : (n.hear x).Reachable :=
  h.after [.makeOffer x, .announce n.registry.offers.nextNumber]

theorem Sound.hear_kept (h : n.Sound) (x : Offer) :
    (n.hear x).registry.contents.table = n.registry.contents.table ∧
      (n.hear x).registry.contents.editing = n.registry.contents.editing := by
  show (n.registry.addNetworkOffer x).contents.table = _ ∧ (n.registry.addNetworkOffer x).contents.editing = _
  rw [addNetworkOffer_eq]
  -- but for the book there is one record more, and nothing points to it
  exact (Contents.mk.inj (h.keyed.untouched_amend_filed x Offer.attached).contents).2

/-! ## Nodes to trade on -/

def euroTrader : Node :=
  { accounts := .ofList [{ id := "account-1", method := "SEPA", currencies := ["EUR"] }] }

def quoted : Node := { euroTrader with feed := { quotes := .ofList [("EUR", .finite false 50000 0)] } }

end Tradepost.Node
