import Tradepost.Proofs.Node.Edited

/-!
# Runs of a node

A run is told by its calls, each with the state it was made in. Calls alone
change the table: one adds what was drafted, revises what was there, or takes
it away. What every drafted offer has and every revision keeps, all own offers
of a run have.
-/

namespace Tradepost

open Registry EditRequest

/-! ## Entries of the table -/

namespace Registry

def Contents.All (P : Entry → Prop) (c : Contents) : Prop := ∀ id e, c.table.get? id = some (some e) → P e

def Entry.opened (o : Offer) (trigger : Int) : Entry :=
  { offer := { o with state := .available }, triggerPrice := trigger, state := .available }

variable {P : Entry → Prop} {c : Contents} {id : String} {e : Entry}

theorem Contents.All.insert (h : c.All P) (he : P e) :
    ∀ id' e', (c.table.insert id (some e)).get? id' = some (some e') → P e' := by
  intro id' e' h'
  rw [OrderedMap.get?_insert] at h'
  split at h'
  · cases h'
    exact he
  · exact h id' e' h'

theorem Contents.All.place (h : c.All P) (he : P e) : (c.place id e).All P := h.insert he

theorem Contents.All.publish (h : c.All P) (he : P e) : ((c.withdraw id).publish id e).All P := h.insert he

theorem Contents.All.clear (h : c.All P) : (c.clear id).All P := by
  intro id' e' h'
  have h'' : (c.table.erase id).get? id' = some (some e') := h'
  rw [OrderedMap.get?_erase] at h''
  split at h''
  · cases h''
  · exact h id' e' h''

theorem Contents.All.own (h : c.All P) {owner : String} (hown : c.own? owner id = some e) : P e := by
  obtain ⟨hjoin, _⟩ := Option.filter_eq_some_iff.mp hown
  exact h id e (Option.join_eq_some_iff.mp hjoin)

end Registry

namespace Node

variable {n : Node} {log : List (Node × Call)} {P : Entry → Prop}

/-! ## What one call does to the table -/

theorem change?_create {c s : Contents} {p : CreateParams} (hs : n.change? c (.create p) = some s) :
    ∃ o, (n.draftOffer p).2 = .ok o ∧ amountsValid o.payload = true ∧ c.table.get? o.id = none ∧
      s = c.place o.id (.opened o p.triggerPrice) := by
  unfold change? at hs
  dsimp only at hs
  cases hd : (n.draftOffer p).2 with
  | error e =>
    rw [hd] at hs
    cases hs
  | ok o =>
    rw [hd] at hs
    dsimp only at hs
    split at hs
    · rename_i hplaceable
      exact ⟨o, rfl, hplaceable.1, hplaceable.2, (Option.some.inj hs).symm⟩
    · cases hs

theorem change?_all {c s : Contents} {call : Call} (hs : n.change? c call = some s) (hc : c.All P)
    (hcreate : ∀ p o, call = .create p → (n.draftOffer p).2 = .ok o → P (.opened o p.triggerPrice))
    (hedit : ∀ r v e e', Revised r v e e' → P e → P e') : s.All P := by
  cases call with
  | create p =>
    obtain ⟨o, hd, _, _, rfl⟩ := change?_create hs
    exact hc.place (hcreate p o rfl hd)
  | edit id r =>
    obtain ⟨v, e, e', hown, hrev, rfl⟩ := change?_edit hs
    exact hc.publish (hedit r v e e' hrev (hc.own hown))
  | cancel id =>
    obtain ⟨e, _, rfl⟩ := Option.map_eq_some_iff.mp hs
    exact hc.clear

theorem Sound.perform_all (h : n.Sound) {c : Call} (hall : n.registry.contents.All P)
    (hcreate : ∀ p o, c = .create p → (n.draftOffer p).2 = .ok o → P (.opened o p.triggerPrice))
    (hedit : ∀ r v e e', Revised r v e e' → P e → P e') : (n.perform c).1.registry.contents.All P := by
  rcases h.perform_kept c with ⟨_, s, _, hs, hm, _⟩ | ⟨_, _, _, hu⟩
  · rw [hm]
    exact change?_all hs hall hcreate hedit
  · rw [hu.contents]
    exact hall

theorem change?_unedited {c s : Contents} {call : Call} (hs : n.change? c call = some s) (hc : c.editing = []) :
    s.editing = [] := by
  cases call with
  | create p =>
    obtain ⟨o, _, _, _, rfl⟩ := change?_create hs
    exact hc
  | edit id r =>
    obtain ⟨v, e, e', _, _, rfl⟩ := change?_edit hs
    simp [Contents.publish, Contents.withdraw, hc]
  | cancel id =>
    obtain ⟨e, _, rfl⟩ := Option.map_eq_some_iff.mp hs
    simp [Contents.clear, hc]

theorem Sound.entry (h : n.Sound) (hall : n.registry.contents.All P) {own : Own} (hown : own ∈ n.snapshotOwn) :
    P own.entry := by
  refine hall own.offer.id own.entry (Option.join_eq_some_iff.mp ?_)
  rw [← lookup_entry, (h.mem_snapshotOwn own).mp hown]
  rfl

/-! ## Runs -/

/-- The states of a node that starts empty, is called, and hears of offers of peers, with the calls
so far and the states they were made in, the latest first. -/
inductive Ran : List (Node × Call) → Node → Prop where
  | fresh {n : Node} : n.registry = {} → n.bookView = none → n.tableView = none → Ran [] n
  | call {log : List (Node × Call)} {n : Node} (c : Call) : Ran log n → Ran ((n, c) :: log) (n.perform c).1
  | hear {log : List (Node × Call)} {n : Node} (x : Offer) : Ran log n → Ran log (n.hear x)
  | outside {log : List (Node × Call)} {n m : Node} : Ran log n → m.registry = n.registry →
      m.fingerprint = n.fingerprint → m.bookView = n.bookView → m.tableView = n.tableView → Ran log m

def calls (log : List (Node × Call)) : List Call := log.map Prod.snd

theorem mem_calls {m : Node} {c : Call} (h : (m, c) ∈ log) : c ∈ calls log := List.mem_map_of_mem h

namespace Ran

theorem reachable (h : Ran log n) : n.Reachable := by
  induction h with
  | fresh hr hb ht => exact .fresh hr hb ht
  | call c _ ih => exact ih.call c
  | hear x _ ih => exact ih.hear x
  | outside _ hr hf hb ht ih => exact ih.outside hr hf hb ht

/-- What each call keeps of the table, with the call among the past ones, the whole run keeps. -/
theorem table_kept {P : List (Node × Call) → String → Entry → Prop}
    (hcall : ∀ {log n} c, Ran log n → n.registry.contents.All (P log n.fingerprint) →
      (n.perform c).1.registry.contents.All (P ((n, c) :: log) n.fingerprint))
    (h : Ran log n) : n.registry.contents.All (P log n.fingerprint) := by
  induction h with
  | fresh hr _ _ =>
    rw [hr]
    intro id e he
    cases he
  | @call log n c hran ih =>
    rw [(n.perform_alike c).fingerprint]
    exact hcall c hran ih
  | hear x hran ih =>
    unfold Contents.All
    rw [(hran.reachable.sound.hear_kept x).1]
    exact ih
  | outside _ hr hf _ _ ih =>
    rw [hr, hf]
    exact ih

/-- **What drafted offers have and revisions keep, all own offers have.** -/
theorem upheld (h : Ran log n)
    (hcreate : ∀ m p o, (m, .create p) ∈ log → (m.draftOffer p).2 = .ok o → P (.opened o p.triggerPrice))
    (hedit : ∀ r v e e', Revised r v e e' → P e → P e') : n.registry.contents.All P := by
  -- of the drafts only those of the run up to the state at hand are known to have it
  have hkept := h.table_kept (P := fun log _ e =>
    (∀ m p o, (m, Call.create p) ∈ log → (m.draftOffer p).2 = .ok o → P (.opened o p.triggerPrice)) → P e) ?_
  · exact fun id e he => hkept id e he hcreate
  · intro log n c hran ih id e he hdrafts
    have hold : n.registry.contents.All P := fun id e he => ih id e he fun m p o hp => hdrafts m p o (.tail _ hp)
    exact hran.reachable.sound.perform_all hold (fun p o hp => hdrafts n p o (hp ▸ .head _)) hedit id e he

theorem entry (h : Ran log n) (hall : n.registry.contents.All P) {own : Own} (hown : own ∈ n.snapshotOwn) :
    P own.entry := h.reachable.sound.entry hall hown

theorem owned (h : Ran log n) : n.registry.contents.All (·.offer.payload.owner = n.fingerprint) := by
  refine h.table_kept (P := fun _ owner e => e.offer.payload.owner = owner) fun c hran ih => ?_
  refine hran.reachable.sound.perform_all ih (fun p o _ ho => ?_) fun r v e e' hrev he => hrev.owner.trans he
  obtain ⟨t, f, hd⟩ := draftOffer_drafted ho
  rw [hd.offer]
  rfl

theorem unedited (h : Ran log n) : n.registry.contents.editing = [] := by
  induction h with
  | fresh hr _ _ =>
    rw [hr]
    rfl
  | @call log n c hran ih =>
    rcases hran.reachable.sound.perform_kept c with ⟨_, s, _, hs, hm, _⟩ | ⟨_, _, _, hu⟩
    · rw [hm]
      exact change?_unedited hs ih
    · rw [hu.contents]
      exact ih
  | hear x hran ih => exact (hran.reachable.sound.hear_kept x).2.trans ih
  | outside _ hr _ _ _ ih =>
    rw [hr]
    exact ih

end Ran

end Node

end Tradepost
