import Mathlib.Data.List.InsertIdx
import Mathlib.Data.List.Nodup
import Mathlib.Data.List.Perm.Basic
import Tradepost.Proofs.Node.Interleaving

/-!
# Edits under way

Between its two parts an edit waits at the desk. If its start has been
accepted, it finds its offer as it was when the edit was planned: until it is
published nobody else can change the offer except by removing it, and a removed
offer never comes back under its id.
-/

namespace Tradepost

open Registry

/-! ## One of many -/

theorem find?_of_nodup {α β : Type} [DecidableEq β] {f : α → β} {l : List α} {i : Nat} {a : α}
    (hn : (l.map f).Nodup) (hi : l[i]? = some a) : l.find? (fun x => f x = f a) = some a := by
  induction l generalizing i with
  | nil => cases hi
  | cons b l ih =>
    rw [List.map_cons, List.nodup_cons] at hn
    cases i with
    | zero =>
      cases hi
      exact List.find?_cons_of_pos (by simp)
    | succ i =>
      have hne : f b ≠ f a := fun x => hn.1 (x ▸ List.mem_map_of_mem (List.mem_of_getElem? hi))
      rw [List.find?_cons_of_neg (by simpa using hne)]
      exact ih hn.2 hi

theorem filter_eq_eraseIdx {α β : Type} [DecidableEq β] {f : α → β} {l : List α} {i : Nat} {a : α}
    (hn : (l.map f).Nodup) (hi : l[i]? = some a) : l.filter (fun x => f x ≠ f a) = l.eraseIdx i := by
  induction l generalizing i with
  | nil => cases hi
  | cons b l ih =>
    rw [List.map_cons, List.nodup_cons] at hn
    cases i with
    | zero =>
      cases hi
      rw [List.filter_cons_of_neg (by simp), List.eraseIdx_cons_zero, List.filter_eq_self]
      intro x hx
      have hne : f x ≠ f a := fun h => hn.1 (h ▸ List.mem_map_of_mem hx)
      simpa using hne
    | succ i =>
      have hne : f b ≠ f a := fun x => hn.1 (x ▸ List.mem_map_of_mem (List.mem_of_getElem? hi))
      rw [List.filter_cons_of_pos (by simpa using hne), ih hn.2 hi, List.eraseIdx_cons_succ]

theorem mem_eraseIdx_of_ne {α : Type} {l : List α} {i : Nat} {a x : α} (hi : l[i]? = some a) (hx : x ∈ l)
    (hne : x ≠ a) : x ∈ l.eraseIdx i := by
  obtain ⟨j, hj⟩ := List.mem_iff_getElem?.mp hx
  refine List.mem_eraseIdx_iff_getElem?.mpr ⟨j, ?_, hj⟩
  rintro rfl
  exact hne (Option.some.inj (hj.symm.trans hi))

/-! ## The desk -/

structure Pending where
  command : Nat
  ticket : Nat
  task : Task
  id : String
  request : EditRequest
  edited : Nat
  trigger : Int
  state : OpenState
  report : Report

namespace Pending

def waiting (p : Pending) : Waiting :=
  { command := p.command, ticket := p.ticket, session := .starting p.edited p.trigger p.state }

def held (p : Pending) : Nat × Report := (p.command, p.report)

def Started (p : Pending) : Prop := ∃ x, p.report = .accepted x

end Pending

structure Queued (l : Loop) (ps : List Pending) : Prop where
  relay : l.desk.relay = .pausing
  waiting : l.desk.waiting = ps.map Pending.waiting
  held : l.desk.held = ps.map Pending.held
  apart : (ps.map Pending.command).Nodup
  issued : ∀ p ∈ ps, p.command < l.desk.issued
  tickets : ∀ p ∈ ps, l.taken[p.ticket]? = some p.task ∧ p.task.call = .edit p.id p.request
  account : l.taken.Perm (l.ended.map Prod.fst ++ ps.map Pending.task)

namespace Queued

variable {l : Loop} {ps : List Pending}

theorem idle (n : Node) : Queued (.idle n) [] where
  relay := rfl
  waiting := rfl
  held := rfl
  apart := .nil
  issued p hp := by cases hp
  tickets p hp := by cases hp
  account := .refl []

theorem take (h : Queued l ps) (t : Task) (d : Desk) (hr : d.relay = l.desk.relay) (hw : d.waiting = l.desk.waiting)
    (hh : d.held = l.desk.held) (hi : l.desk.issued ≤ d.issued) (x : Outcome Receipt) :
    Queued { desk := d, taken := l.taken ++ [t], ended := l.ended ++ [(t, x)] } ps where
  relay := hr.trans h.relay
  waiting := hw.trans h.waiting
  held := hh.trans h.held
  apart := h.apart
  issued p hp := Nat.lt_of_lt_of_le (h.issued p hp) hi
  tickets p hp := by
    obtain ⟨ht, hc⟩ := h.tickets p hp
    exact ⟨(List.getElem?_append_left (List.getElem?_eq_some_iff.mp ht).1).trans ht, hc⟩
  account := by
    rw [List.map_append, List.append_assoc]
    refine (h.account.append_right [t]).trans ?_
    rw [List.append_assoc]
    exact List.perm_append_comm.append_left _

theorem push (h : Queued l ps) {p : Pending} {d : Desk} (hr : d.relay = l.desk.relay)
    (hw : d.waiting = l.desk.waiting ++ [p.waiting]) (hh : d.held = l.desk.held ++ [p.held])
    (hi : d.issued = l.desk.issued + 1) (hc : p.command = l.desk.issued) (ht : p.ticket = l.taken.length)
    (hp : p.task.call = .edit p.id p.request) :
    Queued { l with desk := d, taken := l.taken ++ [p.task] } (ps ++ [p]) where
  relay := hr.trans h.relay
  waiting := by rw [hw, h.waiting, List.map_append]; rfl
  held := by rw [hh, h.held, List.map_append]; rfl
  apart := by
    rw [List.map_append, List.nodup_append]
    refine ⟨h.apart, List.nodup_singleton _, ?_⟩
    intro a ha b hb
    obtain ⟨q, hq, rfl⟩ := List.mem_map.mp ha
    rw [List.mem_singleton.mp hb, hc]
    exact Nat.ne_of_lt (h.issued q hq)
  issued q hq := by
    rw [hi]
    rcases List.mem_append.mp hq with hq | hq
    · exact Nat.lt_succ_of_lt (h.issued q hq)
    · rw [List.mem_singleton.mp hq, hc]
      exact Nat.lt_succ_self _
  tickets q hq := by
    rcases List.mem_append.mp hq with hq | hq
    · obtain ⟨ht, hc⟩ := h.tickets q hq
      exact ⟨(List.getElem?_append_left (List.getElem?_eq_some_iff.mp ht).1).trans ht, hc⟩
    · rw [List.mem_singleton.mp hq]
      exact ⟨by rw [ht, List.getElem?_append_right (Nat.le_refl _), Nat.sub_self]; rfl, hp⟩
  account := by
    rw [List.map_append, ← List.append_assoc]
    exact h.account.append_right [p.task]

theorem start (h : Queued l ps) {t : Task} {id : String} {r : EditRequest} (hc : t.call = .edit id r) {own : Own}
    {payload : Payload} {trigger : Int} {state : OpenState}
    (ho : (l.desk.node.supplied t).getMyOpenOffer id = .ok own)
    (hp : Node.planEdit own r = .ok (payload, trigger, state)) {r' : Registry} {x : Report}
    (hrun : (l.desk.node.registry.fileOffer (.edited payload)).1.run (.editStart own.number) = (r', x)) :
    ∃ d, l.move (.take t) = { l with desk := d, taken := l.taken ++ [t] } ∧
      d.node = ((l.desk.node.supplied t).fileEdited own.offer.currency payload).1.holding r' ∧
      Queued { l with desk := d, taken := l.taken ++ [t] } (ps ++ [
        ⟨l.desk.issued, l.taken.length, t, id, r, l.desk.node.registry.offers.nextNumber, trigger, state, x⟩]) := by
  have hs := Desk.start_edit { l.desk with node := l.desk.node.supplied t } h.relay ho hp hrun l.taken.length
  rw [← hc] at hs
  let p : Pending :=
    ⟨l.desk.issued, l.taken.length, t, id, r, l.desk.node.registry.offers.nextNumber, trigger, state, x⟩
  exact ⟨_, Loop.take_waits hs, rfl, h.push (p := p) rfl rfl rfl rfl rfl rfl hc⟩

def rest (l : Loop) (ps : List Pending) (i : Nat) : Desk :=
  { l.desk with waiting := (ps.eraseIdx i).map Pending.waiting, held := (ps.eraseIdx i).map Pending.held }

theorem drop (h : Queued l ps) {i : Nat} {p : Pending} (hp : ps[i]? = some p) (node : Node) {issued : Nat}
    (hi : l.desk.issued ≤ issued) (x : Outcome Receipt) :
    Queued { l with desk := { rest l ps i with node, issued }, ended := l.ended ++ [(p.task, x)] }
      (ps.eraseIdx i) where
  relay := h.relay
  waiting := rfl
  held := rfl
  apart := h.apart.sublist ((List.eraseIdx_sublist ps i).map _)
  issued p hp := Nat.lt_of_lt_of_le (h.issued p (List.mem_of_mem_eraseIdx hp)) hi
  tickets p hp := h.tickets p (List.mem_of_mem_eraseIdx hp)
  account := by
    obtain ⟨hlt, rfl⟩ := List.getElem?_eq_some_iff.mp hp
    rw [List.map_append, List.append_assoc]
    refine h.account.trans (List.Perm.append_left _ ?_)
    exact ((List.getElem_cons_eraseIdx_perm hlt).map Pending.task).symm

theorem release (h : Queued l ps) {i : Nat} {p : Pending} (hp : ps[i]? = some p) :
    l.desk.release i =
      let r := (rest l ps i).carryOn p.ticket (l.desk.node.resume (.starting p.edited p.trigger p.state) p.report)
      some (r.1, r.2.map (p.ticket, ·)) := by
  have hn : ((ps.map Pending.waiting).map Waiting.command).Nodup := by
    rw [List.map_map]
    exact h.apart
  have hw : (ps.map Pending.waiting)[i]? = some p.waiting := by rw [List.getElem?_map, hp]; rfl
  have hfind : l.desk.waiting.find? (fun w => w.command = p.command) = some p.waiting := by
    rw [h.waiting]
    exact find?_of_nodup hn hw
  have hfilter : l.desk.waiting.filter (fun w => w.command ≠ p.command) = (ps.eraseIdx i).map Pending.waiting := by
    rw [h.waiting, ← List.eraseIdx_map]
    exact filter_eq_eraseIdx hn hw
  have hheld : l.desk.held[i]? = some (p.command, p.report) := by rw [h.held, List.getElem?_map, hp]; rfl
  unfold Desk.release
  rw [hheld, Option.map_some]
  dsimp only
  unfold Desk.arrive
  dsimp only
  rw [hfind]
  dsimp only
  rw [hfilter, h.held, List.eraseIdx_map]
  rfl

theorem wake (h : Queued l ps) {i : Nat} {p : Pending} (hp : ps[i]? = some p) {d : Desk} {x : Outcome Receipt}
    (hd : (rest l ps i).carryOn p.ticket (l.desk.node.resume (.starting p.edited p.trigger p.state) p.report) =
      (d, some x)) : l.move (.wake i) = { l with desk := d, ended := l.ended ++ [(p.task, x)] } := by
  obtain ⟨ht, _⟩ := h.tickets p (List.mem_of_getElem? hp)
  unfold Loop.move
  dsimp only
  rw [h.release hp, hd]
  simp [Loop.goOn, Loop.finish, ht]

theorem wake_refused (h : Queued l ps) {i : Nat} {p : Pending} (hp : ps[i]? = some p) {message : String}
    (hr : p.report = .refused message) :
    l.move (.wake i) =
      { l with
        desk := rest l ps i
        ended := l.ended ++ [(p.task, .error (.service (.registry "edit start" message)))] } := by
  apply h.wake hp
  rw [hr]
  exact Desk.carryOn_finished ..

theorem wake_started (h : Queued l ps) {i : Nat} {p : Pending} (hp : ps[i]? = some p) (hs : p.Started) :
    l.move (.wake i) =
      let x := l.desk.node.settle (.waiting (.editPublish p.edited p.trigger p.state) (.publishing p.edited))
      { l with
        desk := { rest l ps i with node := x.1, issued := l.desk.issued + 1 }
        ended := l.ended ++ [(p.task, x.2)] } := by
  obtain ⟨x, hr⟩ := hs
  have hfree : (rest l ps i).relay.disturbance? (.editPublish p.edited p.trigger p.state) = none := by
    rw [rest, h.relay]
    rfl
  apply h.wake hp
  rw [hr]
  exact Desk.carryOn_last (rest l ps i) rfl hfree p.ticket

theorem wake_nobody (h : Queued l ps) {i : Nat} (hp : ps[i]? = none) : l.move (.wake i) = l := by
  have hheld : l.desk.held[i]? = none := by rw [h.held, List.getElem?_map, hp]; rfl
  unfold Loop.move Desk.release
  dsimp only
  rw [hheld]
  rfl

end Queued

/-! ## What an edit under way relies on -/

/-- An edit that has been started finds its offer as it was planned for, unless the offer has been
removed. -/
structure Pledged (r : Registry) (owner : String) (p : Pending) : Prop where
  known : r.idOf? p.edited = some p.id
  frozen : p.id ∈ r.contents.editing → ∃ e payload, r.contents.own? owner p.id = some e ∧
    e.plan p.request = .ok (payload, p.trigger, p.state) ∧ r.offer? p.edited = some (.edited payload)
  gone : p.id ∉ r.contents.editing → r.contents.table.get? p.id = none

namespace Pledged

variable {r r' : Registry} {owner : String} {p : Pending}

theorem moved (h : Pledged r owner p) (hk : ∀ o, r.offer? p.edited = some o → r'.offer? p.edited = some o)
    (ha : r.contents.Agree r'.contents p.id) : Pledged r' owner p where
  known := by
    obtain ⟨o, ho, hid⟩ := idOf?_eq_some.mp h.known
    exact idOf?_eq_some.mpr ⟨o, hk o ho, hid⟩
  frozen he := by
    obtain ⟨e, payload, hown, hplan, ho⟩ := h.frozen (ha.editing.mp he)
    exact ⟨e, payload, (Contents.own?_congr ha.table owner).trans hown, hplan, hk _ ho⟩
  gone he := ha.table.trans (h.gone fun x => he (ha.editing.mpr x))

theorem spared (h : Pledged r owner p) {id : String} (hs : Spares r r' id) (hne : p.id ≠ id)
    (ha : r.contents.Agree r'.contents p.id) : Pledged r' owner p := by
  refine h.moved (fun o ho => hs.offers ho ?_) ha
  rw [← Option.some.inj ((idOf?_of_offer? ho).symm.trans h.known)] at hne
  exact hne

theorem cleared (h : Pledged r owner p) (hs : Spares r r' p.id) (hc : r'.contents = r.contents.clear p.id) :
    Pledged r' owner p where
  known := hs.ids h.known
  frozen he := by
    rw [hc] at he
    exact absurd rfl (mem_unmarked.mp he).2
  gone _ := by rw [hc, Contents.clear, OrderedMap.get?_erase, if_pos rfl]

end Pledged

structure Pacts (r : Registry) (owner : String) (ps : List Pending) : Prop where
  pledged : ∀ p ∈ ps, p.Started → Pledged r owner p
  once : ps.Pairwise fun p q => p.Started → q.Started → p.id ≠ q.id
  marked : ∀ id ∈ r.contents.editing, ∃ p ∈ ps, p.Started ∧ p.id = id

namespace Pacts

variable {r r' : Registry} {owner : String} {ps : List Pending}

theorem untouched (h : Pacts r owner ps) (hu : Untouched r r') : Pacts r' owner ps where
  pledged p hp hs := (h.pledged p hp hs).moved (fun _ ho => hu.offers ho) (hu.contents ▸ ⟨rfl, Iff.rfl⟩)
  once := h.once
  marked := hu.contents ▸ h.marked

theorem placed (h : Pacts r owner ps) {id : String} {e : Entry} (hs : Spares r r' id)
    (hc : r'.contents = r.contents.place id e) (hne : ∀ p ∈ ps, p.Started → p.id ≠ id) : Pacts r' owner ps where
  pledged p hp hst := (h.pledged p hp hst).spared hs (hne p hp hst) (hc ▸ Contents.agree_place (hne p hp hst) e)
  once := h.once
  marked := hc ▸ h.marked

theorem cleared (h : Pacts r owner ps) {id : String} (hs : Spares r r' id)
    (hc : r'.contents = r.contents.clear id) :
    Pacts r' owner ps where
  pledged p hp hst := by
    by_cases hi : p.id = id
    · subst hi
      exact (h.pledged p hp hst).cleared hs hc
    · exact (h.pledged p hp hst).spared hs hi (hc ▸ Contents.agree_clear hi)
  once := h.once
  marked id' he := by
    rw [hc] at he
    exact h.marked id' (mem_unmarked.mp he).1

theorem refused (h : Pacts r owner ps) {p : Pending} (hp : ¬ p.Started) : Pacts r owner (ps ++ [p]) where
  pledged q hq hs := by
    rcases List.mem_append.mp hq with hq | hq
    · exact h.pledged q hq hs
    · exact absurd (List.mem_singleton.mp hq ▸ hs) hp
  once := by
    rw [List.pairwise_append]
    refine ⟨h.once, List.pairwise_singleton _ _, ?_⟩
    intro q _ q' hq' _ hs
    exact absurd (List.mem_singleton.mp hq' ▸ hs) hp
  marked id he := by
    obtain ⟨q, hq, hs, hid⟩ := h.marked id he
    exact ⟨q, List.mem_append_left _ hq, hs, hid⟩

theorem started (h : Pacts r owner ps) {p : Pending} (hs : Spares r r' p.id)
    (hc : r'.contents = r.contents.withdraw p.id) (hp : p.Started) (hpl : Pledged r' owner p)
    (hno : p.id ∉ r.contents.editing) (hin : r.contents.table.get? p.id ≠ none) : Pacts r' owner (ps ++ [p]) := by
  -- were another edit of the same offer under way, the offer would be marked or gone
  have hne : ∀ q ∈ ps, q.Started → q.id ≠ p.id := fun q hq hst hi =>
    hin (hi ▸ (h.pledged q hq hst).gone (hi ▸ hno))
  refine ⟨?_, ?_, ?_⟩
  · intro q hq hst
    rcases List.mem_append.mp hq with hq | hq
    · exact (h.pledged q hq hst).spared hs (hne q hq hst) (hc ▸ Contents.agree_withdraw (hne q hq hst))
    · exact List.mem_singleton.mp hq ▸ hpl
  · rw [List.pairwise_append]
    refine ⟨h.once, List.pairwise_singleton _ _, ?_⟩
    intro q hq q' hq' hst _
    exact List.mem_singleton.mp hq' ▸ hne q hq hst
  · intro id he
    rw [hc] at he
    rcases List.mem_cons.mp he with rfl | he
    · exact ⟨p, List.mem_append_right _ (List.mem_singleton_self p), hp, rfl⟩
    · obtain ⟨q, hq, hst, hid⟩ := h.marked id he
      exact ⟨q, List.mem_append_left _ hq, hst, hid⟩

theorem drop (h : Pacts r owner ps) {i : Nat} {p : Pending} (hi : ps[i]? = some p)
    (hno : p.Started → p.id ∉ r.contents.editing) : Pacts r owner (ps.eraseIdx i) where
  pledged q hq := h.pledged q (List.mem_of_mem_eraseIdx hq)
  once := h.once.sublist (List.eraseIdx_sublist ps i)
  marked id he := by
    obtain ⟨q, hq, hst, rfl⟩ := h.marked id he
    refine ⟨q, mem_eraseIdx_of_ne hi hq ?_, hst, rfl⟩
    rintro rfl
    exact hno hst he

theorem other (h : Pacts r owner ps) {i : Nat} {p q : Pending} (hi : ps[i]? = some p) (hp : p.Started)
    (hq : q ∈ ps.eraseIdx i) (hs : q.Started) : q.id ≠ p.id := by
  obtain ⟨j, hne, hj⟩ := List.mem_eraseIdx_iff_getElem?.mp hq
  obtain ⟨hilt, hi⟩ := List.getElem?_eq_some_iff.mp hi
  obtain ⟨hjlt, hj⟩ := List.getElem?_eq_some_iff.mp hj
  have honce := List.pairwise_iff_getElem.mp h.once
  rcases Nat.lt_or_gt_of_ne hne with hlt | hlt
  · exact hj ▸ hi ▸ honce j i hjlt hilt hlt (hj ▸ hs) (hi ▸ hp)
  · exact Ne.symm (hj ▸ hi ▸ honce i j hilt hjlt hlt (hi ▸ hp) (hj ▸ hs))

theorem published (h : Pacts r owner ps) {i : Nat} {p : Pending} {e : Entry} (hi : ps[i]? = some p) (hp : p.Started)
    (hs : Spares r r' p.id) (hc : r'.contents = r.contents.publish p.id e) : Pacts r' owner (ps.eraseIdx i) where
  pledged q hq hst :=
    have hne := h.other hi hp hq hst
    (h.pledged q (List.mem_of_mem_eraseIdx hq) hst).spared hs hne (hc ▸ Contents.agree_publish hne e)
  once := h.once.sublist (List.eraseIdx_sublist ps i)
  marked id he := by
    rw [hc] at he
    obtain ⟨he, hne⟩ := mem_unmarked.mp he
    obtain ⟨q, hq, hst, rfl⟩ := h.marked id he
    refine ⟨q, mem_eraseIdx_of_ne hi hq ?_, hst, rfl⟩
    rintro rfl
    exact hne rfl

end Pacts

end Tradepost
