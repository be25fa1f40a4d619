import Tradepost.Node.Desk
import Tradepost.Proofs.Node.Perform

/-!
# Tasks of one event loop

An event loop takes tasks in and lets them wait. Only the report on the start
of an edit is held back, so that an edit falls into two parts, everything up to
its start and its publication, and any other call is run in one. Which of the
waiting tasks goes on next, and when another task is taken in, is open.
-/

namespace Tradepost

open Registry

structure Task where
  call : Call
  id : String := ""
  time : Int := 0
deriving Repr

namespace Node

def supplied (n : Node) (t : Task) : Node := { n with ids := { n.ids with supply := [t.id] }, clock := t.time }

def serve (n : Node) (t : Task) : Node × Outcome Receipt := (n.supplied t).perform t.call

/-- Runs tasks one after the other as long as they succeed. -/
def serially (n : Node) : List Task → Outcome Node
  | [] => .ok n
  | t :: rest =>
    match n.serve t with
    | (m, .ok _) => m.serially rest
    | (_, .error e) => .error e

theorem serially_append {n m : Node} {as : List Task} (h : n.serially as = .ok m) (bs : List Task) :
    n.serially (as ++ bs) = m.serially bs := by
  induction as generalizing n with
  | nil =>
    cases h
    rfl
  | cons t as ih =>
    rw [List.cons_append, serially]
    rw [serially] at h
    split at h
    · exact ih h
    · cases h

end Node

def Relay.pausing : Relay := { editStart := some .hold }

inductive Move where
  | take (t : Task)
  | wake (place : Nat)
deriving Repr

def Move.task? : Move → Option Task
  | .take t => some t
  | .wake _ => none

def Move.drawn : Move → Option String
  | .take { call := .create _, id, .. } => some id
  | _ => none

structure Loop where
  desk : Desk
  taken : List Task := []
  ended : List (Task × Outcome Receipt) := []

/-! ## Desks that pause -/

namespace Desk

variable {d : Desk}

def ran (d : Desk) (c : Command) : Desk :=
  { d with node := d.node.holding (d.node.registry.run c).1, issued := d.issued + 1 }

theorem carryOn_finished (ticket : Nat) (x : Outcome Receipt) : d.carryOn ticket (.finished x) = (d, some x) := by
  rw [carryOn]

theorem issue_undisturbed {c : Command} (h : d.relay.disturbance? c = none) :
    d.issue c = (d.ran c, [(d.node.registry.run c).2]) := by
  unfold issue Relay.issue ran
  rw [h]
  simp only [Relay.aftermath, Relay.deliver, List.map_nil, List.append_nil]
  rfl

theorem carryOn_undisturbed {c : Command} (h : d.relay.disturbance? c = none) (ticket : Nat) (s : Session) :
    d.carryOn ticket (.waiting c s) =
      (d.ran c).carryOn ticket ((d.ran c).node.resume s (d.node.registry.run c).2) := by
  rw [carryOn]
  split
  · rename_i d' report _ hi
    rw [issue_undisturbed h] at hi
    cases hi
    rfl
  · rename_i d' hi
    rw [issue_undisturbed h] at hi
    cases hi

theorem carryOn_held (d : Desk) {c : Command} (h : d.relay.disturbance? c = some .hold) (ticket : Nat)
    (s : Session) :
    d.carryOn ticket (.waiting c s) =
      ({ d.ran c with
          held := d.held ++ [(d.issued, (d.node.registry.run c).2)]
          waiting := d.waiting ++ [{ command := d.issued, ticket, session := s }] }, none) := by
  have hi : d.issue c = ({ d.ran c with held := d.held ++ [(d.issued, (d.node.registry.run c).2)] }, []) := by
    unfold issue Relay.issue ran
    rw [h]
    simp only [Relay.aftermath, Relay.deliver, List.map_cons, List.map_nil]
    rfl
  rw [carryOn]
  split
  · rename_i hi'
    rw [hi] at hi'
    cases hi'
  · rename_i hi'
    rw [hi] at hi'
    cases hi'
    rfl

theorem resume_last {s : Session} (hs : s.waits = 1) (n : Node) (x : Report) : ∃ y, n.resume s x = .finished y := by
  cases x with
  | refused m => exact ⟨_, rfl⟩
  | accepted m =>
    cases s with
    | placing k =>
      unfold Node.resume
      dsimp only
      split <;> exact ⟨_, rfl⟩
    | starting k t s => cases hs
    | publishing k => exact ⟨_, rfl⟩
    | removing => exact ⟨_, rfl⟩

theorem carryOn_last (d : Desk) {c : Command} {s : Session} (hs : s.waits = 1) (h : d.relay.disturbance? c = none)
    (ticket : Nat) : d.carryOn ticket (.waiting c s) =
      ({ d with node := (d.node.settle (.waiting c s)).1, issued := d.issued + 1 },
        some (d.node.settle (.waiting c s)).2) := by
  obtain ⟨y, hy⟩ := resume_last hs (d.ran c).node (d.node.registry.run c).2
  rw [carryOn_undisturbed h, hy, carryOn_finished, Node.settle_waiting]
  change _ = ({ d with
      node := ((d.ran c).node.settle ((d.ran c).node.resume s (d.node.registry.run c).2)).1,
      issued := d.issued + 1 },
    some ((d.ran c).node.settle ((d.ran c).node.resume s (d.node.registry.run c).2)).2)
  rw [hy, Node.settle_finished]
  rfl

theorem start_at_once (d : Desk) (hr : d.relay = .pausing) {c : Call} (hc : ∀ id r, c ≠ .edit id r) (ticket : Nat) :
    ∃ issued, d.issued ≤ issued ∧
      d.start ticket c = ({ d with node := (d.node.perform c).1, issued }, some (d.node.perform c).2) := by
  unfold start Node.perform
  have hrun : ∀ n c s, s.waits = 1 → Relay.pausing.disturbance? c = none →
      { d with node := n }.carryOn ticket (.waiting c s) =
        ({ d with node := (n.settle (.waiting c s)).1, issued := d.issued + 1 },
          some (n.settle (.waiting c s)).2) :=
    fun n c s hs h => carryOn_last { d with node := n } hs (hr ▸ h) ticket
  cases c with
  | create p =>
    cases hd : (d.node.draftOffer p).2 with
    | error e =>
      rw [Node.begin_create_error hd]
      dsimp only
      rw [Node.settle_finished]
      exact ⟨d.issued, Nat.le_refl _, carryOn_finished ..⟩
    | ok o =>
      rw [Node.begin_create hd]
      exact ⟨d.issued + 1, Nat.le_succ _, hrun _ _ _ rfl rfl⟩
  | edit id r => exact absurd rfl (hc id r)
  | cancel id =>
    cases ho : d.node.getMyOffer id with
    | error e =>
      rw [Node.begin_cancel_unknown ho, Node.failed]
      dsimp only
      rw [Node.settle_finished]
      exact ⟨d.issued, Nat.le_refl _, carryOn_finished ..⟩
    | ok own =>
      rw [Node.begin_cancel ho]
      exact ⟨d.issued + 1, Nat.le_succ _, hrun _ _ _ rfl rfl⟩

theorem start_finished (d : Desk) {c : Call} {n : Node} {x : Outcome Receipt}
    (h : d.node.begin c = (n, .finished x))
    (ticket : Nat) : d.start ticket c = ({ d with node := n }, some x) := by
  unfold start
  rw [h]
  exact carryOn_finished ..

theorem start_edit (d : Desk) (hr : d.relay = .pausing)
    {id : String} {r : EditRequest} {own : Own} {edited : Payload}
    {trigger : Int} {state : OpenState} (ho : d.node.getMyOpenOffer id = .ok own)
    (hp : Node.planEdit own r = .ok (edited, trigger, state)) {r' : Registry} {x : Report}
    (hrun : (d.node.registry.fileOffer (.edited edited)).1.run (.editStart own.number) = (r', x)) (ticket : Nat) :
    d.start ticket (.edit id r) =
      ({ d with
          node := (d.node.fileEdited own.offer.currency edited).1.holding r'
          issued := d.issued + 1
          held := d.held ++ [(d.issued, x)]
          waiting := d.waiting ++ [{
            command := d.issued, ticket, session := .starting d.node.registry.offers.nextNumber trigger state }] },
        none) := by
  unfold start
  rw [Node.begin_edit ho hp]
  have hheld : d.relay.disturbance? (.editStart own.number) = some .hold := by rw [hr]; rfl
  have h := carryOn_held { d with node := (d.node.fileEdited own.offer.currency edited).1 } hheld ticket
    (.starting d.node.registry.offers.nextNumber trigger state)
  have hx : (d.node.fileEdited own.offer.currency edited).1.registry.run (.editStart own.number) = (r', x) := hrun
  dsimp only at h ⊢
  rw [h, ran, hx]

end Desk

namespace Loop

def idle (n : Node) : Loop := { desk := { node := n, relay := .pausing } }

def finish (l : Loop) (ticket : Nat) (x : Outcome Receipt) : Loop :=
  { l with ended := l.ended ++ (l.taken[ticket]?.map (·, x)).toList }

def goOn (l : Loop) : Desk × Option (Nat × Outcome Receipt) → Loop
  | (desk, none) => { l with desk }
  | (desk, some (ticket, x)) => { l with desk }.finish ticket x

def move (l : Loop) : Move → Loop
  | .take t =>
    let (desk, ended) := { l.desk with node := l.desk.node.supplied t }.start l.taken.length t.call
    { l with taken := l.taken ++ [t] }.goOn (desk, ended.map (l.taken.length, ·))
  | .wake place =>
    match l.desk.release place with
    | none => l
    | some x => l.goOn x

def run (l : Loop) (moves : List Move) : Loop := moves.foldl move l

def succeeded (l : Loop) : List Task := (l.ended.filter (·.2.isOk)).map Prod.fst

theorem taken_goOn (l : Loop) (x : Desk × Option (Nat × Outcome Receipt)) : (l.goOn x).taken = l.taken := by
  obtain ⟨d, x⟩ := x
  cases x <;> rfl

theorem taken_move (l : Loop) (v : Move) : (l.move v).taken = l.taken ++ v.task?.toList := by
  cases v with
  | take t => exact taken_goOn ..
  | wake i =>
    unfold move
    dsimp only
    split
    · simp [Move.task?]
    · rw [taken_goOn]
      simp [Move.task?]

theorem taken_run (l : Loop) (moves : List Move) : (l.run moves).taken = l.taken ++ moves.filterMap Move.task? := by
  induction moves generalizing l with
  | nil => simp [run]
  | cons v moves ih =>
    change ((l.move v).run moves).taken = _
    rw [ih, taken_move, List.append_assoc, List.filterMap_cons]
    cases v.task? <;> rfl

theorem succeeded_ok (l : Loop) (d : Desk) (ts : List Task) (t : Task) (x : Receipt) :
    ({ desk := d, taken := ts, ended := l.ended ++ [(t, .ok x)] } : Loop).succeeded = l.succeeded ++ [t] := by
  simp [succeeded, List.filter_append, Except.isOk, Except.toBool]

theorem succeeded_error (l : Loop) (d : Desk) (ts : List Task) (t : Task) (e : Failure) :
    ({ desk := d, taken := ts, ended := l.ended ++ [(t, .error e)] } : Loop).succeeded = l.succeeded := by
  simp [succeeded, List.filter_append, Except.isOk, Except.toBool]

theorem take_ended {l : Loop} {t : Task} {d : Desk} {x : Outcome Receipt}
    (h : { l.desk with node := l.desk.node.supplied t }.start l.taken.length t.call = (d, some x)) :
    l.move (.take t) = { desk := d, taken := l.taken ++ [t], ended := l.ended ++ [(t, x)] } := by
  unfold move
  dsimp only
  rw [h]
  simp [goOn, finish]

theorem take_waits {l : Loop} {t : Task} {d : Desk}
    (h : { l.desk with node := l.desk.node.supplied t }.start l.taken.length t.call = (d, none)) :
    l.move (.take t) = { l with desk := d, taken := l.taken ++ [t] } := by
  unfold move
  dsimp only
  rw [h]
  rfl

theorem take_at_once (l : Loop) (hr : l.desk.relay = .pausing) (t : Task) (hc : ∀ id r, t.call ≠ .edit id r) :
    ∃ issued, l.desk.issued ≤ issued ∧
      l.move (.take t) =
        { desk := { l.desk with node := (l.desk.node.serve t).1, issued }
          taken := l.taken ++ [t]
          ended := l.ended ++ [(t, (l.desk.node.serve t).2)] } := by
  obtain ⟨issued, hi, hs⟩ :=
    Desk.start_at_once { l.desk with node := l.desk.node.supplied t } hr hc l.taken.length
  exact ⟨issued, hi, take_ended hs⟩

end Loop

end Tradepost
