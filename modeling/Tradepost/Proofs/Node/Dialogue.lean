import Tradepost.Proofs.Node.Edited
import Tradepost.Proofs.Node.Interleaving

/-!
# Calls against any registry

A registry need not report once on a command, nor at once: it may report late,
again, or one thing first and another afterwards, and on an old command while a
call waits for a new one. What counts is the first report on each command. An
edit lives by the first report on its start and the first on its publication,
and whatever else the registry has to say leaves it alone.
-/

namespace Tradepost

open Registry Node

structure Completion where
  command : Command
  result : Option Report := none

def Completion.complete (c : Completion) (x : Report) : Completion := { c with result := c.result.or (some x) }

inductive Turn where
  | report (place : Nat) (x : Report)
  | goOn (n : Node)

structure Dialogue where
  asked : List Completion
  progress : Progress

namespace Dialogue

def reached (asked : List Completion) : Progress → Dialogue
  | .finished x => { asked, progress := .finished x }
  | .waiting c s => { asked := asked ++ [{ command := c }], progress := .waiting c s }

def opening (n : Node) (c : Call) : Dialogue := reached [] (n.begin c).2

def turn (g : Dialogue) : Turn → Dialogue
  | .report place x => { g with asked := g.asked.modify place (·.complete x) }
  | .goOn n =>
    match g.progress, g.asked.getLast?.bind Completion.result with
    | .waiting _ s, some x => reached g.asked (n.resume s x)
    | _, _ => g

def run (g : Dialogue) (turns : List Turn) : Dialogue := turns.foldl turn g

def commands (g : Dialogue) : List Command := g.asked.map Completion.command

def result? (g : Dialogue) (place : Nat) : Option Report := g.asked[place]?.bind Completion.result

def heard (g : Dialogue) (place : Nat) : List Turn → List Report
  | [] => []
  | .report p x :: turns =>
    let rest := (g.turn (.report p x)).heard place turns
    if p = place ∧ p < g.asked.length then x :: rest else rest
  | .goOn n :: turns => (g.turn (.goOn n)).heard place turns

def first? (g : Dialogue) (place : Nat) (turns : List Turn) : Option Report := (g.heard place turns).head?

variable {g : Dialogue}

/-! ## The report that counts -/

theorem run_append (g : Dialogue) (as bs : List Turn) : g.run (as ++ bs) = (g.run as).run bs := List.foldl_append

theorem result?_reached (asked : List Completion) (p : Progress) (place : Nat) :
    (reached asked p).result? place = asked[place]?.bind Completion.result := by
  cases p with
  | finished x => rfl
  | waiting c s =>
    change (asked ++ [{ command := c }])[place]?.bind Completion.result = _
    by_cases h : place < asked.length
    · rw [List.getElem?_append_left h]
    · -- A command that was just issued has no report yet.
      have hn : ([{ command := c }] : List Completion)[place - asked.length]?.bind Completion.result = none := by
        cases place - asked.length <;> rfl
      rw [List.getElem?_append_right (Nat.le_of_not_lt h), hn, List.getElem?_eq_none (Nat.le_of_not_lt h)]
      rfl

theorem result?_goOn (g : Dialogue) (n : Node) (place : Nat) :
    (g.turn (.goOn n)).result? place = g.result? place := by
  unfold turn
  dsimp only
  split
  · exact result?_reached ..
  · rfl

theorem result?_report (g : Dialogue) (p place : Nat) (x : Report) :
    (g.turn (.report p x)).result? place =
      (g.result? place).or (if p = place ∧ p < g.asked.length then some x else none) := by
  simp only [turn, result?, List.getElem?_modify]
  by_cases hp : p = place
  · subst hp
    by_cases hl : p < g.asked.length
    · simp [hl, Completion.complete]
    · simp [hl]
  · simp [hp]

theorem result?_run (g : Dialogue) (place : Nat) (turns : List Turn) :
    (g.run turns).result? place = (g.result? place).or (g.first? place turns) := by
  induction turns generalizing g with
  | nil => simp [run, first?, heard]
  | cons v turns ih =>
    change ((g.turn v).run turns).result? place = _
    rw [ih]
    cases v with
    | report p x =>
      rw [result?_report, Option.or_assoc]
      congr 1
      unfold first?
      rw [heard]
      split <;> rfl
    | goOn n =>
      rw [result?_goOn]
      rfl

theorem result?_opening (n : Node) (c : Call) (place : Nat) : (opening n c).result? place = none := by
  rw [opening, result?_reached]
  rfl

theorem first?_opening (n : Node) (c : Call) (place : Nat) (turns : List Turn) :
    (opening n c).first? place turns = ((opening n c).run turns).result? place := by
  rw [result?_run, result?_opening, Option.none_or]

/-- Once there is a report that counts, another one changes nothing. -/
theorem turn_again {place : Nat} {x : Report} (h : g.result? place = some x) (y : Report) :
    g.turn (.report place y) = g := by
  have ha : g.asked.modify place (·.complete y) = g.asked := by
    apply List.ext_getElem?
    intro i
    rw [List.getElem?_modify]
    by_cases hi : place = i
    · subst hi
      unfold result? at h
      cases hc : g.asked[place]? with
      | none => rfl
      | some c =>
        rw [hc] at h
        obtain ⟨command, result⟩ := c
        obtain rfl : result = some x := h
        simp [Completion.complete]
    · simp [hi]
  change { g with asked := _ } = g
  rw [ha]

/-! ## Calls that wait for a report -/

theorem modify_snoc (asked : List Completion) (c : Completion) (place : Nat) (f : Completion → Completion) :
    (asked ++ [c]).modify place f =
      if place = asked.length then asked ++ [f c] else asked.modify place f ++ [c] := by
  induction asked generalizing place with
  | nil => cases place <;> simp [List.modify_succ_cons]
  | cons a asked ih =>
    cases place with
    | zero => rfl
    | succ place =>
      simp only [List.cons_append, List.modify_succ_cons, ih, List.length_cons, Nat.add_right_cancel_iff]
      split <;> rfl

variable {c : Command} {t : Session} {asked : List Completion}

theorem hear_earlier {place : Nat} (h : place ≠ asked.length) (x : Report) (n : Node) :
    ((reached asked (.waiting c t)).turn (.report place x)).turn (.goOn n) =
      reached (asked.modify place (·.complete x)) (.waiting c t) := by
  have hr : (reached asked (.waiting c t)).turn (.report place x) =
      reached (asked.modify place (·.complete x)) (.waiting c t) := by
    simp only [reached, turn, modify_snoc, if_neg h]
  rw [hr]
  simp [reached, turn]

theorem hear_awaited (asked : List Completion) (c : Command) (t : Session) (x : Report) (n : Node) :
    ((reached asked (.waiting c t)).turn (.report asked.length x)).turn (.goOn n) =
      reached (asked ++ [{ command := c, result := some x }]) (n.resume t x) := by
  simp [reached, turn, modify_snoc, Completion.complete]

def outcome? (g : Dialogue) : Option (Outcome Receipt) :=
  match g.progress with
  | .finished x => some x
  | .waiting _ _ => none

theorem outcome?_turn {x : Outcome Receipt} (h : g.outcome? = some x) (v : Turn) :
    (g.turn v).outcome? = some x := by
  cases v with
  | report place y => exact h
  | goOn n =>
    obtain ⟨asked, _ | ⟨c, t⟩⟩ := g
    · exact h
    · cases h

theorem outcome?_run {x : Outcome Receipt} (h : g.outcome? = some x) (turns : List Turn) :
    (g.run turns).outcome? = some x := by
  induction turns generalizing g with
  | nil => exact h
  | cons v turns ih => exact ih (outcome?_turn h v)

end Dialogue

/-! ## Desks that hear nothing at once -/

def Relay.silent : Relay :=
  { place := some .hold, editStart := some .hold, editPublish := some .hold, remove := some .hold }

structure Arrival where
  node : Node
  place : Nat
  report : Report

def Arrival.turns (a : Arrival) : List Turn := [.report a.place a.report, .goOn a.node]

namespace Desk

variable {d : Desk} {base ticket : Nat}

def listen (d : Desk) (base : Nat) : List Arrival → Option (Outcome Receipt)
  | [] => none
  | a :: rest =>
    match { d with node := a.node }.arrive (base + a.place) a.report with
    | (d, none) => d.listen base rest
    | (_, some (_, x)) => some x

structure Attends (d : Desk) (base ticket : Nat) (asked : List Completion) (c : Command) (s : Session) : Prop where
  relay : d.relay = .silent
  issued : d.issued = base + asked.length + 1
  waiting : d.waiting = [{ command := base + asked.length, ticket, session := s }]

theorem silent_holds (c : Command) : Relay.silent.disturbance? c = some .hold := by
  cases c <;> rfl

theorem carryOn_reached (d : Desk) (asked : List Completion) (hr : d.relay = .silent) (hw : d.waiting = [])
    (hi : d.issued = base + asked.length) (ticket : Nat) (p : Progress) :
    (d.carryOn ticket p).2 = (Dialogue.reached asked p).outcome? ∧
      ∀ c s, p = .waiting c s → (d.carryOn ticket p).1.Attends base ticket asked c s := by
  cases p with
  | finished x =>
    rw [carryOn_finished]
    exact ⟨rfl, nofun⟩
  | waiting c s =>
    rw [carryOn_held d (hr ▸ silent_holds c)]
    refine ⟨rfl, ?_⟩
    rintro _ _ ⟨⟩
    exact ⟨hr, congrArg (· + 1) hi, by simp [hw, hi]⟩

theorem Attends.arrive {asked : List Completion} {c : Command} {s : Session} (h : d.Attends base ticket asked c s)
    (n : Node) (place : Nat) (x : Report) :
    { d with node := n }.arrive (base + place) x =
      if place = asked.length then
        let (d, ended) := { d with node := n, waiting := [] }.carryOn ticket (n.resume s x)
        (d, ended.map (ticket, ·))
      else ({ d with node := n }, none) := by
  unfold Desk.arrive
  simp only [h.waiting]
  by_cases hp : place = asked.length
  · simp [hp]
  · simp [hp, Ne.symm hp]

/-- Reports that come to a desk one by one make a dialogue in which the call may go on after each of
them. -/
theorem listen_dialogue {asked : List Completion} {c : Command} {s : Session} (h : d.Attends base ticket asked c s)
    (arrivals : List Arrival) :
    d.listen base arrivals =
      ((Dialogue.reached asked (.waiting c s)).run (arrivals.flatMap Arrival.turns)).outcome? := by
  induction arrivals generalizing d asked c s with
  | nil => rfl
  | cons a arrivals ih =>
    obtain ⟨n, place, x⟩ := a
    rw [List.flatMap_cons, Dialogue.run_append]
    change _ = Dialogue.outcome? (Dialogue.run (Dialogue.turn (Dialogue.turn _ (.report place x)) (.goOn n)) _)
    rw [listen]
    dsimp only
    rw [h.arrive]
    by_cases hp : place = asked.length
    · subst hp
      rw [if_pos rfl, Dialogue.hear_awaited]
      let told := asked ++ [{ command := c, result := some x : Completion }]
      have hi : d.issued = base + told.length := by
        rw [List.length_append]
        exact h.issued
      obtain ⟨ho, ha⟩ := carryOn_reached { d with node := n, waiting := [] } told h.relay rfl hi ticket
        (n.resume s x)
      generalize Desk.carryOn { d with node := n, waiting := [] } ticket (n.resume s x) = e at ho ha ⊢
      obtain ⟨d', ended⟩ := e
      dsimp only at ho ha ⊢
      cases hp : n.resume s x with
      | finished y =>
        rw [hp] at ho
        obtain rfl : ended = some y := ho
        exact (Dialogue.outcome?_run rfl _).symm
      | waiting c' s' =>
        rw [hp] at ho
        obtain rfl : ended = none := ho
        exact ih (ha c' s' hp)
    · rw [if_neg hp, Dialogue.hear_earlier hp]
      dsimp only
      exact ih ⟨h.relay, by rw [List.length_modify]; exact h.issued, by rw [List.length_modify]; exact h.waiting⟩

/-- A call that a desk takes in ends just as the call does in that dialogue. -/
theorem start_dialogue (hr : d.relay = .silent) (hw : d.waiting = []) (ticket : Nat) (c : Call)
    (arrivals : List Arrival) :
    (d.start ticket c).2.or ((d.start ticket c).1.listen d.issued arrivals) =
      ((Dialogue.opening d.node c).run (arrivals.flatMap Arrival.turns)).outcome? := by
  unfold start Dialogue.opening
  obtain ⟨ho, ha⟩ := carryOn_reached { d with node := (d.node.begin c).1 } [] hr hw rfl ticket (d.node.begin c).2
  dsimp only
  rw [ho]
  cases hp : (d.node.begin c).2 with
  | finished x => exact (Dialogue.outcome?_run rfl _).symm
  | waiting c s =>
    rw [hp] at ha
    exact listen_dialogue (ha c s rfl) arrivals

end Desk

/-! ## Edits -/

namespace Dialogue

variable {g : Dialogue}

/-- How far an edit of the open offer `k` that is to publish the record `e` has come, and what it
has been told. -/
inductive Edits (k e : Nat) (t : Int) (s : OpenState) : Dialogue → Prop where
  | rejected (f : Failure) : Edits k e t s ⟨[], .finished (.error f)⟩
  | starting (x : Option Report) :
      Edits k e t s ⟨[⟨.editStart k, x⟩], .waiting (.editStart k) (.starting e t s)⟩
  | startRefused (m : String) :
      Edits k e t s ⟨[⟨.editStart k, some (.refused m)⟩], failed (.registry "edit start" m)⟩
  | publishing (x : Option String) (y : Option Report) :
      Edits k e t s
        ⟨[⟨.editStart k, some (.accepted x)⟩, ⟨.editPublish e t s, y⟩],
          .waiting (.editPublish e t s) (.publishing e)⟩
  | publishRefused (x : Option String) (m : String) :
      Edits k e t s
        ⟨[⟨.editStart k, some (.accepted x)⟩, ⟨.editPublish e t s, some (.refused m)⟩],
          failed (.registry "edit publish" m)⟩
  | published (x y : Option String) :
      Edits k e t s
        ⟨[⟨.editStart k, some (.accepted x)⟩, ⟨.editPublish e t s, some (.accepted y)⟩],
          .finished (.ok (.edited e))⟩

variable {k e : Nat} {t : Int} {s : OpenState}

theorem edits_opening (n : Node) (id : String) (r : EditRequest) :
    ∃ k e t s, Edits k e t s (opening n (.edit id r)) := by
  unfold opening
  cases ho : n.getMyOpenOffer id with
  | error f =>
    rw [begin_edit_unknown ho]
    exact ⟨0, 0, 0, .available, .rejected _⟩
  | ok own =>
    cases hp : planEdit own r with
    | error f =>
      rw [begin_edit_error ho hp]
      exact ⟨0, 0, 0, .available, .rejected _⟩
    | ok plan =>
      rw [begin_edit ho hp]
      exact ⟨_, _, _, _, .starting none⟩

theorem commands_opening {n : Node} {id : String} {r : EditRequest} {own : Own} {plan : Payload × Int × OpenState}
    (ho : n.getMyOpenOffer id = .ok own) (hp : planEdit own r = .ok plan) :
    (opening n (.edit id r)).commands = [.editStart own.number] := by
  unfold opening
  rw [begin_edit ho hp]
  rfl

theorem Edits.report (h : Edits k e t s g) (place : Nat) (x : Report) :
    Edits k e t s (g.turn (.report place x)) := by
  obtain _ | _ | p := place
  -- A report on the start, on the publication, and on nothing that is ever issued.
  · cases h with
    | rejected f => exact .rejected f
    | starting a => exact .starting _
    | startRefused m => exact .startRefused m
    | publishing a b => exact .publishing a b
    | publishRefused a m => exact .publishRefused a m
    | published a b => exact .published a b
  · cases h with
    | rejected f => exact .rejected f
    | starting a => exact .starting a
    | startRefused m => exact .startRefused m
    | publishing a b => exact .publishing a _
    | publishRefused a m => exact .publishRefused a m
    | published a b => exact .published a b
  · have hg : g.turn (.report (p + 2) x) = g := by
      cases h <;> simp [Dialogue.turn, List.modify_succ_cons]
    rw [hg]
    exact h

theorem Edits.goOn (h : Edits k e t s g) (n : Node) : Edits k e t s (g.turn (.goOn n)) := by
  cases h with
  | rejected f => exact .rejected f
  | starting x =>
    match x with
    | none => exact .starting none
    | some (.refused m) => exact .startRefused m
    | some (.accepted x) => exact .publishing x none
  | startRefused m => exact .startRefused m
  | publishing x y =>
    match y with
    | none => exact .publishing x none
    | some (.refused m) => exact .publishRefused x m
    | some (.accepted y) => exact .published x y
  | publishRefused x m => exact .publishRefused x m
  | published x y => exact .published x y

theorem Edits.run (h : Edits k e t s g) (turns : List Turn) : Edits k e t s (g.run turns) := by
  induction turns generalizing g with
  | nil => exact h
  | cons v turns ih =>
    cases v with
    | report place x => exact ih (h.report place x)
    | goOn n => exact ih (h.goOn n)

theorem Edits.commands_prefix (h : Edits k e t s g) : g.commands <+: [.editStart k, .editPublish e t s] := by
  cases h with
  | rejected f => exact List.nil_prefix
  | starting x => exact ⟨[.editPublish e t s], rfl⟩
  | startRefused m => exact ⟨[.editPublish e t s], rfl⟩
  | publishing x y => exact List.prefix_rfl
  | publishRefused x m => exact List.prefix_rfl
  | published x y => exact List.prefix_rfl

theorem Edits.of_issued (h : Edits k e t s g) (hc : .editPublish e t s ∈ g.commands) :
    ∃ x, g.result? 0 = some (.accepted x) := by
  cases h with
  | rejected f => cases hc
  | starting x => simp [commands] at hc
  | startRefused m => simp [commands] at hc
  | publishing x y => exact ⟨x, rfl⟩
  | publishRefused x m => exact ⟨x, rfl⟩
  | published x y => exact ⟨x, rfl⟩

theorem Edits.of_start_accepted (h : Edits k e t s g) {x : Option String} (hr : g.result? 0 = some (.accepted x))
    (n : Node) : .editPublish e t s ∈ (g.turn (.goOn n)).commands := by
  have hc : ∀ a b : Completion, b.command = .editPublish e t s →
      .editPublish e t s ∈ [a, b].map Completion.command :=
    fun a b hb => by simp [hb]
  cases h with
  | rejected f => cases hr
  | starting y =>
    obtain rfl : y = some (.accepted x) := hr
    exact hc _ _ rfl
  | startRefused m => cases hr
  | publishing y z => obtain _ | _ | z := z <;> exact hc _ _ rfl
  | publishRefused y m => exact hc _ _ rfl
  | published y z => exact hc _ _ rfl

theorem Edits.of_start_refused (h : Edits k e t s g) {m : String} (hr : g.result? 0 = some (.refused m))
    (n : Node) :
    (g.turn (.goOn n)).progress = failed (.registry "edit start" m) := by
  cases h with
  | starting x =>
    obtain rfl : x = some (.refused m) := hr
    rfl
  | startRefused m' =>
    cases hr
    rfl
  | _ => cases hr

theorem Edits.of_publish_accepted (h : Edits k e t s g) {x : Option String} (hr : g.result? 1 = some (.accepted x))
    (n : Node) : (g.turn (.goOn n)).progress = .finished (.ok (.edited e)) := by
  cases h with
  | publishing y z =>
    obtain rfl : z = some (.accepted x) := hr
    rfl
  | published y z => rfl
  | _ => cases hr

theorem Edits.of_publish_refused (h : Edits k e t s g) {m : String}
    (hr : g.result? 1 = some (.refused m)) (n : Node) :
    (g.turn (.goOn n)).progress = failed (.registry "edit publish" m) := by
  cases h with
  | publishing x y =>
    obtain rfl : y = some (.refused m) := hr
    rfl
  | publishRefused x m' =>
    cases hr
    rfl
  | _ => cases hr

theorem Edits.of_ok (h : Edits k e t s g) {x : Receipt} (hx : g.progress = .finished (.ok x)) :
    (∃ a, g.result? 0 = some (.accepted a)) ∧ ∃ b, g.result? 1 = some (.accepted b) := by
  cases h with
  | published a b => exact ⟨⟨a, rfl⟩, b, rfl⟩
  | _ => cases hx

structure TwoPhased (k e : Nat) (t : Int) (s : OpenState) (g : Dialogue) (turns : List Turn) : Prop where
  once : (g.run turns).commands <+: [.editStart k, .editPublish e t s]
  publish_after_start : .editPublish e t s ∈ (g.run turns).commands → ∃ x, g.first? 0 turns = some (.accepted x)
  start_accepted : ∀ x, g.first? 0 turns = some (.accepted x) →
    ∀ n, .editPublish e t s ∈ ((g.run turns).turn (.goOn n)).commands
  start_refused : ∀ m, g.first? 0 turns = some (.refused m) →
    ∀ n, ((g.run turns).turn (.goOn n)).progress = failed (.registry "edit start" m)
  publish_accepted : ∀ x, g.first? 1 turns = some (.accepted x) →
    ∀ n, ((g.run turns).turn (.goOn n)).progress = .finished (.ok (.edited e))
  publish_refused : ∀ m, g.first? 1 turns = some (.refused m) →
    ∀ n, ((g.run turns).turn (.goOn n)).progress = failed (.registry "edit publish" m)
  both_accepted : ∀ x, (g.run turns).progress = .finished (.ok x) →
    (∃ a, g.first? 0 turns = some (.accepted a)) ∧ ∃ b, g.first? 1 turns = some (.accepted b)
  first_only : ∀ place, (g.first? place turns).isSome →
    ∀ x later, g.run (turns ++ .report place x :: later) = g.run (turns ++ later)

/-- **An edit goes by the first report on each of its two commands.** One that can be carried out
asks for its start. Whatever a registry reports, when and how often, start and publication are asked
for at most once each and in this order, a refusal that comes first ends the edit with its phase and
its message, and only two first acceptances let it end well. -/
theorem edit_in_two_phases (n : Node) (id : String) (r : EditRequest) :
    (∀ own plan, n.getMyOpenOffer id = .ok own → planEdit own r = .ok plan →
        (opening n (.edit id r)).commands = [.editStart own.number]) ∧
      ∃ k e t s, ∀ turns, TwoPhased k e t s (opening n (.edit id r)) turns := by
  refine ⟨fun own plan ho hp => commands_opening ho hp, ?_⟩
  obtain ⟨k, e, t, s, h⟩ := edits_opening n id r
  refine ⟨k, e, t, s, fun turns => ?_⟩
  have hr := h.run turns
  have hf := fun place => first?_opening n (.edit id r) place turns
  constructor
  · exact hr.commands_prefix
  · intro hc
    rw [hf]
    exact hr.of_issued hc
  · intro x hx
    rw [hf] at hx
    exact hr.of_start_accepted hx
  · intro m hm
    rw [hf] at hm
    exact hr.of_start_refused hm
  · intro x hx
    rw [hf] at hx
    exact hr.of_publish_accepted hx
  · intro m hm
    rw [hf] at hm
    exact hr.of_publish_refused hm
  · intro x hx
    rw [hf, hf]
    exact hr.of_ok hx
  · intro place hp x later
    rw [hf] at hp
    obtain ⟨y, hy⟩ := Option.isSome_iff_exists.mp hp
    rw [run_append, run_append]
    change (((opening n (.edit id r)).run turns).turn (.report place x)).run later = _
    rw [turn_again hy]

def contradiction : List Turn :=
  [.report 0 (.accepted none), .report 0 (.refused "late"), .goOn twoOwn,
    .report 0 (.refused "again"), .goOn twoOwn, .report 1 (.accepted none)]

theorem edit_in_two_phases_contradiction :
    (opening twoOwn (.edit "own-1" followMarket)).commands = [.editStart 0] ∧
      ∃ e, (((opening twoOwn (.edit "own-1" followMarket)).run contradiction).turn (.goOn twoOwn)).progress =
        .finished (.ok (.edited e)) := by
  obtain ⟨hstart, k, e, t, s, h⟩ := edit_in_two_phases twoOwn "own-1" followMarket
  have hfirst : (opening twoOwn (.edit "own-1" followMarket)).first? 1 contradiction =
    some (.accepted none) := by decide
  exact ⟨hstart fixedOwn _ twoOwn_first rfl, e, (h contradiction).publish_accepted none hfirst twoOwn⟩

end Dialogue

end Tradepost
