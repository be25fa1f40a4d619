import Mathlib.Data.List.Induction
import Tradepost.Proofs.Registry.History

/-!
# The life of an offer id

To its callers the registry is one small machine per id: absent, live or being
edited. Replaying the calls about an id on that machine tells how each of them
was answered, whatever is done to other ids in between. So every publication
answers the one start before it.
-/

namespace Tradepost.Registry

inductive Phase where
  | absent
  | live
  | editing
deriving DecidableEq, Repr

/-- The phase an accepted call leads to; none if the call has to be refused. -/
def Phase.next? (p : Payload) : Verb → Phase → Option Phase
  | .place, .absent => if 0 < p.amount ∧ p.minAmount ≤ p.amount then some .live else none
  | .start, .live => some .editing
  | .publish, .editing => some .live
  | .remove, .live => some .absent
  | .remove, .editing => some .absent
  | _, _ => none

def Phase.step (s : Phase) (e : Event) : Phase := (s.next? e.payload e.verb).getD s

def replay (id : String) (log : List Event) : Phase := (log.filter (·.id = id)).foldl Phase.step .absent

def phase (r : Registry) (id : String) : Phase :=
  match r.table.get? id with
  | none => .absent
  | some _ => if id ∈ r.editing then .editing else .live

variable {r : Registry}

/-! ## One command -/

theorem phase_of_absent {id : String} (h : r.table.get? id = none) : r.phase id = .absent := by
  unfold phase; rw [h]

theorem phase_of_live {id : String} {k : Nat} (h : r.table.get? id = some k) (he : id ∉ r.editing) :
    r.phase id = .live := by
  unfold phase; rw [h]; exact if_neg he

theorem phase_of_editing {id : String} {k : Nat} (h : r.table.get? id = some k) (he : id ∈ r.editing) :
    r.phase id = .editing := by
  unfold phase; rw [h]; exact if_pos he

theorem phase_congr {r' : Registry} {id : String} (ht : r'.table.get? id = r.table.get? id)
    (he : id ∈ r'.editing ↔ id ∈ r.editing) : r'.phase id = r.phase id := by
  unfold phase
  rw [ht]
  cases r.table.get? id with
  | none => rfl
  | some k => by_cases h : id ∈ r.editing <;> simp [he, h]

theorem phase_placed (h : r.Keyed) {n : Nat} {id : String} (hid : r.table.get? id = none) (t : Int) (id' : String) :
    (r.placed n id t).phase id' = if id' = id then .live else r.phase id' := by
  split
  · rename_i hi
    subst hi
    exact phase_of_live (by rw [table_placed, if_pos rfl]) (h.not_marked hid)
  · rename_i hi
    exact phase_congr (by rw [table_placed, if_neg hi]) Iff.rfl

theorem phase_withdrawn {id : String} {k : Nat} (hk : r.table.get? id = some k) (id' : String) :
    (r.withdrawn id).phase id' = if id' = id then .editing else r.phase id' := by
  split
  · rename_i hi
    subst hi
    exact phase_of_editing (k := k) hk (List.mem_cons_self ..)
  · rename_i hi
    exact phase_congr rfl ⟨fun x => (List.mem_cons.mp x).resolve_left hi, List.mem_cons_of_mem _⟩

theorem phase_published {n k : Nat} {id : String} (hk : r.table.get? id = some k) (t : Int) (s : OpenState)
    (id' : String) : (r.published n k id t s).phase id' = if id' = id then .live else r.phase id' := by
  split
  · rename_i hi
    subst hi
    exact phase_of_live (k := k) hk fun x => (mem_unmarked.mp x).2 rfl
  · rename_i hi
    exact phase_congr rfl ⟨fun x => (mem_unmarked.mp x).1, fun x => mem_unmarked.mpr ⟨x, hi⟩⟩

theorem phase_cleared (id id' : String) : (r.cleared id).phase id' = if id' = id then .absent else r.phase id' := by
  split
  · rename_i hi
    subst hi
    exact phase_of_absent (by rw [table_cleared, if_pos rfl])
  · rename_i hi
    exact phase_congr (by rw [table_cleared, if_neg hi])
      ⟨fun x => (mem_unmarked.mp x).1, fun x => mem_unmarked.mpr ⟨x, hi⟩⟩

theorem amountsValid_iff {p : Payload} : amountsValid p = true ↔ 0 < p.amount ∧ p.minAmount ≤ p.amount := by
  simp [amountsValid]

theorem subject_id {c : Command} {o : Offer} (ho : (c.subject? r).bind r.offer? = some o) :
    r.about? c = some o.id := by
  obtain ⟨n, hn, hx⟩ := Option.bind_eq_some_iff.mp ho
  exact Option.bind_eq_some_iff.mpr ⟨n, hn, idOf?_of_offer? hx⟩

inductive Moved (r : Registry) (o : Offer) (v : Verb) (r' : Registry) : Report → Prop where
  | accepted {y : Option String} {s : Phase} : (r.phase o.id).next? o.payload v = some s →
      (∀ id, r'.phase id = if id = o.id then s else r.phase id) → Moved r o v r' (.accepted y)
  | refused {m : String} : (r.phase o.id).next? o.payload v = none → (∀ id, r'.phase id = r.phase id) →
      Moved r o v r' (.refused m)

section

variable {o : Offer} {r' : Registry} {x : Report}

theorem moved_place (h : r.Keyed) {n : Nat} {t : Int} (ho : r.offer? n = some o) (e : Effect r (.place n t) r' x) :
    Moved r o .place r' x := by
  cases e with
  | dangling hc => cases (idOf?_of_offer? ho).symm.trans hc
  | invalid hn hv =>
    obtain rfl := Option.some.inj (ho.symm.trans hn)
    refine .refused ?_ fun _ => rfl
    have hamounts : ¬ (0 < o.payload.amount ∧ o.payload.minAmount ≤ o.payload.amount) := by
      rw [← amountsValid_iff, hv]
      exact Bool.false_ne_true
    cases r.phase o.id <;> simp [Phase.next?, hamounts]
  | taken hn _ hk =>
    obtain rfl := Option.some.inj (ho.symm.trans hn)
    refine .refused ?_ fun _ => rfl
    by_cases he : o.id ∈ r.editing
    · rw [phase_of_editing hk he]
      rfl
    · rw [phase_of_live hk he]
      rfl
  | placed hn hv hk =>
    obtain rfl := Option.some.inj (ho.symm.trans hn)
    refine .accepted ?_ (phase_placed h hk t)
    rw [phase_of_absent hk]
    exact if_pos (amountsValid_iff.mp hv)

theorem moved_start {k : Nat} (hid : r.about? (.editStart k) = some o.id) (e : Effect r (.editStart k) r' x) :
    Moved r o .start r' x := by
  cases e with
  | dangling hc => cases hid.symm.trans hc
  | unstartable hk hw =>
    obtain rfl := Option.some.inj ((about_editStart hk).symm.trans hid)
    refine .refused ?_ fun _ => rfl
    cases hk' : r.table.get? o.id with
    | none => rw [phase_of_absent hk']; rfl
    | some k' => rw [phase_of_editing hk' (hw.resolve_right (by simp [hk']))]; rfl
  | withdrawn hk he hk' =>
    obtain rfl := Option.some.inj ((about_editStart hk).symm.trans hid)
    refine .accepted ?_ (phase_withdrawn hk')
    rw [phase_of_live hk' he]
    rfl

theorem moved_publish {n : Nat} {t : Int} {s : OpenState} (hid : r.idOf? n = some o.id)
    (e : Effect r (.editPublish n t s) r' x) : Moved r o .publish r' x := by
  cases e with
  | dangling hc => cases hid.symm.trans hc
  | unstarted hn hw =>
    obtain rfl := Option.some.inj (hn.symm.trans hid)
    refine .refused ?_ fun _ => rfl
    cases hk : r.table.get? o.id with
    | none => rw [phase_of_absent hk]; rfl
    | some k => rw [phase_of_live hk (hw.resolve_right (by simp [hk]))]; rfl
  | published hn he hk =>
    obtain rfl := Option.some.inj (hn.symm.trans hid)
    refine .accepted ?_ (phase_published hk t s)
    rw [phase_of_editing hk he]
    rfl

theorem moved_remove {n : Nat} (hid : r.idOf? n = some o.id) (e : Effect r (.remove n) r' x) :
    Moved r o .remove r' x := by
  cases e with
  | dangling hc => cases hid.symm.trans hc
  | absent hn hk =>
    obtain rfl := Option.some.inj (hn.symm.trans hid)
    refine .refused (by rw [phase_of_absent hk]; rfl) fun id => ?_
    rw [phase_cleared]
    split
    · rename_i hi
      rw [hi, phase_of_absent hk]
    · rfl
  | retired hn hk =>
    obtain rfl := Option.some.inj (hn.symm.trans hid)
    refine .accepted ?_ fun id => (phase_congr rfl Iff.rfl).trans (phase_cleared o.id id)
    by_cases he : o.id ∈ r.editing
    · rw [phase_of_editing hk he]
      rfl
    · rw [phase_of_live hk he]
      rfl

theorem Effect.moved (h : r.Keyed) {c : Command} (e : Effect r c r' x)
    (ho : (c.subject? r).bind r.offer? = some o) :
    Moved r o c.verb r' x := by
  have hid := subject_id ho
  cases c with
  | place n t => exact moved_place h ho e
  | editStart k => exact moved_start hid e
  | editPublish n t s => exact moved_publish hid e
  | remove n => exact moved_remove hid e

theorem Moved.accepted_iff {v : Verb} (h : Moved r o v r' x) :
    (∃ y, x = .accepted y) ↔ ((r.phase o.id).next? o.payload v).isSome = true := by
  cases h with
  | accepted hs _ => simp [hs]
  | refused hs _ => simp [hs]

theorem Moved.phase {v : Verb} (h : Moved r o v r' x) (id : String) :
    r'.phase id = if id = o.id then ((r.phase o.id).next? o.payload v).getD (r.phase o.id) else r.phase id := by
  cases h with
  | accepted hs hph => rw [hph, hs, Option.getD_some]
  | refused hs hph =>
    rw [hph, hs, Option.getD_none]
    split
    · rename_i hi
      rw [hi]
    · rfl

end

/-! ## Whole histories -/

/-- A command got one report, a success just when the machine of its id accepts it
after the calls before; an announcement gets none. -/
def Answered (before : List Event) (e : Event) : Prop :=
  if e.verb = .announce then e.delivery = {}
  else ∃ x, e.delivery = { now := [x] } ∧
    ((∃ y, x = .accepted y) ↔ ((replay e.id before).next? e.payload e.verb).isSome = true)

def Truthful (log : List Event) : Prop := ∀ before e rest, log = before ++ e :: rest → Answered before e

theorem replay_snoc (id : String) (log : List Event) (e : Event) :
    replay id (log ++ [e]) = if e.id = id then (replay id log).step e else replay id log := by
  unfold replay
  by_cases h : e.id = id <;> simp [List.filter_append, h]

theorem next?_announce (p : Payload) (s : Phase) : s.next? p .announce = none := by cases s <;> rfl

theorem step_announce {e : Event} (h : e.verb = .announce) (s : Phase) : s.step e = s := by
  rw [Phase.step, h, next?_announce]
  rfl

theorem Truthful.snoc {log : List Event} (h : Truthful log) {e : Event} (he : Answered log e) :
    Truthful (log ++ [e]) := by
  intro before e' rest hl
  rcases List.eq_nil_or_concat rest with rfl | ⟨rest', x, rfl⟩
  · obtain ⟨rfl, hx⟩ := List.append_inj' hl rfl
    cases hx
    exact he
  · rw [List.concat_eq_append, ← List.cons_append, ← List.append_assoc] at hl
    exact h before e' rest' (List.append_inj' hl rfl).1

theorem event?_verb {a : Action} {e : Event} (h : r.event? a = some e) :
    (∃ n, a = .announce n ∧ e.verb = .announce ∧ e.delivery = {}) ∨
      ∃ c o, a = .command c ∧ (c.subject? r).bind r.offer? = some o ∧ e.verb = c.verb ∧ e.payload = o.payload ∧
        e.delivery = { now := [(r.run c).2] } := by
  cases a with
  | makeOffer o => cases h
  | makeOpenOffer o => cases h
  | announce n =>
    obtain ⟨o, ho, rfl⟩ := Option.map_eq_some_iff.mp h
    exact .inl ⟨n, rfl, rfl, rfl⟩
  | command c =>
    obtain ⟨o, ho, rfl⟩ := Option.map_eq_some_iff.mp h
    exact .inr ⟨c, o, rfl, ho, rfl, rfl, by rw [issue_quiet]⟩

theorem phase_announce (n : Nat) (id : String) : (r.announce n).phase id = r.phase id := by
  unfold announce
  split
  · exact phase_congr rfl Iff.rfl
  · rfl

theorem phase_act_silent {a : Action} (ha : r.event? a = none) (id : String) :
    (r.act a).phase id = r.phase id := by
  cases a with
  | makeOffer o => exact phase_congr rfl Iff.rfl
  | makeOpenOffer o => exact phase_congr rfl Iff.rfl
  | announce n => exact phase_announce n id
  | command c =>
    have hc : (c.subject? r).bind r.offer? = none := by simpa [event?] using ha
    have hr : (r.run c).1 = r := by
      unfold run
      cases hs : c.subject? r with
      | none => rfl
      | some n =>
        rw [hs] at hc
        simp only [Option.bind_some] at hc ⊢
        rw [hc]
        rfl
    rw [act, hr]

/-- A registry and the calls it has taken: the machines stand where the registry does. -/
structure InStep (r : Registry) (log : List Event) : Prop where
  keyed : r.Keyed
  phase : ∀ id, r.phase id = replay id log
  truthful : Truthful log

theorem InStep.empty : InStep {} [] where
  keyed := keyed_empty
  phase _ := rfl
  truthful before e rest h := by simp at h

theorem InStep.call {log : List Event} (h : InStep r log) {c : Command} {o : Offer} {e : Event}
    (ho : (c.subject? r).bind r.offer? = some o) (hv : e.verb = c.verb) (hp : e.payload = o.payload)
    (hd : e.delivery = { now := [(r.run c).2] }) : InStep (r.run c).1 (log ++ [e]) := by
  have hid : e.id = o.id := congrArg Payload.id hp
  have hn : (replay e.id log).next? e.payload e.verb = (r.phase o.id).next? o.payload c.verb := by
    rw [hid, ← h.phase, hp, hv]
  have hne : e.verb ≠ .announce := hv ▸ by cases c <;> simp [Command.verb]
  have hmoved := (run_effect r c).moved h.keyed ho
  have hans : Answered log e := by
    rw [Answered, if_neg hne, hn]
    exact ⟨_, hd, hmoved.accepted_iff⟩
  refine ⟨h.keyed.run c, fun id => ?_, h.truthful.snoc hans⟩
  rw [replay_snoc, hid, hmoved.phase, ← h.phase]
  by_cases hi : o.id = id
  · rw [if_pos hi, if_pos hi.symm, Phase.step, hp, hv, hi]
  · rw [if_neg hi, if_neg (Ne.symm hi)]

theorem InStep.act {log : List Event} (h : InStep r log) (a : Action) :
    InStep (r.act a) (log ++ (r.event? a).toList) := by
  cases he : r.event? a with
  | none =>
    rw [Option.toList_none, List.append_nil]
    exact ⟨h.keyed.act a, fun id => (phase_act_silent he id).trans (h.phase id), h.truthful⟩
  | some e =>
    rw [Option.toList_some]
    rcases event?_verb he with ⟨n, rfl, hv, hd⟩ | ⟨c, o, rfl, ho, hv, hp, hd⟩
    · refine ⟨h.keyed.announce n, fun id => ?_, h.truthful.snoc (by rw [Answered, if_pos hv]; exact hd)⟩
      rw [replay_snoc, step_announce hv, ite_self]
      exact (phase_announce n id).trans (h.phase id)
    · exact h.call ho hv hp hd

theorem InStep.after {log : List Event} (h : InStep r log) (actions : List Action) :
    InStep (r.after actions) (log ++ r.log actions) := by
  induction actions generalizing r log with
  | nil =>
    rw [Registry.log, List.append_nil]
    exact h
  | cons a rest ih =>
    rw [Registry.log, ← List.append_assoc]
    exact ih (h.act a)

/-! ## Publications and starts -/

/-- The publication at `j` ends the edit that began at `i`: no call about the id succeeded in
between. -/
structure Answers (log : List Event) (i j : Nat) : Prop where
  lt : i < j
  calls : ∃ s p, log[i]? = some s ∧ log[j]? = some p ∧ s.id = p.id ∧ s.verb = .start ∧ s.Accepted ∧
    p.verb = .publish ∧ p.Accepted ∧ ∀ m e, i < m → m < j → log[m]? = some e → e.id = p.id → ¬ e.Accepted

theorem Answers.apart {log : List Event} {i j m : Nat} (h : Answers log i j) {e p : Event} (hp : log[j]? = some p)
    (he : log[m]? = some e) (hid : e.id = p.id) (ha : e.Accepted) : m ≤ i ∨ j ≤ m := by
  obtain ⟨_, _, p', _, hp', _, _, _, _, _, hq⟩ := h
  obtain rfl : p = p' := Option.some.inj (hp.symm.trans hp')
  by_contra hbetween
  exact hq m e (by omega) (by omega) he hid ha

theorem Answered.accepted {before : List Event} {e : Event} (h : Answered before e) :
    e.Accepted ↔ ((replay e.id before).next? e.payload e.verb).isSome = true := by
  unfold Answered at h
  split at h
  · rename_i hv
    simp [Event.Accepted, h, hv, next?_announce]
  · obtain ⟨x, hd, hx⟩ := h
    rw [← hx]
    simp [Event.Accepted, hd, eq_comm]

theorem next?_editing {p : Payload} {v : Verb} {s : Phase} (h : s.next? p v = some .editing) : v = .start := by
  cases v <;> cases s <;> simp_all [Phase.next?]

theorem getElem?_snoc {log : List Event} {e e' : Event} {m : Nat} (h : (log ++ [e])[m]? = some e') :
    log[m]? = some e' ∨ (m = log.length ∧ e' = e) := by
  rw [List.getElem?_append] at h
  split at h
  · exact .inl h
  · rename_i hm
    obtain ⟨hlt, he⟩ := List.getElem?_eq_some_iff.mp h
    simp only [List.length_singleton] at hlt
    exact .inr ⟨by omega, by simpa using he.symm⟩

theorem index_le_of_snoc {log : List Event} {e e' : Event} {m : Nat} (h : (log ++ [e])[m]? = some e') :
    m ≤ log.length := by
  have := (List.getElem?_eq_some_iff.mp h).1
  simp only [List.length_append, List.length_singleton] at this
  omega

def StartedAt (log : List Event) (id : String) (i : Nat) : Prop :=
  ∃ s, log[i]? = some s ∧ s.id = id ∧ s.verb = .start ∧ s.Accepted ∧
    ∀ (m : Nat) (e : Event), i < m → log[m]? = some e → e.id = id → ¬ e.Accepted

theorem StartedAt.snoc {log : List Event} {id : String} {i : Nat} (h : StartedAt log id i) {e : Event}
    (he : e.id = id → ¬ e.Accepted) : StartedAt (log ++ [e]) id i := by
  obtain ⟨s, hs, hid, hv, ha, hq⟩ := h
  refine ⟨s, ?_, hid, hv, ha, ?_⟩
  · rw [List.getElem?_append_left (List.getElem?_eq_some_iff.mp hs).1]
    exact hs
  · intro m e' hm hl hi
    rcases getElem?_snoc hl with hl | ⟨_, rfl⟩
    · exact hq m e' hm hl hi
    · exact he hi

theorem startedAt_last {e : Event} (hv : e.verb = .start) (ha : e.Accepted) (log : List Event) :
    StartedAt (log ++ [e]) e.id log.length := by
  refine ⟨e, by simp, rfl, hv, ha, ?_⟩
  intro m e' hm hl
  have := index_le_of_snoc hl
  omega

theorem StartedAt.lt {log : List Event} {id : String} {i : Nat} (h : StartedAt log id i) : i < log.length := by
  obtain ⟨s, hs, _⟩ := h
  exact (List.getElem?_eq_some_iff.mp hs).1

theorem Truthful.start {log rest : List Event} (h : Truthful (log ++ rest)) : Truthful log := by
  intro before e mid hl
  exact h before e (mid ++ rest) (by rw [hl, List.append_assoc, List.cons_append])

theorem Truthful.started {log : List Event} (h : Truthful log) {id : String} (he : replay id log = .editing) :
    ∃ i, StartedAt log id i := by
  induction log using List.reverseRecOn with
  | nil => cases he
  | append_singleton log e ih =>
    have hlog : Truthful log := h.start
    have ha := (h log e [] rfl).accepted
    rw [replay_snoc] at he
    by_cases hi : e.id = id
    · rw [if_pos hi, Phase.step] at he
      rw [hi] at ha
      cases hn : (replay id log).next? e.payload e.verb with
      | none =>
        -- the last call was refused, so the start is further back
        rw [hn] at he ha
        obtain ⟨i, hs⟩ := ih hlog he
        exact ⟨i, hs.snoc fun _ => by simp [ha]⟩
      | some s =>
        rw [hn] at he ha
        obtain rfl : s = .editing := he
        -- the last call is itself the start, and none comes after it
        exact ⟨log.length, hi ▸ startedAt_last (next?_editing hn) (ha.mpr rfl) log⟩
    · rw [if_neg hi] at he
      obtain ⟨i, hs⟩ := ih hlog he
      exact ⟨i, hs.snoc fun x => absurd x hi⟩

theorem next?_publish {p : Payload} {s : Phase} (h : (s.next? p .publish).isSome = true) : s = .editing := by
  cases s with
  | editing => rfl
  | absent => cases h
  | live => cases h

theorem Truthful.answers {log : List Event} (h : Truthful log) {j : Nat} {p : Event} (hp : log[j]? = some p)
    (hv : p.verb = .publish) (ha : p.Accepted) : ∃ i, Answers log i j := by
  obtain ⟨hj, hpj⟩ := List.getElem?_eq_some_iff.mp hp
  have hl : log = log.take j ++ p :: log.drop (j + 1) := by
    rw [← hpj, ← List.drop_eq_getElem_cons hj, List.take_append_drop]
  have hn := (h _ _ _ hl).accepted.mp ha
  rw [hv] at hn
  have hwhole : Truthful (log.take j ++ p :: log.drop (j + 1)) := hl ▸ h
  obtain ⟨i, hstart⟩ := hwhole.start.started (next?_publish hn)
  have hi : i < j := by
    have := hstart.lt
    rw [List.length_take] at this
    omega
  obtain ⟨s, hs, hid, hsv, hsa, hq⟩ := hstart
  have hm : ∀ {m : Nat}, m < j → (log.take j)[m]? = log[m]? := fun hm => by rw [List.getElem?_take, if_pos hm]
  rw [hm hi] at hs
  refine ⟨i, hi, s, p, hs, hp, hid, hsv, hsa, hv, ha, ?_⟩
  intro m e him hmj he
  exact hq m e him (by rw [hm hmj]; exact he)

/-- A removal before a publication is a removal before the start it answers. -/
theorem Answers.removed {log : List Event} {i j : Nat} (h : Answers log i j) {k : Nat} {e p : Event} (hk : k < j)
    (he : log[k]? = some e) (hv : e.verb = .remove) (ha : e.Accepted) (hp : log[j]? = some p) (hid : e.id = p.id) :
    k < i := by
  have ⟨_, s, _, hs, _, _, hsv, _⟩ := h
  refine Nat.lt_of_le_of_ne ((h.apart hp he hid ha).resolve_right (Nat.not_le.mpr hk)) ?_
  rintro rfl
  obtain rfl : e = s := Option.some.inj (he.symm.trans hs)
  cases hv.symm.trans hsv

end Tradepost.Registry
