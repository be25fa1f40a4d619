import Tradepost.Proofs.Registry.Phase

/-!
# Announcements during an edit

The start of an edit takes the offer out of the book, and a publication that
switches the offer off puts nothing back. But peers may announce the id in
between, as when an own offer comes back from the network, and a publication
removes nothing: what was announced during the edit stays in the book.
-/

namespace Tradepost.Registry

variable {r : Registry}

/-! ## Ids that are being edited -/

theorem about_other {c : Command} {id id' : String} (h : r.about? c = some id') (hne : id ≠ id') :
    r.about? c ≠ some id :=
  fun hid => hne (Option.some.inj (hid.symm.trans h))

/-- While an edit lasts no command moves the book entry of its offer, or succeeds for it. -/
theorem Effect.pending (h : r.Keyed) {c : Command} {r' : Registry} {x : Report} (e : Effect r c r' x) {id : String}
    (he : id ∈ r.editing) (he' : id ∈ r'.editing) :
    r'.book.get? id = r.book.get? id ∧ (r.about? c = some id → ∃ m, x = .refused m) := by
  cases e with
  | dangling _ | invalid _ _ | taken _ _ _ | unstartable _ _ | unstarted _ _ => exact ⟨rfl, fun _ => ⟨_, rfl⟩⟩
  | @placed n t o _ ho _ hk =>
    have hne : id ≠ o.id := fun hi => h.not_marked hk (hi ▸ he)
    refine ⟨?_, fun hid => absurd hid (about_other (idOf?_of_offer? ho) hne)⟩
    rw [book_placed, if_neg hne]
  | @withdrawn k k' id' _ hid' hm _ =>
    have hne : id ≠ id' := fun hi => hm (hi ▸ he)
    refine ⟨?_, fun hid => absurd hid (about_other (about_editStart hid') hne)⟩
    rw [book_withdrawn, if_neg hne]
  | @published n k t s id' _ hn _ _ =>
    have hne : id ≠ id' := (mem_unmarked.mp he').2
    refine ⟨?_, fun hid => absurd hid (about_other hn hne)⟩
    rw [book_published, if_neg fun hi => hne hi.2]
  | @absent n id' _ hn _ | @retired n _ id' _ hn _ =>
    have hne : id ≠ id' := (mem_unmarked.mp he').2
    refine ⟨?_, fun hid => absurd hid (about_other hn hne)⟩
    show (r.cleared id').book.get? id = _
    rw [book_cleared, if_neg hne]

theorem Effect.begun {c : Command} {r' : Registry} {x : Report} (e : Effect r c r' x) {id : String}
    (he : id ∉ r.editing) (he' : id ∈ r'.editing) :
    c.verb = .start ∧ r.about? c = some id ∧ (∃ y, x = .accepted y) ∧ r'.book.get? id = none := by
  cases e with
  | dangling _ | invalid _ _ | taken _ _ _ | unstartable _ _ | unstarted _ _ | placed _ _ _ => exact absurd he' he
  | @withdrawn k k' id' y hid _ _ =>
    obtain rfl : id = id' := (List.mem_cons.mp he').resolve_right he
    exact ⟨rfl, about_editStart hid, ⟨y, rfl⟩, by rw [book_withdrawn, if_pos rfl]⟩
  | published _ _ _ | absent _ _ | retired _ _ => exact absurd (mem_unmarked.mp he').1 he

/-! ## Announcements since a call -/

def Echoed (log : List Event) (id : String) (i : Nat) : Prop :=
  ∃ (j : Nat) (e : Event), i < j ∧ log[j]? = some e ∧ e.verb = .announce ∧ e.id = id

section

variable {log : List Event} {id : String} {i : Nat}

theorem echoed_snoc (hi : i < log.length) (e : Event) :
    Echoed (log ++ [e]) id i ↔ Echoed log id i ∨ (e.verb = .announce ∧ e.id = id) := by
  constructor
  · rintro ⟨j, e', hj, he, hv, hid⟩
    rcases getElem?_snoc he with he | ⟨_, rfl⟩
    · exact .inl ⟨j, e', hj, he, hv, hid⟩
    · exact .inr ⟨hv, hid⟩
  · rintro (⟨j, e', hj, he, hv, hid⟩ | ⟨hv, hid⟩)
    · refine ⟨j, e', hj, ?_, hv, hid⟩
      rw [List.getElem?_append_left (List.getElem?_eq_some_iff.mp he).1]
      exact he
    · exact ⟨log.length, e, hi, by simp, hv, hid⟩

theorem not_echoed_last (log : List Event) (e : Event) (id : String) : ¬ Echoed (log ++ [e]) id log.length := by
  rintro ⟨j, e', hj, he, _, _⟩
  have := index_le_of_snoc he
  omega

structure Underway (r : Registry) (log : List Event) (id : String) (i : Nat) : Prop where
  started : StartedAt log id i
  entry : (∃ m, r.book.get? id = some m) ↔ Echoed log id i

theorem Underway.quiet (h : Underway r log id i) {r' : Registry}
    (hb : r'.book.get? id = r.book.get? id) {e : Event} (hv : e.verb ≠ .announce) (ha : e.id = id → ¬ e.Accepted) :
    Underway r' (log ++ [e]) id i where
  started := h.started.snoc ha
  entry := by
    rw [hb, h.entry, echoed_snoc h.started.lt]
    exact ⟨.inl, fun x => x.resolve_right fun y => hv y.1⟩

theorem Underway.announce (h : Underway r log id i) {n : Nat} {o : Offer}
    (ho : r.offer? n = some o) {e : Event} (hv : e.verb = .announce) (hid : e.id = o.id) (hd : e.delivery = {}) :
    Underway (r.announce n) (log ++ [e]) id i where
  started := h.started.snoc fun _ ⟨x, hx⟩ => by simp [hd] at hx
  entry := by
    rw [echoed_snoc h.started.lt, book_announce ho, hid]
    by_cases hi : id = o.id
    · simp [hi, hv]
    · rw [if_neg hi, h.entry]
      exact ⟨.inl, fun x => x.resolve_right fun y => hi y.2.symm⟩

theorem Underway.run (h : Underway r log id i) (hk : r.Keyed) {c : Command}
    (he : id ∈ r.editing) (he' : id ∈ (r.run c).1.editing) :
    Underway (r.run c).1 (log ++ (r.event? (.command c)).toList) id i := by
  obtain ⟨hb, hrefused⟩ := (run_effect r c).pending hk he he'
  cases hev : r.event? (.command c) with
  | none =>
    rw [Option.toList_none, List.append_nil]
    exact ⟨h.started, by rw [hb, h.entry]⟩
  | some e =>
    obtain ⟨n, hn, _⟩ | ⟨c', o, hc, ho, hv, hp, hd⟩ := event?_verb hev
    · cases hn
    cases hc
    -- the command may be about this very id, but then it was refused
    refine h.quiet hb (hv ▸ by cases c <;> simp [Command.verb]) ?_
    rintro rfl ⟨y, hy⟩
    have hid : o.id = e.id := (congrArg Payload.id hp).symm
    obtain ⟨m, hm⟩ := hrefused (hid ▸ subject_id ho)
    simp [hd, hm] at hy

theorem underway_begun {c : Command} (he : id ∉ r.editing) (he' : id ∈ (r.run c).1.editing)
    (log : List Event) : Underway (r.run c).1 (log ++ (r.event? (.command c)).toList) id log.length := by
  obtain ⟨hv, hid, ⟨y, hy⟩, hb⟩ := (run_effect r c).begun he he'
  obtain ⟨e, hev, hve, rfl, hd⟩ := event?_command hid
  rw [hev, Option.toList_some]
  refine ⟨startedAt_last (hve.trans hv) ⟨y, by simp [hd, hy]⟩ log, ?_⟩
  rw [hb]
  exact iff_of_false (fun ⟨_, hm⟩ => nomatch hm) (not_echoed_last log e e.id)

def AllUnderway (r : Registry) (log : List Event) : Prop := ∀ id ∈ r.editing, ∃ i, Underway r log id i

theorem AllUnderway.act (h : AllUnderway r log) (hk : r.Keyed) (a : Action) :
    AllUnderway (r.act a) (log ++ (r.event? a).toList) := by
  cases a with
  | makeOffer o | makeOpenOffer o =>
    simp only [event?, Option.toList_none, List.append_nil]
    intro id he
    obtain ⟨i, hi⟩ := h id he
    exact ⟨i, hi.started, hi.entry⟩
  | announce n =>
    cases ho : r.offer? n with
    | none =>
      have hr : r.act (.announce n) = r := by rw [Registry.act, Registry.announce, ho]
      simpa [event?, ho, hr] using h
    | some o =>
      intro id he
      rw [Registry.act, announce_eq ho] at he
      obtain ⟨i, hi⟩ := h id he
      simp only [event?, ho, Option.map_some, Option.toList_some]
      exact ⟨i, hi.announce ho rfl rfl rfl⟩
  | command c =>
    intro id he'
    by_cases he : id ∈ r.editing
    · obtain ⟨i, hi⟩ := h id he
      exact ⟨i, hi.run hk he he'⟩
    · exact ⟨log.length, underway_begun he he' log⟩

theorem AllUnderway.after (h : AllUnderway r log) (hk : r.Keyed) (actions : List Action) :
    AllUnderway (r.after actions) (log ++ r.log actions) := by
  induction actions generalizing r log with
  | nil =>
    rw [Registry.log, List.append_nil]
    exact h
  | cons a rest ih =>
    rw [Registry.log, ← List.append_assoc]
    exact ih (h.act hk a) (hk.act a)

end

theorem allUnderway_empty : AllUnderway {} [] := by
  intro id he
  cases he

/-! ## Publications -/

theorem run_published {n : Nat} {t : Int} {s : OpenState} {r' : Registry} {x : Option String}
    (h : r.run (.editPublish n t s) = (r', .accepted x)) :
    ∃ o k, r.offer? n = some o ∧ o.id ∈ r.editing ∧ r' = r.published n k o.id t s := by
  have e := run_effect r (.editPublish n t s)
  rw [h] at e
  cases e with
  | @published _ k _ _ id _ hn he hk =>
    obtain ⟨o, ho, rfl⟩ := idOf?_eq_some.mp hn
    exact ⟨o, k, ho, he, rfl⟩

/-- **An edited offer is in the book if it is available or was announced meanwhile.** A publication
that succeeds ends an edit; it puts the edited record into the book if the offer is to be available,
and otherwise leaves there what was announced under the id since the edit began. -/
theorem book_after_publish (actions : List Action) {n : Nat} {t : Int} {s : OpenState} {r' : Registry}
    {x : Option String} (h : (after {} actions).run (.editPublish n t s) = (r', .accepted x)) :
    ∃ o i, (after {} actions).offer? n = some o ∧ StartedAt (log {} actions) o.id i ∧
      (s = .available → r'.book.get? o.id = some n) ∧
      ((∃ m, r'.book.get? o.id = some m) ↔ s = .available ∨ Echoed (log {} actions) o.id i) := by
  obtain ⟨o, k, ho, he, rfl⟩ := run_published h
  have hall : AllUnderway (after {} actions) (log {} actions) := allUnderway_empty.after keyed_empty actions
  obtain ⟨i, hi⟩ := hall o.id he
  refine ⟨o, i, ho, hi.started, fun hs => ?_, ?_⟩
  · rw [book_published, if_pos ⟨hs, rfl⟩]
  · rw [book_published, ← hi.entry]
    by_cases hs : s = .available <;> simp [hs]

def echoedEdit : List Action := [
  .makeOffer (Offer.small "me" "own-1"), .command (.place 0 0), .announce 0, .command (.editStart 0),
  .makeOffer (Offer.small "me" "own-1"), .announce 1, .makeOffer (Offer.small "me" "own-1")]

theorem book_after_publish_echoedEdit :
    ∃ i, StartedAt (log {} echoedEdit) "own-1" i ∧ Echoed (log {} echoedEdit) "own-1" i := by
  have h : (after {} echoedEdit).run (.editPublish 2 0 .deactivated) =
      (((after {} echoedEdit).run (.editPublish 2 0 .deactivated)).1, .accepted none) := Prod.ext rfl (by decide)
  obtain ⟨o, i, ho, hs, _, hentry⟩ := book_after_publish echoedEdit h
  obtain rfl : Offer.small "me" "own-1" = o := Option.some.inj ho
  exact ⟨i, hs, (hentry.mp ⟨1, by decide⟩).resolve_left (by decide)⟩

theorem echo_outlasts_publish :
    ∃ r', (after {} echoedEdit).run (.editPublish 2 0 .deactivated) = (r', .accepted none) ∧
      r'.idOf? 2 = some "own-1" ∧ r'.book.get? "own-1" = some 1 :=
  ⟨_, Prod.ext rfl (by decide), by decide, by decide⟩

end Tradepost.Registry
