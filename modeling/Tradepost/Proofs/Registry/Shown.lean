import Tradepost.Proofs.Registry.History

/-!
# What the book shows of own offers

An open offer is in the book exactly while it is available and not being
edited, and then the book holds the very record the open offer shows. This
holds through every history in which no peer announces an id that is placed.
-/

namespace Tradepost.Registry

variable {r : Registry}

structure Shown (r : Registry) : Prop extends Keyed r where
  hidden : ∀ {id}, id ∈ r.editing → r.book.get? id = none
  listed : ∀ {id k t}, r.table.get? id = some k → r.openOffer? k = some t → id ∉ r.editing →
    r.book.get? id = if t.state = .available then some t.offer else none

theorem shown_empty : Shown {} where
  toKeyed := keyed_empty
  hidden h := by cases h
  listed h := by cases h

theorem Shown.announce (h : r.Shown) {n : Nat} {o : Offer} (ho : r.offer? n = some o)
    (hid : r.table.get? o.id = none) : (r.announce n).Shown where
  toKeyed := h.toKeyed.announce n
  hidden {id} he := by
    rw [book_announce ho]
    rw [announce_eq ho] at he
    have hne : id ≠ o.id := fun x => h.not_marked hid (x ▸ he)
    rw [if_neg hne]
    exact h.hidden he
  listed {id k t} hk ht he := by
    rw [book_announce ho]
    rw [announce_eq ho] at hk ht he
    have hne : id ≠ o.id := by
      rintro rfl
      cases hid.symm.trans hk
    rw [if_neg hne]
    exact h.listed hk ht he

theorem Shown.placed (h : r.Shown) {n : Nat} {id : String} (hn : r.idOf? n = some id)
    (hid : r.table.get? id = none) (t : Int) : (r.placed n id t).Shown where
  toKeyed := h.toKeyed.placed hn t
  hidden {id'} he := by
    have hne : id' ≠ id := fun x => h.not_marked hid (x ▸ he)
    rw [book_placed, if_neg hne]
    exact h.hidden he
  listed {id' k x} hk hx he := by
    rw [book_placed]
    rw [table_placed] at hk
    rw [openOffer?_placed] at hx
    by_cases hi : id' = id
    · simp only [hi, ite_true, Option.some.injEq] at hk ⊢
      simp only [hk, ite_true, Option.some.injEq] at hx
      subst hx
      rfl
    · simp only [hi, ite_false] at hk ⊢
      obtain ⟨y, hy, _⟩ := openIdOf?_eq_some.mp (h.table hk)
      rw [if_neg (Nat.ne_of_lt (Ledger.lt_of_get? hy))] at hx
      exact h.listed hk hx he

theorem Shown.withdrawn (h : r.Shown) {id : String} {k : Nat} (hk : r.table.get? id = some k) :
    (r.withdrawn id).Shown where
  toKeyed := h.toKeyed.withdrawn hk
  hidden {id'} he := by
    rw [book_withdrawn]
    split
    · rfl
    · rename_i hi
      exact h.hidden ((List.mem_cons.mp he).resolve_left hi)
  listed {id' k' x} hk' hx he := by
    obtain ⟨hi, he⟩ := not_or.mp (fun y => he (List.mem_cons.mpr y))
    rw [book_withdrawn, if_neg hi]
    exact h.listed hk' hx he

theorem Shown.published (h : r.Shown) {n k : Nat} {id : String} (hn : r.idOf? n = some id) (he : id ∈ r.editing)
    (hk : r.table.get? id = some k) (t : Int) (s : OpenState) : (r.published n k id t s).Shown := by
  refine ⟨h.toKeyed.published hn hk t s, ?_, ?_⟩
  · intro id' he'
    obtain ⟨he', hi⟩ := mem_unmarked.mp he'
    rw [book_published, if_neg (fun x => hi x.2)]
    exact h.hidden he'
  · intro id' k' x hk' hx he'
    have hx' : (r.published n k id t s).openOffer? k' = _ := openOffer?_amendOpenOffer r k _ k'
    rw [hx] at hx'
    rw [book_published]
    by_cases hi : id' = id
    · subst hi
      obtain rfl : k = k' := Option.some.inj (hk.symm.trans hk')
      obtain ⟨y, hy, _⟩ := openIdOf?_eq_some.mp (h.table hk)
      rw [if_pos rfl, hy] at hx'
      cases hx'
      simp only [and_true, h.hidden he]
    · -- no other id has the open offer that is changed
      have hkk : k' ≠ k := fun x => hi (h.table_inj (x ▸ hk') hk)
      rw [if_neg hkk] at hx'
      rw [if_neg (fun x => hi x.2)]
      exact h.listed hk' hx'.symm fun x => he' (mem_unmarked.mpr ⟨x, hi⟩)

theorem Shown.cleared (h : r.Shown) (id : String) : (r.cleared id).Shown where
  toKeyed := h.toKeyed.cleared id
  hidden {id'} he := by
    obtain ⟨he, hi⟩ := mem_unmarked.mp he
    rw [book_cleared, if_neg hi]
    exact h.hidden he
  listed {id' k t} hk ht he := by
    rw [table_cleared] at hk
    rw [book_cleared]
    split at hk
    · cases hk
    · rename_i hi
      rw [if_neg hi]
      exact h.listed hk ht fun x => he (mem_unmarked.mpr ⟨x, hi⟩)

theorem Shown.retired (h : r.Shown) (n : Nat) {k : Nat} (hk : ∀ id, r.table.get? id ≠ some k) :
    (r.retired n k).Shown where
  toKeyed := h.toKeyed.retired n k
  hidden := h.hidden
  listed {id' k' t} hk' ht he := by
    have ht' : (r.retired n k).openOffer? k' = _ := openOffer?_amendOpenOffer r k _ k'
    have hkk : k' ≠ k := fun x => hk id' (x ▸ hk')
    rw [ht, if_neg hkk] at ht'
    exact h.listed hk' ht'.symm he

theorem Shown.effect (h : r.Shown) {c : Command} {r' : Registry} {x : Report} (e : Effect r c r' x) : r'.Shown := by
  cases e with
  | dangling _ => exact h
  | invalid _ _ => exact ⟨h.toKeyed.amendOffer _ fun _ => rfl, h.hidden, h.listed⟩
  | taken _ _ _ => exact h
  | placed ho _ hid => exact h.placed (idOf?_of_offer? ho) hid _
  | unstartable _ _ => exact h
  | withdrawn _ _ hk => exact h.withdrawn hk
  | unstarted _ _ => exact h
  | published hn he hk => exact h.published hn he hk _ _
  | absent _ _ => exact h.cleared _
  | @retired n k id _ _ hk =>
    refine (h.cleared id).retired n fun id' hk' => ?_
    rw [table_cleared] at hk'
    split at hk'
    · cases hk'
    · rename_i hi
      exact hi (h.table_inj hk' hk)

/-- Placed ids satisfy `P` and announced ones do not. -/
def Apart (P : String → Prop) (e : Event) : Prop := (e.verb = .place → P e.id) ∧ (e.verb = .announce → ¬ P e.id)

theorem Shown.act {P : String → Prop} (h : r.Shown) (ht : ∀ id k, r.table.get? id = some k → P id) {a : Action}
    (ha : ∀ e, r.event? a = some e → Apart P e) :
    (r.act a).Shown ∧ ∀ id k, (r.act a).table.get? id = some k → P id := by
  cases a with
  | makeOffer o => exact ⟨⟨h.toKeyed.fileOffer o, h.hidden, h.listed⟩, ht⟩
  | makeOpenOffer o =>
    refine ⟨⟨h.toKeyed.fileOpenOffer o, h.hidden, ?_⟩, ht⟩
    intro id k t hk hx he
    obtain ⟨y, hy, _⟩ := openIdOf?_eq_some.mp (h.table hk)
    have hx' : (r.fileOpenOffer o).1.openOffer? k = _ := Ledger.get?_add r.openOffers o k
    rw [if_neg (Nat.ne_of_lt (Ledger.lt_of_get? hy))] at hx'
    exact h.listed hk (hx'.symm.trans hx) he
  | announce n =>
    cases ho : r.offer? n with
    | none =>
      have hr : r.act (.announce n) = r := by rw [Registry.act, Registry.announce, ho]
      rw [hr]
      exact ⟨h, ht⟩
    | some o =>
      have hP := (ha _ (by rw [event?, ho]; rfl)).2 rfl
      -- every id of the table satisfies `P`, so the announced one is not in it
      have hid : r.table.get? o.id = none := by
        cases hk : r.table.get? o.id with
        | none => rfl
        | some k => exact absurd (ht _ _ hk) hP
      refine ⟨h.announce ho hid, ?_⟩
      rw [Registry.act, announce_eq ho]
      exact ht
  | command c =>
    have e := run_effect r c
    refine ⟨h.effect e, ?_⟩
    intro id k hk
    rcases e.table hk with ⟨k', hk'⟩ | ⟨hv, hid⟩
    · exact ht id k' hk'
    · obtain ⟨ev, hev, hverb, hev', _⟩ := event?_command hid
      exact hev' ▸ (ha ev hev).1 (hverb.trans hv)

theorem Shown.after {P : String → Prop} (h : r.Shown) (ht : ∀ id k, r.table.get? id = some k → P id)
    (actions : List Action) (ha : ∀ e ∈ r.log actions, Apart P e) : (r.after actions).Shown := by
  induction actions generalizing r with
  | nil => exact h
  | cons a rest ih =>
    rw [log] at ha
    obtain ⟨h', ht'⟩ := h.act ht fun e he => ha e (List.mem_append_left _ (by rw [he]; simp))
    exact ih h' ht' fun e he => ha e (List.mem_append_right _ he)

/-- **The book shows what is available.** After any history in which no peer announces an id that is
placed. -/
theorem shown_after (actions : List Action)
    (h : ∀ id ∈ Event.idsOf .announce (log {} actions), id ∉ Event.idsOf .place (log {} actions)) :
    (after {} actions).Shown := by
  refine shown_empty.after (fun id k hk => by cases hk) actions
    (fun e he => (⟨fun hv => ?_, fun hv => ?_⟩ : Apart (· ∈ Event.idsOf .place (log {} actions)) e))
  · exact List.mem_map.mpr ⟨e, List.mem_filter.mpr ⟨he, by simpa using hv⟩, rfl⟩
  · exact h _ (List.mem_map.mpr ⟨e, List.mem_filter.mpr ⟨he, by simpa using hv⟩, rfl⟩)

theorem shown_after_busyHistory :
    (∀ id ∈ Event.idsOf .announce (log {} busyHistory), id ∉ Event.idsOf .place (log {} busyHistory)) ∧
      (after {} busyHistory).Shown :=
  ⟨by decide, shown_after busyHistory (by decide)⟩

end Tradepost.Registry
