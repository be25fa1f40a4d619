import Tradepost.Registry.Basic

/-!
# What a command does

`run_effect` says once, for every command, what it leaves behind and what it
reports. No change of a registry gives a record another id.
-/

namespace Tradepost.Registry

variable {r : Registry}

/-! ## Records keep their ids -/

theorem attached_id (o : Offer) : o.attached.id = o.id := by
  unfold Offer.attached
  split <;> rfl

theorem offer?_amendOffer (r : Registry) (n : Nat) (f : Offer → Offer) (m : Nat) :
    (r.amendOffer n f).offer? m = if m = n then (r.offer? m).map f else r.offer? m :=
  Ledger.get?_amend ..

theorem openOffer?_amendOpenOffer (r : Registry) (n : Nat) (f : OpenOffer → OpenOffer) (m : Nat) :
    (r.amendOpenOffer n f).openOffer? m = if m = n then (r.openOffer? m).map f else r.openOffer? m :=
  Ledger.get?_amend ..

theorem idOf?_amendOffer (r : Registry) (n : Nat) {f : Offer → Offer} (hf : ∀ o, (f o).id = o.id) (m : Nat) :
    (r.amendOffer n f).idOf? m = r.idOf? m := by
  unfold idOf?
  rw [offer?_amendOffer]
  split
  · cases r.offer? m <;> simp [hf]
  · rfl

theorem openIdOf?_amendOffer (r : Registry) (n : Nat) {f : Offer → Offer} (hf : ∀ o, (f o).id = o.id) (k : Nat) :
    (r.amendOffer n f).openIdOf? k = r.openIdOf? k := by
  unfold openIdOf?
  simp only [idOf?_amendOffer r n hf]
  rfl

theorem openIdOf?_amendOpenOffer (r : Registry) (n : Nat) {f : OpenOffer → OpenOffer}
    (hf : ∀ t, (f t).offer = t.offer) (k : Nat) : (r.amendOpenOffer n f).openIdOf? k = r.openIdOf? k := by
  have hid : ∀ m, (r.amendOpenOffer n f).idOf? m = r.idOf? m := fun _ => rfl
  unfold openIdOf?
  rw [openOffer?_amendOpenOffer]
  simp only [hid]
  split
  · cases r.openOffer? k <;> simp [hf]
  · rfl

theorem idOf?_eq_some {n : Nat} {id : String} : r.idOf? n = some id ↔ ∃ o, r.offer? n = some o ∧ o.id = id := by
  simp [idOf?]

theorem idOf?_of_offer? {n : Nat} {o : Offer} (h : r.offer? n = some o) : r.idOf? n = some o.id :=
  idOf?_eq_some.mpr ⟨o, h, rfl⟩

theorem openIdOf?_eq_some {k : Nat} {id : String} :
    r.openIdOf? k = some id ↔ ∃ t, r.openOffer? k = some t ∧ r.idOf? t.offer = some id := by
  simp [openIdOf?, Option.bind_eq_some_iff]

theorem offer?_fileOffer {n : Nat} {o : Offer} (x : Offer) (h : r.offer? n = some o) :
    (r.fileOffer x).1.offer? n = some o := by
  rw [← h]
  exact (Ledger.get?_add ..).trans (if_neg (Nat.ne_of_lt (Ledger.lt_of_get? h)))

theorem idOf?_fileOffer {n : Nat} {id : String} (o : Offer) (h : r.idOf? n = some id) :
    (r.fileOffer o).1.idOf? n = some id := by
  obtain ⟨x, hx, rfl⟩ := idOf?_eq_some.mp h
  exact idOf?_of_offer? (offer?_fileOffer o hx)

theorem offer?_filed (o : Offer) : (r.fileOffer o).1.offer? r.offers.nextNumber = some o :=
  (Ledger.get?_add ..).trans (if_pos rfl)

theorem openIdOf?_filed {t : OpenOffer} {id : String} (h : r.idOf? t.offer = some id) :
    (r.fileOpenOffer t).1.openIdOf? r.openOffers.nextNumber = some id :=
  openIdOf?_eq_some.mpr ⟨t, (Ledger.get?_add ..).trans (if_pos rfl), h⟩

theorem openIdOf?_fileOffer {k : Nat} {id : String} (o : Offer) (h : r.openIdOf? k = some id) :
    (r.fileOffer o).1.openIdOf? k = some id := by
  obtain ⟨t, ht, hid⟩ := openIdOf?_eq_some.mp h
  exact openIdOf?_eq_some.mpr ⟨t, ht, idOf?_fileOffer o hid⟩

theorem openIdOf?_fileOpenOffer {k : Nat} {id : String} (o : OpenOffer) (h : r.openIdOf? k = some id) :
    (r.fileOpenOffer o).1.openIdOf? k = some id := by
  obtain ⟨t, ht, hid⟩ := openIdOf?_eq_some.mp h
  have : k ≠ r.openOffers.nextNumber := Nat.ne_of_lt (Ledger.lt_of_get? ht)
  refine openIdOf?_eq_some.mpr ⟨t, ?_, hid⟩
  simpa only [openOffer?, fileOpenOffer, Ledger.get?_add, this, ite_false] using ht

theorem openOffer?_placed (n : Nat) (id : String) (t : Int) (k : Nat) :
    (r.placed n id t).openOffer? k =
      if k = r.openOffers.nextNumber then some { offer := n, triggerPrice := t } else r.openOffer? k :=
  Ledger.get?_add ..

theorem openIdOf?_published (n k : Nat) (id : String) (t : Int) (s : OpenState) (m : Nat) :
    (r.published n k id t s).openIdOf? m =
      if m = k then (r.openOffer? m).bind fun _ => r.idOf? n else r.openIdOf? m := by
  have hid : ∀ m, (r.published n k id t s).idOf? m = r.idOf? m := fun _ => rfl
  have ho : (r.published n k id t s).openOffer? m = _ := openOffer?_amendOpenOffer r k _ m
  unfold openIdOf?
  simp only [hid, ho]
  split
  · cases r.openOffer? m <;> rfl
  · rfl

theorem idOf?_retired (n k m : Nat) : (r.retired n k).idOf? m = r.idOf? m := by
  show (r.amendOffer n fun o => { o with state := .removed }).idOf? m = _
  exact idOf?_amendOffer r n (by intro _; rfl) m

theorem openIdOf?_retired (n k m : Nat) : (r.retired n k).openIdOf? m = r.openIdOf? m := by
  unfold openIdOf?
  simp only [idOf?_retired]
  have ho : (r.retired n k).openOffer? m = _ := openOffer?_amendOpenOffer r k _ m
  rw [ho]
  split
  · cases r.openOffer? m <;> rfl
  · rfl

/-! ## Book, table and editing set after a change -/

theorem announce_eq {n : Nat} {o : Offer} (h : r.offer? n = some o) :
    r.announce n = { r.amendOffer n Offer.attached with book := r.book.insert o.id n } := by
  unfold announce
  rw [h]

theorem book_announce {n : Nat} {o : Offer} (h : r.offer? n = some o) (id : String) :
    (r.announce n).book.get? id = if id = o.id then some n else r.book.get? id := by
  rw [announce_eq h]
  exact OrderedMap.get?_insert ..

theorem book_placed (n : Nat) (id : String) (t : Int) (id' : String) :
    (r.placed n id t).book.get? id' = if id' = id then some n else r.book.get? id' := OrderedMap.get?_insert ..

theorem table_placed (n : Nat) (id : String) (t : Int) (id' : String) :
    (r.placed n id t).table.get? id' = if id' = id then some r.openOffers.nextNumber else r.table.get? id' :=
  OrderedMap.get?_insert ..

theorem book_withdrawn (id id' : String) :
    (r.withdrawn id).book.get? id' = if id' = id then none else r.book.get? id' := OrderedMap.get?_erase ..

theorem book_published (n k : Nat) (id : String) (t : Int) (s : OpenState) (id' : String) :
    (r.published n k id t s).book.get? id' = if s = .available ∧ id' = id then some n else r.book.get? id' := by
  unfold published
  by_cases hs : s = .available
  · simp only [hs, ite_true, OrderedMap.get?_insert, true_and]
    rfl
  · simp only [hs, ite_false, false_and]
    rfl

theorem book_cleared (id id' : String) :
    (r.cleared id).book.get? id' = if id' = id then none else r.book.get? id' := OrderedMap.get?_erase ..

theorem table_cleared (id id' : String) :
    (r.cleared id).table.get? id' = if id' = id then none else r.table.get? id' := OrderedMap.get?_erase ..

theorem mem_unmarked {es : List String} {id id' : String} : id' ∈ es.filter (· ≠ id) ↔ id' ∈ es ∧ id' ≠ id := by
  simp

/-! ## Effects -/

inductive Verb where
  | announce
  | place
  | start
  | publish
  | remove
deriving DecidableEq, Repr

def Command.verb : Command → Verb
  | .place _ _ => .place
  | .editStart _ => .start
  | .editPublish _ _ _ => .publish
  | .remove _ => .remove

def about? (r : Registry) (c : Command) : Option String := (c.subject? r).bind r.idOf?

theorem about_editStart {k : Nat} {id : String} (h : r.openIdOf? k = some id) :
    r.about? (.editStart k) = some id := by
  obtain ⟨x, hx, hid⟩ := openIdOf?_eq_some.mp h
  exact Option.bind_eq_some_iff.mpr ⟨x.offer, by simp [Command.subject?, hx], hid⟩

inductive Effect (r : Registry) : Command → Registry → Report → Prop where
  | dangling {c : Command} {m : String} : r.about? c = none → Effect r c r (.refused m)
  | invalid {n : Nat} {t : Int} {o : Offer} {m : String} : r.offer? n = some o → amountsValid o.payload = false →
      Effect r (.place n t) (r.amendOffer n fun o => { o with error? := some (amountsText o.payload) }) (.refused m)
  | taken {n k : Nat} {t : Int} {o : Offer} {m : String} : r.offer? n = some o → amountsValid o.payload = true →
      r.table.get? o.id = some k → Effect r (.place n t) r (.refused m)
  | placed {n : Nat} {t : Int} {o : Offer} {x : Option String} :
    r.offer? n = some o → amountsValid o.payload = true →
      r.table.get? o.id = none → Effect r (.place n t) (r.placed n o.id t) (.accepted x)
  | unstartable {k : Nat} {id m : String} : r.openIdOf? k = some id → id ∈ r.editing ∨ r.table.get? id = none →
      Effect r (.editStart k) r (.refused m)
  | withdrawn {k k' : Nat} {id : String} {x : Option String} : r.openIdOf? k = some id → id ∉ r.editing →
      r.table.get? id = some k' → Effect r (.editStart k) (r.withdrawn id) (.accepted x)
  | unstarted {n : Nat} {t : Int} {s : OpenState} {id m : String} : r.idOf? n = some id →
      id ∉ r.editing ∨ r.table.get? id = none → Effect r (.editPublish n t s) r (.refused m)
  | published {n k : Nat} {t : Int} {s : OpenState} {id : String} {x : Option String} : r.idOf? n = some id →
      id ∈ r.editing → r.table.get? id = some k →
      Effect r (.editPublish n t s) (r.published n k id t s) (.accepted x)
  | absent {n : Nat} {id m : String} : r.idOf? n = some id → r.table.get? id = none →
      Effect r (.remove n) (r.cleared id) (.refused m)
  | retired {n k : Nat} {id : String} {x : Option String} : r.idOf? n = some id → r.table.get? id = some k →
      Effect r (.remove n) ((r.cleared id).retired n k) (.accepted x)

theorem place_effect {n : Nat} {o : Offer} (h : r.offer? n = some o) (t : Int) :
    Effect r (.place n t) (r.place n o t).1 (r.place n o t).2 := by
  unfold place
  by_cases hv : amountsValid o.payload = true
  · cases hk : r.table.get? o.id with
    | none => simpa [hv, OrderedMap.contains, hk] using Effect.placed h hv hk
    | some k => simpa [hv, OrderedMap.contains, hk] using Effect.taken h hv hk
  · simpa [hv] using Effect.invalid h (Bool.eq_false_iff.mpr hv)

theorem editStart_effect {k : Nat} {id : String} (h : r.openIdOf? k = some id) :
    Effect r (.editStart k) (r.editStart id).1 (r.editStart id).2 := by
  unfold editStart
  by_cases he : id ∈ r.editing
  · simpa [he] using Effect.unstartable h (.inl he)
  · cases hk : r.table.get? id with
    | none => simpa [he, OrderedMap.contains, hk] using Effect.unstartable h (.inr hk)
    | some k => simpa [he, OrderedMap.contains, hk] using Effect.withdrawn h he hk

theorem editPublish_effect {n : Nat} {id : String} (h : r.idOf? n = some id) (t : Int) (s : OpenState) :
    Effect r (.editPublish n t s) (r.editPublish n id t s).1 (r.editPublish n id t s).2 := by
  unfold editPublish
  cases hk : r.table.get? id with
  | none => exact .unstarted h (.inr hk)
  | some k =>
    by_cases he : id ∈ r.editing
    · simpa [he] using Effect.published h he hk
    · simpa [he] using Effect.unstarted h (.inl he)

theorem remove_effect {n : Nat} {id : String} (h : r.idOf? n = some id) :
    Effect r (.remove n) (r.remove n id).1 (r.remove n id).2 := by
  unfold remove
  cases hk : r.table.get? id with
  | none => exact .absent h hk
  | some k => exact .retired h hk

theorem run_effect (r : Registry) (c : Command) : Effect r c (r.run c).1 (r.run c).2 := by
  unfold run
  cases hs : (c.subject? r).bind fun n => (r.offer? n).map (n, ·) with
  | none =>
    refine .dangling ?_
    unfold about? idOf?
    cases h : c.subject? r with
    | none => rfl
    | some n => simpa [h] using hs
  | some p =>
    obtain ⟨n, o⟩ := p
    obtain ⟨n', hn, ho⟩ := Option.bind_eq_some_iff.mp hs
    simp only [Option.map_eq_some_iff, Prod.mk.injEq] at ho
    obtain ⟨o', ho, rfl, rfl⟩ := ho
    cases c with
    | place m t =>
      cases hn
      exact place_effect ho t
    | editStart k =>
      obtain ⟨x, hx, rfl⟩ := Option.map_eq_some_iff.mp hn
      exact editStart_effect (openIdOf?_eq_some.mpr ⟨x, hx, idOf?_of_offer? ho⟩)
    | editPublish m t s =>
      cases hn
      exact editPublish_effect (idOf?_of_offer? ho) t s
    | remove m =>
      cases hn
      exact remove_effect (idOf?_of_offer? ho)

/-! ## Commands whose answer is known -/

theorem run_start {k k' : Nat} {id : String} (hid : r.openIdOf? k = some id) (hk : r.table.get? id = some k') :
    (id ∈ r.editing ∧ ∃ m, r.run (.editStart k) = (r, .refused m)) ∨
      (id ∉ r.editing ∧ r.run (.editStart k) = (r.withdrawn id, .accepted none)) := by
  obtain ⟨t, ht, hid⟩ := openIdOf?_eq_some.mp hid
  obtain ⟨o, ho, rfl⟩ := idOf?_eq_some.mp hid
  have hrun : r.run (.editStart k) = r.editStart o.id := by simp [run, Command.subject?, ht, ho]
  rw [hrun, editStart]
  by_cases he : o.id ∈ r.editing
  · exact .inl ⟨he, by simp [he]⟩
  · exact .inr ⟨he, by simp [he, OrderedMap.contains, hk]⟩

theorem run_publish {n k : Nat} {o : Offer} (ho : r.offer? n = some o) (he : o.id ∈ r.editing)
    (hk : r.table.get? o.id = some k) (t : Int) (s : OpenState) :
    r.run (.editPublish n t s) = (r.published n k o.id t s, .accepted none) := by
  simp [run, Command.subject?, ho, editPublish, hk, he]

theorem run_publish_unstarted {n : Nat} {id : String} (hn : r.idOf? n = some id) (he : id ∉ r.editing) (t : Int)
    (s : OpenState) : ∃ m, r.run (.editPublish n t s) = (r, .refused m) := by
  obtain ⟨o, ho, rfl⟩ := idOf?_eq_some.mp hn
  cases hk : r.table.get? o.id <;> simp [run, Command.subject?, ho, editPublish, hk, he]

theorem run_remove {n k : Nat} {id : String} (hn : r.idOf? n = some id) (hk : r.table.get? id = some k) :
    r.run (.remove n) = ((r.cleared id).retired n k, .accepted none) := by
  obtain ⟨o, ho, rfl⟩ := idOf?_eq_some.mp hn
  simp [run, Command.subject?, ho, remove, hk]

/-! ## Records of other ids -/

structure Spares (r r' : Registry) (id : String) : Prop where
  ids : ∀ {n id'}, r.idOf? n = some id' → r'.idOf? n = some id'
  offers : ∀ {n o}, r.offer? n = some o → o.id ≠ id → r'.offer? n = some o

theorem Spares.trans {r₁ r₂ r₃ : Registry} {id : String} (h : Spares r₁ r₂ id) (h' : Spares r₂ r₃ id) :
    Spares r₁ r₃ id := ⟨fun hn => h'.ids (h.ids hn), fun ho hne => h'.offers (h.offers ho hne) hne⟩

theorem spares_amendOffer {n : Nat} {id : String} (hn : r.idOf? n = some id) {f : Offer → Offer}
    (hf : ∀ o, (f o).id = o.id) : Spares r (r.amendOffer n f) id where
  ids hm := by rw [idOf?_amendOffer r n hf, hm]
  offers {m x} hx hne := by
    have : m ≠ n := by
      rintro rfl
      exact hne (Option.some.inj ((idOf?_of_offer? hx).symm.trans hn))
    rw [offer?_amendOffer, if_neg this, hx]

theorem spares_placed {n : Nat} {id : String} (hn : r.idOf? n = some id) (t : Int) :
    Spares r (r.placed n id t) id :=
  have h : Spares r (r.amendOffer n fun o => { o with state := .available }) id := spares_amendOffer hn fun _ => rfl
  ⟨h.ids, h.offers⟩

theorem spares_retired {n : Nat} {id : String} (hn : r.idOf? n = some id) (k : Nat) :
    Spares r ((r.cleared id).retired n k) id :=
  have h : Spares r (r.amendOffer n fun o => { o with state := .removed }) id := spares_amendOffer hn fun _ => rfl
  ⟨h.ids, h.offers⟩

/-! ## The table -/

theorem Effect.table {c : Command} {r' : Registry} {x : Report} (e : Effect r c r' x) {id : String} {k : Nat}
    (hk : r'.table.get? id = some k) :
    (∃ k, r.table.get? id = some k) ∨ (c.verb = .place ∧ r.about? c = some id) := by
  cases e with
  | @placed n t o _ ho _ _ =>
    rw [table_placed] at hk
    split at hk
    · rename_i hid
      exact .inr ⟨rfl, hid ▸ idOf?_of_offer? ho⟩
    · exact .inl ⟨k, hk⟩
  | absent _ _ | retired _ _ =>
    have hk : (r.cleared _).table.get? id = some k := hk
    rw [table_cleared] at hk
    split at hk
    · cases hk
    · exact .inl ⟨k, hk⟩
  | _ => exact .inl ⟨k, hk⟩

end Tradepost.Registry
