import Tradepost.Node.Upkeep
import Tradepost.Proofs.Registry.Effect

/-!
# Records stand under their own ids

`Keyed` is what all operations of a registry keep, whoever calls them and with
whatever records: book and table hold each record under its own id, and only
ids of the table are being edited.
-/

namespace Tradepost.Registry

variable {r : Registry}

structure Keyed (r : Registry) : Prop where
  book : ∀ {id n}, r.book.get? id = some n → r.idOf? n = some id
  table : ∀ {id k}, r.table.get? id = some k → r.openIdOf? k = some id
  marked : ∀ {id}, id ∈ r.editing → ∃ k, r.table.get? id = some k

theorem keyed_empty : Keyed {} where
  book h := by cases h
  table h := by cases h
  marked h := by cases h

theorem Keyed.table_inj (h : r.Keyed) {id id' : String} {k : Nat} (hk : r.table.get? id = some k)
    (hk' : r.table.get? id' = some k) : id = id' :=
  Option.some.inj ((h.table hk).symm.trans (h.table hk'))

theorem Keyed.not_marked (h : r.Keyed) {id : String} (hk : r.table.get? id = none) : id ∉ r.editing := by
  intro he
  obtain ⟨k, hk'⟩ := h.marked he
  rw [hk] at hk'
  cases hk'

theorem Keyed.fileOffer (h : r.Keyed) (o : Offer) : (r.fileOffer o).1.Keyed where
  book hn := idOf?_fileOffer o (h.book hn)
  table hk := openIdOf?_fileOffer o (h.table hk)
  marked := h.marked

theorem Keyed.fileOpenOffer (h : r.Keyed) (o : OpenOffer) : (r.fileOpenOffer o).1.Keyed where
  book := h.book
  table hk := openIdOf?_fileOpenOffer o (h.table hk)
  marked := h.marked

theorem Keyed.amendOffer (h : r.Keyed) (n : Nat) {f : Offer → Offer} (hf : ∀ o, (f o).id = o.id) :
    (r.amendOffer n f).Keyed where
  book hn := by rw [idOf?_amendOffer r n hf]; exact h.book hn
  table hk := by rw [openIdOf?_amendOffer r n hf]; exact h.table hk
  marked := h.marked

theorem Keyed.amendOpenOffer (h : r.Keyed) (k : Nat) {f : OpenOffer → OpenOffer} (hf : ∀ t, (f t).offer = t.offer) :
    (r.amendOpenOffer k f).Keyed where
  book := h.book
  table hk := by rw [openIdOf?_amendOpenOffer r k hf]; exact h.table hk
  marked := h.marked

theorem Keyed.booked (h : r.Keyed) {n : Nat} {id : String} (hn : r.idOf? n = some id) :
    Keyed { r with book := r.book.insert id n } where
  book {id' m} hm := by
    rw [OrderedMap.get?_insert] at hm
    split at hm
    · rename_i hid
      cases hm
      exact hid ▸ hn
    · exact h.book hm
  table := h.table
  marked := h.marked

theorem Keyed.tabled (h : r.Keyed) {k : Nat} {id : String} (hk : r.openIdOf? k = some id) :
    Keyed { r with table := r.table.insert id k } where
  book := h.book
  table {id' k'} hk' := by
    rw [OrderedMap.get?_insert] at hk'
    split at hk'
    · rename_i hid
      cases hk'
      exact hid ▸ hk
    · exact h.table hk'
  marked {id'} he := by
    obtain ⟨k', hk'⟩ := h.marked he
    rw [OrderedMap.get?_insert]
    split
    · exact ⟨k, rfl⟩
    · exact ⟨k', hk'⟩

theorem Keyed.announce (h : r.Keyed) (n : Nat) : (r.announce n).Keyed := by
  cases ho : r.offer? n with
  | none =>
    have hr : r.announce n = r := by rw [Registry.announce, ho]
    rw [hr]
    exact h
  | some o =>
    rw [announce_eq ho]
    refine (h.amendOffer n attached_id).booked ?_
    rw [idOf?_amendOffer r n attached_id]
    exact idOf?_of_offer? ho

theorem Keyed.placed (h : r.Keyed) {n : Nat} {id : String} (hn : r.idOf? n = some id) (t : Int) :
    (r.placed n id t).Keyed := by
  have ha := (h.amendOffer n (f := fun o => { o with state := .available }) fun _ => rfl).fileOpenOffer
    { offer := n, triggerPrice := t }
  have hid : (r.amendOffer n fun o => { o with state := .available }).idOf? n = some id :=
    (idOf?_amendOffer r n (by intro _; rfl) n).trans hn
  exact (ha.tabled (openIdOf?_filed hid)).booked hid

theorem Keyed.loadOpen (h : r.Keyed) (o : Offer) (t : Int) (s : OpenState) (shown : Bool) :
    (r.loadOpen o t s shown).Keyed := by
  have ha := (h.fileOffer o).fileOpenOffer { offer := r.offers.nextNumber, triggerPrice := t, state := s }
  have hid : (r.fileOffer o).1.idOf? r.offers.nextNumber = some o.id := idOf?_of_offer? (offer?_filed o)
  have ht := ha.tabled (openIdOf?_filed hid)
  cases shown with
  | true => exact ht.booked hid
  | false => exact ht

theorem Keyed.setOfferState (h : r.Keyed) (id : String) (s : OfferState) : (r.setOfferState id s).Keyed := by
  unfold Registry.setOfferState
  split
  · exact h.amendOffer _ fun _ => rfl
  · exact h

theorem Keyed.setOpenState (h : r.Keyed) (id : String) (s : OpenState) : (r.setOpenState id s).Keyed := by
  unfold Registry.setOpenState
  split
  · exact h.amendOpenOffer _ fun _ => rfl
  · exact h

theorem Keyed.withdrawn (h : r.Keyed) {id : String} {k : Nat} (hk : r.table.get? id = some k) :
    (r.withdrawn id).Keyed where
  book {id' m} hm := by
    rw [book_withdrawn] at hm
    split at hm
    · cases hm
    · exact h.book hm
  table := h.table
  marked {id'} he := by
    rcases List.mem_cons.mp he with rfl | he
    · exact ⟨k, hk⟩
    · exact h.marked he

theorem Keyed.published (h : r.Keyed) {n k : Nat} {id : String} (hn : r.idOf? n = some id)
    (hk : r.table.get? id = some k) (t : Int) (s : OpenState) : (r.published n k id t s).Keyed := by
  refine ⟨fun {id' m} hm => ?_, fun {id' k'} hk' => ?_, fun he => h.marked (List.mem_filter.mp he).1⟩
  · show r.idOf? m = some id'
    rw [book_published] at hm
    split at hm
    · rename_i hid
      cases hm
      exact hid.2 ▸ hn
    · exact h.book hm
  · rw [openIdOf?_published]
    split
    · rename_i hkk
      subst hkk
      -- the changed open offer stands under one id only, that of the record it shows now
      obtain ⟨x, hx, _⟩ := openIdOf?_eq_some.mp (h.table hk)
      rw [hx, h.table_inj hk' hk]
      exact hn
    · exact h.table hk'

theorem Keyed.cleared (h : r.Keyed) (id : String) : (r.cleared id).Keyed where
  book {id' m} hm := by
    rw [book_cleared] at hm
    split at hm
    · cases hm
    · exact h.book hm
  table {id' k} hk := by
    rw [table_cleared] at hk
    split at hk
    · cases hk
    · exact h.table hk
  marked {id'} he := by
    obtain ⟨he, hid⟩ := List.mem_filter.mp he
    obtain ⟨k, hk⟩ := h.marked he
    refine ⟨k, ?_⟩
    rw [table_cleared]
    simpa [of_decide_eq_true hid] using hk

theorem Keyed.retired (h : r.Keyed) (n k : Nat) : (r.retired n k).Keyed where
  book hm := by rw [idOf?_retired]; exact h.book hm
  table hk := by rw [openIdOf?_retired]; exact h.table hk
  marked := h.marked

theorem Keyed.effect (h : r.Keyed) {c : Command} {r' : Registry} {x : Report} (e : Effect r c r' x) : r'.Keyed := by
  cases e with
  | dangling _ => exact h
  | invalid _ _ => exact h.amendOffer _ fun _ => rfl
  | taken _ _ _ => exact h
  | placed ho _ _ => exact h.placed (idOf?_of_offer? ho) _
  | unstartable _ _ => exact h
  | withdrawn _ _ hk => exact h.withdrawn hk
  | unstarted _ _ => exact h
  | published hn _ hk => exact h.published hn hk _ _
  | absent _ _ => exact h.cleared _
  | retired _ _ => exact (h.cleared _).retired _ _

theorem Keyed.run (h : r.Keyed) (c : Command) : (r.run c).1.Keyed := h.effect (run_effect r c)

end Tradepost.Registry
