import Tradepost.Proofs.OrderedMap
import Tradepost.Proofs.Registry.Keyed

/-!
# What a registry holds

The contents of a registry are what its book, its table and its editing set
say, with the records themselves in place of their numbers. Each change of a
keyed registry is a change of its contents under one id.
-/

namespace Tradepost.Registry

/-- An open offer as it stands, whatever the numbers of its records. -/
structure Entry where
  offer : Offer
  triggerPrice : Int
  state : OpenState
deriving DecidableEq, Repr

@[ext]
structure Contents where
  book : OrderedMap String (Option Offer)
  table : OrderedMap String (Option Entry)
  editing : List String
deriving DecidableEq, Repr

namespace Contents

def place (c : Contents) (id : String) (e : Entry) : Contents :=
  { c with table := c.table.insert id (some e), book := c.book.insert id (some e.offer) }

def withdraw (c : Contents) (id : String) : Contents :=
  { c with editing := id :: c.editing, book := c.book.erase id }

def publish (c : Contents) (id : String) (e : Entry) : Contents :=
  { table := c.table.insert id (some e)
    book := if e.state = .available then c.book.insert id (some e.offer) else c.book
    editing := c.editing.filter (· ≠ id) }

def clear (c : Contents) (id : String) : Contents :=
  { table := c.table.erase id, book := c.book.erase id, editing := c.editing.filter (· ≠ id) }

end Contents

def Own.entry (o : Own) : Entry :=
  { offer := o.offer, triggerPrice := o.terms.triggerPrice, state := o.terms.state }

def entryOf? (r : Registry) (k : Nat) : Option Entry := (r.own? k).map Own.entry

def contents (r : Registry) : Contents :=
  { book := r.book.map r.offer?, table := r.table.map r.entryOf?, editing := r.editing }

/-- Book, table and editing set are the same, by number and by what they show, and no record has
changed. -/
structure Untouched (r r' : Registry) : Prop where
  book : r'.book = r.book
  table : r'.table = r.table
  editing : r'.editing = r.editing
  contents : r'.contents = r.contents
  offers : ∀ {k o}, r.offer? k = some o → r'.offer? k = some o
  openOffers : r'.openOffers = r.openOffers

theorem Untouched.refl (r : Registry) : Untouched r r := ⟨rfl, rfl, rfl, rfl, fun h => h, rfl⟩

theorem Untouched.spares {r r' : Registry} (h : Untouched r r') (id : String) : Spares r r' id where
  ids hn := by
    obtain ⟨o, ho, rfl⟩ := idOf?_eq_some.mp hn
    exact idOf?_of_offer? (h.offers ho)
  offers ho _ := h.offers ho

variable {r : Registry}

theorem own?_eq_some {k : Nat} {own : Own} :
    r.own? k = some own ↔
      own.number = k ∧ r.openOffer? k = some own.terms ∧ r.offer? own.terms.offer = some own.offer := by
  obtain ⟨number, terms, offer⟩ := own
  unfold own?
  cases ht : r.openOffer? k with
  | none => simp
  | some t =>
    cases ho : r.offer? t.offer with
    | none =>
      refine ⟨fun h => by simp [ho] at h, ?_⟩
      rintro ⟨_, h, hx⟩
      cases h
      cases ho.symm.trans hx
    | some o =>
      simp only [Option.bind_eq_bind, Option.bind_some, ho, Option.pure_def, Option.some.injEq, Own.mk.injEq]
      constructor
      · rintro ⟨rfl, rfl, rfl⟩
        exact ⟨rfl, rfl, ho⟩
      · rintro ⟨rfl, rfl, hx⟩
        exact ⟨rfl, rfl, Option.some.inj (ho.symm.trans hx)⟩

theorem entryOf?_eq {k : Nat} {t : OpenOffer} {o : Offer} (hk : r.openOffer? k = some t)
    (ho : r.offer? t.offer = some o) :
    r.entryOf? k = some { offer := o, triggerPrice := t.triggerPrice, state := t.state } := by
  have : r.own? k = some { number := k, terms := t, offer := o } := own?_eq_some.mpr ⟨rfl, hk, ho⟩
  rw [entryOf?, this]
  rfl

theorem Keyed.own (h : r.Keyed) {id : String} {k : Nat} (hk : r.table.get? id = some k) :
    ∃ own, r.own? k = some own ∧ own.offer.id = id := by
  obtain ⟨t, ht, hid⟩ := openIdOf?_eq_some.mp (h.table hk)
  obtain ⟨o, ho, hid⟩ := idOf?_eq_some.mp hid
  exact ⟨⟨k, t, o⟩, own?_eq_some.mpr ⟨rfl, ht, ho⟩, hid⟩

/-! ## Changes under one id -/

/-- Records of other ids that are kept show as they did. -/
theorem Keyed.spared (h : r.Keyed) {r' : Registry} {id : String} (hs : Spares r r' id)
    (hk : ∀ k t, r.openOffer? k = some t → r.idOf? t.offer ≠ some id → r'.openOffer? k = some t) :
    (∀ id' m, r.book.get? id' = some m → id' ≠ id → r'.offer? m = r.offer? m) ∧
      ∀ id' k, r.table.get? id' = some k → id' ≠ id → r'.entryOf? k = r.entryOf? k := by
  constructor
  · intro id' m hm hne
    obtain ⟨o, hx, rfl⟩ := idOf?_eq_some.mp (h.book hm)
    rw [hx, hs.offers hx hne]
  · intro id' k hk' hne
    obtain ⟨own, hown, rfl⟩ := h.own hk'
    obtain ⟨_, ht, hx⟩ := own?_eq_some.mp hown
    have hid : r.idOf? own.terms.offer ≠ some id := by
      rw [idOf?_of_offer? hx]
      exact fun x => hne (Option.some.inj x)
    rw [entryOf?_eq ht hx, entryOf?_eq (hk k _ ht hid) (hs.offers hx hne)]

theorem Keyed.ne_of_other (h : r.Keyed) {id : String} {k k' : Nat} {t : OpenOffer} (hk : r.table.get? id = some k)
    (ht : r.openOffer? k' = some t) (hne : r.idOf? t.offer ≠ some id) : k' ≠ k := by
  rintro rfl
  obtain ⟨u, hu, hid⟩ := openIdOf?_eq_some.mp (h.table hk)
  exact hne (by rw [Option.some.inj (ht.symm.trans hu), hid])

theorem Keyed.untouched (h : r.Keyed) {r' : Registry} (hb : r'.book = r.book) (ht : r'.table = r.table)
    (he : r'.editing = r.editing) (ho : ∀ {m o}, r.offer? m = some o → r'.offer? m = some o)
    (hk : r'.openOffers = r.openOffers) : Untouched r r' := by
  have hopen : ∀ k, r'.openOffer? k = r.openOffer? k := fun k => by rw [openOffer?, hk, openOffer?]
  have hbook : r.book.map r'.offer? = r.book.map r.offer? := by
    apply OrderedMap.map_congr
    intro id m hm
    obtain ⟨o, hx, _⟩ := idOf?_eq_some.mp (h.book hm)
    rw [hx, ho hx]
  have htable : r.table.map r'.entryOf? = r.table.map r.entryOf? := by
    apply OrderedMap.map_congr
    intro id k hk'
    obtain ⟨own, hown, _⟩ := h.own hk'
    obtain ⟨_, hx, hy⟩ := own?_eq_some.mp hown
    rw [entryOf?_eq hx hy, entryOf?_eq ((hopen k).trans hx) (ho hy)]
  refine ⟨hb, ht, he, ?_, ho, hk⟩
  unfold contents
  rw [hb, ht, he, hbook, htable]

theorem Keyed.untouched_fileOffer (h : r.Keyed) (o : Offer) : Untouched r (r.fileOffer o).1 :=
  h.untouched rfl rfl rfl (offer?_fileOffer o) rfl

/-- An offer that could not be placed is marked, but nothing points to it. -/
theorem Keyed.untouched_amend_filed (h : r.Keyed) (o : Offer) (f : Offer → Offer) :
    Untouched r ((r.fileOffer o).1.amendOffer r.offers.nextNumber f) := by
  refine h.untouched rfl rfl rfl ?_ rfl
  intro m x hx
  rw [offer?_amendOffer, if_neg (Nat.ne_of_lt (Ledger.lt_of_get? hx))]
  exact offer?_fileOffer o hx

theorem Keyed.contents_placed (h : r.Keyed) {n : Nat} {o : Offer} (hn : r.offer? n = some o) (t : Int) :
    (r.placed n o.id t).contents =
      r.contents.place o.id
        { offer := { o with state := .available }, triggerPrice := t, state := .available } := by
  have hx : ∀ m, (r.placed n o.id t).offer? m = _ := offer?_amendOffer r n fun o => { o with state := .available }
  have hn' : (r.placed n o.id t).offer? n = some { o with state := .available } := by rw [hx, if_pos rfl, hn]; rfl
  have he : (r.placed n o.id t).entryOf? r.openOffers.nextNumber =
      some { offer := { o with state := .available }, triggerPrice := t, state := .available } :=
    entryOf?_eq ((openOffer?_placed n o.id t _).trans (if_pos rfl)) hn'
  -- records of other ids show as before, and what showed under this id is replaced
  obtain ⟨hb, ht⟩ := h.spared (spares_placed (idOf?_of_offer? hn) t)
    fun k x hk _ => by rw [openOffer?_placed, if_neg (Nat.ne_of_lt (Ledger.lt_of_get? hk)), hk]
  have hbook : (r.book.insert o.id n).map (r.placed n o.id t).offer? = _ := OrderedMap.map_insert ..
  have htable : (r.table.insert o.id r.openOffers.nextNumber).map (r.placed n o.id t).entryOf? = _ :=
    OrderedMap.map_insert ..
  rw [hn', OrderedMap.insert_map_congr _ hb] at hbook
  rw [he, OrderedMap.insert_map_congr _ ht] at htable
  exact Contents.ext hbook htable rfl

theorem contents_withdrawn (id : String) : (r.withdrawn id).contents = r.contents.withdraw id :=
  Contents.ext (OrderedMap.map_erase ..) rfl rfl

theorem Keyed.contents_published (h : r.Keyed) {n k : Nat} {id : String} {o : Offer} (hn : r.offer? n = some o)
    (hk : r.table.get? id = some k) (t : Int) (s : OpenState) :
    (r.published n k id t s).contents = r.contents.publish id { offer := o, triggerPrice := t, state := s } := by
  have hx : ∀ m, (r.published n k id t s).openOffer? m = _ := openOffer?_amendOpenOffer r k _
  obtain ⟨u, hu, _⟩ := openIdOf?_eq_some.mp (h.table hk)
  have he : (r.published n k id t s).entryOf? k = some { offer := o, triggerPrice := t, state := s } :=
    entryOf?_eq (by rw [hx, if_pos rfl, hu]; rfl) hn
  have hs : Spares r (r.published n k id t s) id := ⟨fun x => x, fun x _ => x⟩
  obtain ⟨_, ht⟩ := h.spared hs fun k' x hk' hne => by rw [hx, if_neg (h.ne_of_other hk hk' hne), hk']
  have htable : r.table.map (r.published n k id t s).entryOf? = _ := OrderedMap.map_eq_insert hk ht
  rw [he] at htable
  have hbook : (if s = .available then r.book.insert id n else r.book).map r.offer? =
      if s = .available then r.contents.book.insert id (some o) else r.contents.book := by
    split
    · rw [OrderedMap.map_insert, hn]
      rfl
    · rfl
  exact Contents.ext hbook htable rfl

theorem Keyed.contents_retired (h : r.Keyed) {n k : Nat} {id : String} (hn : r.idOf? n = some id)
    (hk : r.table.get? id = some k) : ((r.cleared id).retired n k).contents = r.contents.clear id := by
  have hx : ∀ m, ((r.cleared id).retired n k).openOffer? m = _ := openOffer?_amendOpenOffer r k _
  obtain ⟨hb, ht⟩ := h.spared (spares_retired hn k)
    fun k' x hk' hne => by rw [hx, if_neg (h.ne_of_other hk hk' hne), hk']
  exact Contents.ext (OrderedMap.map_erase_congr hb) (OrderedMap.map_erase_congr ht) rfl

end Tradepost.Registry
