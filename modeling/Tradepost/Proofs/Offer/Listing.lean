import Mathlib.Data.List.Sort
import Tradepost.Failure
import Tradepost.Offer.Listing

/-!
# Listings and what is left out of them

A listing is a stable sort of what it shows, so leaving items out before it is
sorted or afterwards comes to the same. It fails only on an item whose price
cannot be computed.
-/

namespace Tradepost.Listing

/-! ## The sort -/

section

variable {α : Type} (r : α → α → Prop) [DecidableRel r]

theorem insertBefore_eq (x : α) (ys : List α) : insertBefore (fun a b => r a b) x ys = ys.orderedInsert r x := by
  induction ys with
  | nil => rfl
  | cons y ys ih =>
    rw [insertBefore, List.orderedInsert_cons, ih]
    by_cases h : r x y <;> simp [h]

theorem arrange_eq (xs : List α) : arrange (fun a b => r a b) xs = xs.insertionSort r := by
  induction xs with
  | nil => rfl
  | cons x xs ih =>
    rw [List.insertionSort_cons, ← ih, ← insertBefore_eq]
    rfl

variable [IsTrans α r] (q : α → Bool)

theorem orderedInsert_filter (x : α) {ys : List α} (hs : ys.Pairwise r) :
    (ys.orderedInsert r x).filter q = if q x then (ys.filter q).orderedInsert r x else ys.filter q := by
  induction ys with
  | nil => cases h : q x <;> simp [h]
  | cons y ys ih =>
    rw [List.pairwise_cons] at hs
    rw [List.orderedInsert_cons]
    by_cases hxy : r x y
    · rw [if_pos hxy, List.filter_cons]
      have hall : ∀ z ∈ (y :: ys).filter q, r x z := by
        intro z hz
        rcases List.mem_cons.mp (List.mem_filter.mp hz).1 with rfl | hz
        · exact hxy
        · exact trans_of r hxy (hs.1 z hz)
      split
      · cases hf : (y :: ys).filter q with
        | nil => rfl
        | cons z zs =>
          rw [hf] at hall
          exact (List.orderedInsert_cons_of_le r zs (hall z (List.mem_cons_self ..))).symm
      · rfl
    · rw [if_neg hxy, List.filter_cons, List.filter_cons, ih hs.2]
      cases hy : q y with
      | false => rfl
      | true =>
        cases hx : q x with
        | false => rfl
        | true => exact (List.orderedInsert_of_not_le r _ hxy).symm

theorem insertionSort_filter [Std.Total r] (xs : List α) :
    (xs.insertionSort r).filter q = (xs.filter q).insertionSort r := by
  induction xs with
  | nil => rfl
  | cons x xs ih =>
    rw [List.insertionSort_cons, orderedInsert_filter r q x (List.pairwise_insertionSort r xs), ih,
      List.filter_cons]
    split <;> rfl

end

/-! ## Items by price -/

section

variable {α : Type}

def Ahead (cheapest : Bool) (a b : Int × α) : Prop := if cheapest then a.1 ≤ b.1 else b.1 ≤ a.1

instance (cheapest : Bool) : DecidableRel (Ahead (α := α) cheapest) := fun a b =>
  inferInstanceAs (Decidable (if cheapest then a.1 ≤ b.1 else b.1 ≤ a.1))

instance (cheapest : Bool) : IsTrans (Int × α) (Ahead cheapest) where
  trans a b c hab hbc := by
    unfold Ahead at *
    cases cheapest <;> simp only [Bool.false_eq_true, ite_false, ite_true] at * <;> omega

instance (cheapest : Bool) : Std.Total (Ahead (α := α) cheapest) where
  total a b := by
    unfold Ahead
    cases cheapest <;> simp only [Bool.false_eq_true, ite_false, ite_true] <;> omega

def valued? : Option Price × α → Option (Int × α)
  | (p, x) => p.map fun p => (p.value, x)

def unpriced? : Option Price × α → Option α
  | (p, x) => if p.isNone then some x else none

theorem byPrice_eq (cheapest : Bool) (items : List (Option Price × α)) :
    byPrice cheapest items =
      ((items.filterMap valued?).insertionSort (Ahead cheapest)).map Prod.snd ++ items.filterMap unpriced? := by
  rw [← arrange_eq]
  rfl

theorem valued_filter (q : α → Bool) (items : List (Option Price × α)) :
    (items.filter fun i => q i.2).filterMap valued? = (items.filterMap valued?).filter fun i => q i.2 := by
  induction items with
  | nil => rfl
  | cons i items ih =>
    obtain ⟨p, x⟩ := i
    cases p <;> cases hx : q x <;> simp [valued?, hx, ih, List.filterMap_cons]

theorem unpriced_filter (q : α → Bool) (items : List (Option Price × α)) :
    (items.filter fun i => q i.2).filterMap unpriced? = (items.filterMap unpriced?).filter q := by
  induction items with
  | nil => rfl
  | cons i items ih =>
    obtain ⟨p, x⟩ := i
    cases p <;> cases hx : q x <;> simp [unpriced?, hx, ih]

theorem byPrice_filter (q : α → Bool) (cheapest : Bool) (items : List (Option Price × α)) :
    (byPrice cheapest items).filter q = byPrice cheapest (items.filter fun i => q i.2) := by
  rw [byPrice_eq, byPrice_eq, valued_filter, unpriced_filter, ← insertionSort_filter, List.filter_append,
    List.filter_map]
  rfl

theorem valued_append_unpriced (items : List (Option Price × α)) :
    ((items.filterMap valued?).map Prod.snd ++ items.filterMap unpriced?).Perm (items.map Prod.snd) := by
  induction items with
  | nil => exact .nil
  | cons i items ih =>
    obtain ⟨p, x⟩ := i
    cases p with
    | some p => exact ih.cons x
    | none => exact List.perm_middle.trans (ih.cons x)

theorem byPrice_perm (cheapest : Bool) (items : List (Option Price × α)) :
    (byPrice cheapest items).Perm (items.map Prod.snd) := by
  rw [byPrice_eq]
  have hsort := (List.perm_insertionSort (Ahead cheapest) (items.filterMap valued?)).map Prod.snd
  exact (hsort.append_right _).trans (valued_append_unpriced items)

end

/-! ## Items with a key -/

section

variable {α : Type} {key : α → String} {x : α} {xs : List α}

/-- An item stands in a list once, and nothing else there has its key. -/
def Once (key : α → String) (x : α) (xs : List α) : Prop := xs.filter (fun y => key y = key x) = [x]

theorem once_of_nodup (hn : (xs.map key).Nodup) (hx : x ∈ xs) : Once key x xs := by
  unfold Once
  induction xs with
  | nil => cases hx
  | cons y ys ih =>
    rw [List.map_cons, List.nodup_cons] at hn
    rcases List.mem_cons.mp hx with rfl | hx
    · have hrest : ys.filter (fun y => key y = key x) = [] :=
        List.filter_eq_nil_iff.mpr fun y hy h =>
          hn.1 (List.mem_map.mpr ⟨y, hy, of_decide_eq_true h⟩)
      rw [List.filter_cons_of_pos (by simp), hrest]
    · have hne : key y ≠ key x := fun h => hn.1 (h ▸ List.mem_map_of_mem hx)
      rw [List.filter_cons_of_neg (by simpa using hne), ih hn.2 hx]

end

/-! ## Listings that can be computed -/

section

variable {α : Type} {price? : α → Except Breakdown (Option Price)}
  {direction : String} {items : List α} {L : List α}

def priced (price? : α → Except Breakdown (Option Price)) (x : α) : Except Breakdown (Option Price × α) := do
  pure (← price? x, x)

theorem sortByPrice_eq_ok : sortByPrice price? direction items = .ok L ↔
    ∃ ps, items.mapM (priced price?) = .ok ps ∧ byPrice (cheapestFirst direction) ps = L := by
  unfold sortByPrice
  rw [bind_eq_ok]
  exact exists_congr fun ps => and_congr_right fun _ => ⟨fun h => Except.ok.inj h, fun h => congrArg Except.ok h⟩

theorem mapM_priced_eq_ok {ps : List (Option Price × α)} :
    items.mapM (priced price?) = .ok ps ↔ ps.map Prod.snd = items ∧ ∀ i ∈ ps, price? i.2 = .ok i.1 := by
  induction items generalizing ps with
  | nil => cases ps <;> simp [pure, Except.pure]
  | cons x items ih =>
    rw [List.mapM_cons, bind_eq_ok]
    constructor
    · rintro ⟨i, hi, h⟩
      obtain ⟨is, his, h⟩ := bind_eq_ok.mp h
      cases h
      obtain ⟨p, hp, hx⟩ := bind_eq_ok.mp hi
      cases hx
      obtain ⟨hitems, hprices⟩ := ih.mp his
      exact ⟨by rw [List.map_cons, hitems], List.forall_mem_cons.mpr ⟨hp, hprices⟩⟩
    · rintro ⟨hitems, hprices⟩
      cases ps with
      | nil => cases hitems
      | cons i is =>
        obtain ⟨hi, his⟩ := List.forall_mem_cons.mp hprices
        obtain ⟨rfl, rfl⟩ := List.cons.inj hitems
        exact ⟨i, bind_eq_ok.mpr ⟨i.1, hi, rfl⟩, bind_eq_ok.mpr ⟨is, ih.mpr ⟨rfl, his⟩, rfl⟩⟩

theorem mapM_priced_error {b : Breakdown} (h : items.mapM (priced price?) = .error b) :
    ∃ x ∈ items, price? x = .error b := by
  induction items with
  | nil => cases h
  | cons x items ih =>
    rw [List.mapM_cons] at h
    cases hp : price? x with
    | error b' =>
      have hx : priced price? x = .error b' := by rw [priced, hp]; rfl
      rw [hx] at h
      cases h
      exact ⟨x, List.mem_cons_self .., hp⟩
    | ok p =>
      have hx : priced price? x = .ok (p, x) := by rw [priced, hp]; rfl
      rw [hx] at h
      cases his : items.mapM (priced price?) with
      | error b' =>
        rw [his] at h
        cases h
        obtain ⟨y, hy, hb⟩ := ih his
        exact ⟨y, List.mem_cons_of_mem _ hy, hb⟩
      | ok is =>
        rw [his] at h
        cases h

/-- **A listing holds its items, each as often as it was there.** -/
theorem sortByPrice_perm (h : sortByPrice price? direction items = .ok L) : L.Perm items := by
  obtain ⟨ps, hps, rfl⟩ := sortByPrice_eq_ok.mp h
  have hitems := byPrice_perm (cheapestFirst direction) ps
  rwa [(mapM_priced_eq_ok.mp hps).1] at hitems

theorem sortByPrice_once {key : α → String} {q : α → Bool}
    (h : sortByPrice price? direction (items.filter q) = .ok L) (hn : (items.map key).Nodup) {x : α}
    (hx : x ∈ items)
    (hq : q x = true) : Once key x L := by
  have hperm := sortByPrice_perm h
  have hkeys : ((items.filter q).map key).Nodup := hn.sublist (List.filter_sublist.map key)
  exact once_of_nodup ((hperm.map key).nodup_iff.mpr hkeys) (hperm.mem_iff.mpr (List.mem_filter.mpr ⟨hx, hq⟩))

/-- **Items can be left out before or after.** -/
theorem sortByPrice_filter (h : sortByPrice price? direction items = .ok L) (q : α → Bool) :
    sortByPrice price? direction (items.filter q) = .ok (L.filter q) := by
  obtain ⟨ps, hps, rfl⟩ := sortByPrice_eq_ok.mp h
  obtain ⟨rfl, hprices⟩ := mapM_priced_eq_ok.mp hps
  refine sortByPrice_eq_ok.mpr ⟨ps.filter fun i => q i.2, ?_, (byPrice_filter q _ ps).symm⟩
  exact mapM_priced_eq_ok.mpr ⟨List.filter_map.symm, fun i hi => hprices i (List.mem_filter.mp hi).1⟩

theorem sortByPrice_ok (h : sortByPrice price? direction items = .ok L) : ∀ x ∈ items, ∃ p, price? x = .ok p := by
  obtain ⟨ps, hps, _⟩ := sortByPrice_eq_ok.mp h
  obtain ⟨rfl, hprices⟩ := mapM_priced_eq_ok.mp hps
  intro x hx
  obtain ⟨i, hi, rfl⟩ := List.mem_map.mp hx
  exact ⟨i.1, hprices i hi⟩

theorem sortByPrice_error {b : Breakdown} (h : sortByPrice price? direction items = .error b) :
    ∃ x ∈ items, price? x = .error b := by
  cases hps : items.mapM (priced price?) with
  | error b' =>
    have : sortByPrice price? direction items = .error b' := by
      unfold sortByPrice
      exact congrArg (· >>= _) hps
    cases this.symm.trans h
    exact mapM_priced_error hps
  | ok ps => cases (sortByPrice_eq_ok.mpr ⟨ps, hps, rfl⟩).symm.trans h

theorem sortByPrice_total (h : ∀ x ∈ items, ∃ p, price? x = .ok p) :
    ∃ L, sortByPrice price? direction items = .ok L := by
  cases hL : sortByPrice price? direction items with
  | ok L => exact ⟨L, rfl⟩
  | error b =>
    obtain ⟨x, hx, hb⟩ := sortByPrice_error hL
    obtain ⟨p, hp⟩ := h x hx
    cases hp.symm.trans hb

theorem listing_eq_ok {β : Type} {x : Except ServiceError β} {y : Except Breakdown (List α)} :
    (reported x >>= fun _ => computed y) = .ok L ↔ (∃ d, x = .ok d) ∧ y = .ok L := by
  rw [bind_eq_ok]
  constructor
  · rintro ⟨d, hd, h⟩
    exact ⟨⟨d, reported_eq_ok.mp hd⟩, computed_eq_ok.mp h⟩
  · rintro ⟨⟨d, hd⟩, h⟩
    exact ⟨d, reported_eq_ok.mpr hd, computed_eq_ok.mpr h⟩

end

end Tradepost.Listing
