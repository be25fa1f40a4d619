import Tradepost.Proofs.Offer.Listing

/-!
# The order of a listing

A listing puts the items that have a price in front of those that have none.
The prices rise for a buyer and fall for a seller, and either way items that
the order does not tell apart stay as they were found.
-/

namespace Tradepost.Listing

section

variable {α : Type} {price? : α → Except Breakdown (Option Price)} {direction : String} {items L : List α}

def value? (price : Except Breakdown (Option Price)) : Option Int := price.toOption.join.map Price.value

/-! ## Both parts -/

structure Parts (price? : α → Except Breakdown (Option Price)) (rising : Bool) (P U : List α) : Prop where
  priced : ∀ x ∈ P, (value? (price? x)).isSome = true
  unpriced : ∀ x ∈ U, value? (price? x) = none
  sorted : P.Pairwise fun x y => ∀ v w, value? (price? x) = some v → value? (price? y) = some w →
    if rising then v ≤ w else w ≤ v

theorem sortByPrice_parts (h : sortByPrice price? direction items = .ok L) :
    ∃ P U, L = P ++ U ∧ Parts price? (cheapestFirst direction) P U := by
  obtain ⟨ps, hps, rfl⟩ := sortByPrice_eq_ok.mp h
  have hprice := (mapM_priced_eq_ok.mp hps).2
  have hvalue : ∀ a ∈ (ps.filterMap valued?).insertionSort (Ahead (cheapestFirst direction)),
      value? (price? a.2) = some a.1 := by
    intro a ha
    obtain ⟨⟨p, x⟩, hi, hvalued⟩ := List.mem_filterMap.mp ((List.mem_insertionSort _).mp ha)
    obtain ⟨q, rfl, rfl⟩ := Option.map_eq_some_iff.mp hvalued
    rw [hprice _ hi]
    rfl
  refine ⟨_, _, byPrice_eq _ ps, ?_, ?_, ?_⟩
  · intro x hx
    obtain ⟨a, ha, rfl⟩ := List.mem_map.mp hx
    rw [hvalue a ha]
    rfl
  · intro x hx
    obtain ⟨⟨p, y⟩, hi, hnone⟩ := List.mem_filterMap.mp hx
    cases p with
    | some q => cases hnone
    | none =>
      cases hnone
      rw [hprice _ hi]
      rfl
  · rw [List.pairwise_map]
    apply (List.pairwise_insertionSort (Ahead (cheapestFirst direction)) _).imp_of_mem
    intro a b ha hb hab v w hv hw
    obtain rfl := Option.some.inj ((hvalue a ha).symm.trans hv)
    obtain rfl := Option.some.inj ((hvalue b hb).symm.trans hw)
    exact hab

/-! ## Items that stay in their order -/

theorem byPrice_level {v : Option Int} {cheapest : Bool} {ps : List (Option Price × α)}
    (h : ∀ i ∈ ps, i.1.map Price.value = v) : byPrice cheapest ps = ps.map Prod.snd := by
  rw [byPrice_eq]
  cases v with
  | none =>
    have hnone : ∀ i ∈ ps, i.1 = none := fun i hi => Option.map_eq_none_iff.mp (h i hi)
    have hvalued : ps.filterMap valued? = [] := by
      apply List.filterMap_eq_nil_iff.mpr
      intro i hi
      simp [valued?, hnone i hi]
    have hunpriced : ps.filterMap unpriced? = ps.filterMap fun i => some i.2 := by
      apply List.filterMap_congr
      intro i hi
      simp [unpriced?, hnone i hi]
    rw [hvalued, hunpriced, List.filterMap_eq_map']
    rfl
  | some v =>
    have hvalued : ps.filterMap valued? = ps.filterMap fun i => some (v, i.2) := by
      apply List.filterMap_congr
      intro i hi
      obtain ⟨p, hp, rfl⟩ := Option.map_eq_some_iff.mp (h i hi)
      simp [valued?, hp]
    have hunpriced : ps.filterMap unpriced? = [] := by
      apply List.filterMap_eq_nil_iff.mpr
      intro i hi
      obtain ⟨p, hp, _⟩ := Option.map_eq_some_iff.mp (h i hi)
      simp [unpriced?, hp]
    have hsorted : (ps.map fun i => (v, i.2)).Pairwise (Ahead cheapest) := by
      rw [List.pairwise_map]
      apply List.pairwise_of_forall
      intro i j
      unfold Ahead
      split <;> exact Int.le_refl v
    rw [hvalued, hunpriced, List.filterMap_eq_map', hsorted.insertionSort_eq, List.append_nil, List.map_map]
    rfl

theorem sortByPrice_level {v : Option Int} (h : sortByPrice price? direction items = .ok L)
    (hv : ∀ x ∈ items, value? (price? x) = v) : L = items := by
  obtain ⟨ps, hps, rfl⟩ := sortByPrice_eq_ok.mp h
  obtain ⟨rfl, hprice⟩ := mapM_priced_eq_ok.mp hps
  refine byPrice_level (v := v) fun i hi => ?_
  have hi' := hv i.2 (List.mem_map_of_mem hi)
  rwa [hprice i hi] at hi'

theorem sortByPrice_stable (h : sortByPrice price? direction items = .ok L) (v : Option Int) :
    L.filter (fun x => value? (price? x) = v) = items.filter fun x => value? (price? x) = v := by
  -- what is picked out of a listing is the listing of what was picked out before
  apply sortByPrice_level (sortByPrice_filter h fun x => value? (price? x) = v)
  intro x hx
  exact of_decide_eq_true (List.mem_filter.mp hx).2

/-! ## Offers by price -/

/-- **A listing is a stable sort by price.** Offers, bare or wrapped, whose prices can all be
computed are listed, each as often as it was there: by price those that have one, from the cheapest
one for a buyer and from the dearest one otherwise, and behind them those that have none. Offers of
one value, and those without one, keep their order. -/
theorem listed_by_price {node : Quotes} {offerOf : α → Offer}
    (h : ∀ x ∈ items, ∃ p, (offerOf x).price? node = .ok p)
    (direction : String) :
    ∃ P U, sortByPrice (fun x => (offerOf x).price? node) direction items = .ok (P ++ U) ∧ (P ++ U).Perm items ∧
      Parts (fun x => (offerOf x).price? node) (Text.upper direction = "BUY") P U ∧
      ∀ v, (P ++ U).filter (fun x => value? ((offerOf x).price? node) = v) =
        items.filter fun x => value? ((offerOf x).price? node) = v := by
  obtain ⟨L, hL⟩ : ∃ L, sortByPrice (fun x => (offerOf x).price? node) direction items = .ok L :=
    sortByPrice_total h
  obtain ⟨P, U, rfl, hparts⟩ := sortByPrice_parts hL
  exact ⟨P, U, hL, sortByPrice_perm hL, hparts, fun v => sortByPrice_stable hL v⟩

end

def euroOffer (id : String) (price : Option Int) : Offer :=
  { payload := { (default : Payload) with
      id, baseCurrency := bitcoin, counterCurrency := "EUR", price := price.getD 0, useMarketPrice := price.isNone }
    feed := .node }

def detachedOffer (id : String) : Offer := { euroOffer id none with feed := .detached }

def mixed : List (Nat × Offer) :=
  [(4, detachedOffer "a"), (2, euroOffer "b" (some 20000)), (3, euroOffer "c" none),
    (1, euroOffer "d" (some 20000)), (0, detachedOffer "e")]

def mixedQuotes : Quotes := .ofList [("EUR", .finite false 1 0)]

theorem mixed_computed : ∀ x ∈ mixed, ∃ p, x.2.price? mixedQuotes = .ok p := by
  have hok : ∀ x ∈ mixed, (x.2.price? mixedQuotes).toOption.isSome = true := by decide +kernel
  intro x hx
  cases hp : x.2.price? mixedQuotes with
  | ok p => exact ⟨p, rfl⟩
  | error b =>
    have := hok x hx
    rw [hp] at this
    cases this

theorem listed_by_price_mixed : ∃ P U,
    sortByPrice (fun x => x.2.price? mixedQuotes) "Sell" mixed = .ok (P ++ U) ∧
      (P ++ U).map Prod.fst = [2, 1, 3, 4, 0] ∧ Parts (fun x => x.2.price? mixedQuotes) false P U ∧
      (P ++ U).filter (fun x => value? (x.2.price? mixedQuotes) = some 20000) =
        mixed.filter fun x => value? (x.2.price? mixedQuotes) = some 20000 := by
  obtain ⟨P, U, hL, _, hparts, hstable⟩ := listed_by_price mixed_computed "Sell"
  have hids : (sortByPrice (fun x : Nat × Offer => x.2.price? mixedQuotes) "Sell" mixed).toOption.map
    (·.map Prod.fst) =
      some [2, 1, 3, 4, 0] := by decide +kernel
  rw [hL] at hids
  exact ⟨P, U, hL, Option.some.inj hids, hparts, hstable (some 20000)⟩

end Tradepost.Listing
