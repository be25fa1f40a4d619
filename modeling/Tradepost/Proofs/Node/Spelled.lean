import Tradepost.Proofs.Node.Found
import Tradepost.Proofs.Text.Folding

/-!
# Every spelling of a direction

A direction is read by its upper case and matched against offers by its lower
case. The two agree on every accepted spelling but those with a long s: they
are read as the direction of the seller and match no offer.
-/

namespace Tradepost

open Text

theorem Direction.ofName?_eq_some {s : String} {D : Direction} : ofName? s = some D ↔ s = D.name := by
  constructor
  · intro h
    unfold Direction.ofName? at h
    have hname : D.name = s := by simpa using List.find?_some h
    exact hname.symm
  · rintro rfl
    cases D <;> rfl

theorem Direction.parse_text_eq_ok {d : String} {D : Direction} :
    Direction.parse (.text d) = .ok D ↔ upper d = D.name := by
  rw [← Direction.ofName?_eq_some]
  unfold Direction.parse
  dsimp only
  cases Direction.ofName? (upper d) with
  | none => exact ⟨fun h => (nomatch h), fun h => (nomatch h)⟩
  | some D' => exact ⟨fun h => congrArg some (Except.ok.inj h), fun h => congrArg Except.ok (Option.some.inj h)⟩

section

variable {d : String} {D : Direction}

/-- The long s is the only lookalike that can spell a direction. -/
theorem Direction.lookalike_longS (hd : upper d = D.name) {c : Char} (hc : c ∈ d.toList)
    (h : c.toNat ∈ lookalikes) : c = longS ∧ D = .sell := by
  have hsub : (upperChar (Char.ofNat c.toNat)).Sublist D.name.toList := by
    rw [Char.ofNat_toNat, ← hd]
    exact upperChar_sublist hc
  -- few enough to try them all
  have hspelled : ∀ n ∈ lookalikes, ∀ D : Direction,
      (upperChar (Char.ofNat n)).Sublist D.name.toList → Char.ofNat n = longS ∧ D = .sell := by
    intro n hn D
    cases D <;> revert n <;> decide +kernel
  have := hspelled _ h D hsub
  rwa [Char.ofNat_toNat] at this

theorem Direction.lower_spelled (hd : upper d = D.name) (hs : longS ∉ d.toList) : lower d = lower D.name := by
  have hname : IsAscii D.name.toList := by cases D <;> decide
  have hascii : IsAscii d.toList := by
    refine isAscii_of_upper (by rwa [hd]) fun c hc h => hs ?_
    obtain ⟨rfl, _⟩ := Direction.lookalike_longS hd hc h
    exact hc
  rw [← lower_upper hascii, hd]

theorem Direction.lower_longS (hs : longS ∈ d.toList) (D : Direction) : lower D.name ≠ lower d := by
  intro h
  have hmem := longS_mem_lower hs
  rw [← h] at hmem
  revert hmem
  cases D <;> decide +kernel

theorem Offer.matches_spelled (hd : upper d = D.name) (hs : longS ∉ d.toList) (currency : String) :
    Offer.matches d currency = Offer.matches D.name currency := by
  funext o
  unfold Offer.matches
  rw [Direction.lower_spelled hd hs]

theorem Offer.matches_longS (hs : longS ∈ d.toList) (currency : String) (o : Offer) :
    o.matches d currency = false := by
  unfold Offer.matches
  rw [decide_eq_false (Direction.lower_longS hs _), Bool.false_and]

theorem Listing.sortByPrice_spelled {α : Type} (hd : upper d = D.name)
    (price? : α → Except Breakdown (Option Price)) : sortByPrice price? d = sortByPrice price? D.name := by
  have hcheapest : cheapestFirst d = cheapestFirst D.name := by
    unfold cheapestFirst
    rw [hd]
    cases D <;> decide
  funext items
  unfold sortByPrice
  rw [hcheapest]

end

namespace Node

open Registry Listing

variable {n : Node} {d currency : String} {D : Direction}

theorem getMyOffers_of_sorted (hd : Direction.parse (.text d) = .ok D) :
    n.getMyOffers d currency = computed (n.sortedOwn d currency) := by
  unfold getMyOffers
  rw [hd]
  rfl

/-! ## Spellings without a long s -/

theorem sorted_spelled (hd : upper d = D.name) (hs : longS ∉ d.toList) :
    n.sorted d currency = n.sorted D.name currency := by
  unfold sorted shows
  rw [sortByPrice_spelled hd, Offer.matches_spelled hd hs]

theorem sortedOwn_spelled (hd : upper d = D.name) (hs : longS ∉ d.toList) :
    n.sortedOwn d currency = n.sortedOwn D.name currency := by
  unfold sortedOwn
  rw [sortByPrice_spelled hd, Offer.matches_spelled hd hs]

/-! ## Spellings with one -/

theorem sorted_longS (hs : longS ∈ d.toList) : n.sorted d currency = .ok [] := by
  have hnone : (n.snapshotOffers.filter fun e => n.shows d currency e.2) = [] := by
    refine List.filter_eq_nil_iff.mpr fun e _ h => ?_
    obtain ⟨_, _, hm⟩ := shows_iff.mp h
    rw [Offer.matches_longS hs] at hm
    cases hm
  unfold sorted
  rw [hnone]
  rfl

theorem sortedOwn_longS (hs : longS ∈ d.toList) : n.sortedOwn d currency = .ok [] := by
  have hnone : (n.snapshotOwn.filter fun own =>
      own.offer.isOwnedBy n.fingerprint && own.offer.matches d currency) = [] := by
    refine List.filter_eq_nil_iff.mpr fun own _ h => ?_
    rw [Offer.matches_longS hs, Bool.and_false] at h
    cases h
  unfold sortedOwn
  rw [hnone]
  rfl

/-- **Every spelling of a direction lists the same, unless it is written with a long s.** In every
state of the node both listings answer to an accepted spelling what they answer to the name of the
direction. A spelling with a long s is accepted as well, as that of a seller, and both listings are
empty. -/
theorem listed_alike (hd : Direction.parse (.text d) = .ok D) (n : Node) (currency : String) :
    (longS ∉ d.toList → n.getOffers d currency = n.getOffers D.name currency ∧
      n.getMyOffers d currency = n.getMyOffers D.name currency) ∧
    (longS ∈ d.toList → D = .sell ∧ n.getOffers d currency = .ok [] ∧ n.getMyOffers d currency = .ok []) := by
  have hupper : upper d = D.name := Direction.parse_text_eq_ok.mp hd
  have hname : Direction.parse (.text D.name) = .ok D := Direction.parse_text_eq_ok.mpr (by cases D <;> decide)
  rw [getOffers_of_sorted hd, getMyOffers_of_sorted hd, getOffers_of_sorted hname, getMyOffers_of_sorted hname]
  constructor
  · intro hs
    rw [sorted_spelled hupper hs, sortedOwn_spelled hupper hs]
    exact ⟨rfl, rfl⟩
  · intro hs
    rw [sorted_longS hs, sortedOwn_longS hs]
    exact ⟨(Direction.lookalike_longS hupper hs (by decide)).2, rfl, rfl⟩

def selling (id owner : String) : Offer :=
  { payload := { (default : Payload) with
      id, owner, direction := .sell, baseCurrency := "BTC", counterCurrency := "EUR", price := 500000000
      amount := 1, minAmount := 1, paymentMethod := "SEPA" }
    state := .available }

def sellerListed : Node := oneListed.hear (selling "peer-2" "peer")

theorem sellerListed_reachable : sellerListed.Reachable := oneListed_reachable.hear _

theorem sellerListed_listing :
    sellerListed.getOffers "SELL" "EUR" = .ok [(1, (selling "peer-2" "peer").attached)] := by
  decide +kernel

theorem listed_alike_sellerListed : Direction.parse (.text "sElL") = .ok .sell ∧ longS ∉ "sElL".toList ∧
    sellerListed.getOffers "sElL" "EUR" = .ok [(1, (selling "peer-2" "peer").attached)] := by
  have hd : Direction.parse (.text "sElL") = .ok .sell := by decide +kernel
  have hs : longS ∉ "sElL".toList := by decide +kernel
  exact ⟨hd, hs, (((listed_alike hd sellerListed "EUR").1 hs).1).trans sellerListed_listing⟩

theorem listing_of_longS : sellerListed.Reachable ∧ Direction.parse (.text "\u017fell") = .ok .sell ∧
    sellerListed.getOffers "\u017fell" "EUR" = .ok [] ∧
    sellerListed.getOffers Direction.sell.name "EUR" = .ok [(1, (selling "peer-2" "peer").attached)] :=
  ⟨sellerListed_reachable, by decide +kernel, by decide +kernel, sellerListed_listing⟩

end Node

end Tradepost
