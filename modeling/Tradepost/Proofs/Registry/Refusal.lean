import Tradepost.Proofs.Registry.History
import Tradepost.Proofs.OrderedMap

/-!
# What a refused command leaves behind

A refused command leaves table, editing set and open offers as they were, and
of the offers it marks at most the one it was to place. The book stays as well,
but for one case: a removal clears its id away before it finds no open offer
there, and with it the entry that a peer may have under that id.
-/

namespace Tradepost.Registry

variable {r r' : Registry} {c : Command}

/-- The command is to remove an offer that is in the book without being an open offer. -/
structure Evicts (r : Registry) (c : Command) (id : String) : Prop where
  removal : c.verb = .remove
  about : r.about? c = some id
  foreign : r.table.get? id = none
  booked : r.book.get? id ≠ none

structure Rebuffed (r : Registry) (c : Command) (r' : Registry) : Prop where
  table : r'.table = r.table
  editing : r'.editing = r.editing
  openOffers : r'.openOffers = r.openOffers
  offers : ∀ n, r'.offer? n = r.offer? n ∨
    ∃ t, c = .place n t ∧ r'.offer? n = (r.offer? n).map fun o => { o with error? := some (amountsText o.payload) }
  evicted : ∀ {id}, r.Evicts c id → r'.book = r.book.erase id
  kept : (∀ id, ¬ r.Evicts c id) → r'.book = r.book

theorem Rebuffed.refl (h : ∀ id, ¬ r.Evicts c id) : Rebuffed r c r where
  table := rfl
  editing := rfl
  openOffers := rfl
  offers _ := .inl rfl
  evicted {id} he := absurd he (h id)
  kept _ := rfl

theorem not_evicts (h : c.verb ≠ .remove) (id : String) : ¬ r.Evicts c id := fun he => h he.removal

theorem rebuffed_amend (n : Nat) (t : Int) :
    Rebuffed r (.place n t) (r.amendOffer n fun o => { o with error? := some (amountsText o.payload) }) where
  table := rfl
  editing := rfl
  openOffers := rfl
  offers m := by
    rw [offer?_amendOffer]
    by_cases hm : m = n
    · exact .inr ⟨t, by rw [hm], if_pos hm⟩
    · exact .inl (if_neg hm)
  evicted he := absurd he.removal nofun
  kept _ := rfl

theorem Keyed.rebuffed_cleared (h : r.Keyed) {n : Nat} {id : String} (hn : r.idOf? n = some id)
    (hk : r.table.get? id = none) : Rebuffed r (.remove n) (r.cleared id) where
  table := OrderedMap.erase_eq_self hk
  editing := by
    refine List.filter_eq_self.mpr fun id' he => ?_
    have : id' ≠ id := fun x => h.not_marked hk (x ▸ he)
    simpa using this
  openOffers := rfl
  offers _ := .inl rfl
  evicted {id'} he := by
    obtain rfl : id = id' := Option.some.inj (hn.symm.trans he.about)
    rfl
  kept hno := by
    cases hb : r.book.get? id with
    | none => exact OrderedMap.erase_eq_self hb
    | some k => exact absurd ⟨rfl, hn, hk, by simp [hb]⟩ (hno id)

theorem Keyed.rebuffed (h : r.Keyed) {m : String} (e : Effect r c r' (.refused m)) : Rebuffed r c r' := by
  cases e with
  | dangling ha =>
    refine .refl fun id he => ?_
    cases ha.symm.trans he.about
  | invalid _ _ => exact rebuffed_amend _ _
  | taken _ _ _ => exact .refl (not_evicts nofun)
  | unstartable _ _ => exact .refl (not_evicts nofun)
  | unstarted _ _ => exact .refl (not_evicts nofun)
  | absent hn hk => exact h.rebuffed_cleared hn hk

/-- An eviction shows: the id it is about was in the book. -/
theorem Rebuffed.book_eq_iff (h : Rebuffed r c r') : r'.book = r.book ↔ ¬ ∃ id, r.Evicts c id := by
  constructor
  · rintro hb ⟨id, he⟩
    have hid := OrderedMap.get?_erase r.book id id
    rw [← h.evicted he, hb, if_pos rfl] at hid
    exact he.booked hid
  · exact fun hno => h.kept (not_exists.mp hno)

/-- **A refused command leaves every collection alone, unless it evicts.** After any history,
whatever peers have announced and whatever the command is about; an eviction takes its id out of the
book and does nothing else. -/
theorem refused_after (actions : List Action) {c : Command} {m : String}
    (h : ((after {} actions).run c).2 = .refused m) :
    Rebuffed (after {} actions) c ((after {} actions).run c).1 ∧
      ((((after {} actions).run c).1.book = (after {} actions).book ∧
          ((after {} actions).run c).1.table = (after {} actions).table ∧
          ((after {} actions).run c).1.editing = (after {} actions).editing) ↔
        ¬ ∃ id, (after {} actions).Evicts c id) := by
  have e := run_effect (after {} actions) c
  rw [h] at e
  have hr := (keyed_empty.after actions).rebuffed e
  refine ⟨hr, ?_⟩
  rw [← hr.book_eq_iff]
  exact ⟨fun x => x.1, fun x => ⟨x, hr.table, hr.editing⟩⟩

theorem refused_after_busyHistory :
    ((after {} busyHistory).run (.place 2 7)).2 = .refused "offer own-1 is already placed" ∧
      ((after {} busyHistory).run (.place 2 7)).1.book = (after {} busyHistory).book :=
  have h : ((after {} busyHistory).run (.place 2 7)).2 = .refused "offer own-1 is already placed" := by decide
  ⟨h, ((refused_after busyHistory h).2.mpr fun ⟨_, he⟩ => absurd he.removal (by decide)).1⟩

def reusedId : List Action := [
  .makeOffer (Offer.small "me" "own-1"), .command (.place 0 0), .command (.remove 0),
  .makeOffer (Offer.small "peer" "own-1"), .announce 1]

/-- The own offer is removed once more: the answer is a refusal, and the offer of the peer is gone.
-/
theorem refused_removal_evicts :
    ((after {} reusedId).run (.remove 0)).2 = .refused "open offer own-1 not found" ∧
      (after {} reusedId).book.get? "own-1" = some 1 ∧
        ((after {} reusedId).run (.remove 0)).1.book.get? "own-1" = none := by
  decide

end Tradepost.Registry
