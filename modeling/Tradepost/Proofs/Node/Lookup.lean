import Tradepost.Proofs.Node.Reachable
import Tradepost.Proofs.Registry.Behind

/-!
# Own offers by id

An own offer that is found by its id is told by the contents of the registry
alone, and it is the one that is found among the snapshots.
-/

namespace Tradepost

namespace Registry

def Contents.own? (c : Contents) (owner id : String) : Option Entry :=
  (c.table.get? id).join.filter (·.offer.isOwnedBy owner)

theorem Contents.own?_congr {c c' : Contents} {id : String} (h : c'.table.get? id = c.table.get? id)
    (owner : String) :
    c'.own? owner id = c.own? owner id := by
  unfold Contents.own?
  rw [h]

theorem Contents.own?_table {c : Contents} {owner id : String} {e : Entry} (h : c.own? owner id = some e) :
    c.table.get? id ≠ none := by
  intro hn
  unfold Contents.own? at h
  rw [hn] at h
  cases h

theorem Keyed.lookup {r : Registry} (h : r.Keyed) {id : String} {own : Own} (hl : r.lookup? id = some own) :
    r.table.get? id = some own.number ∧ r.own? own.number = some own ∧ own.offer.id = id := by
  obtain ⟨k, hk, hown⟩ := Option.bind_eq_some_iff.mp hl
  obtain ⟨own', hown', hid⟩ := h.own hk
  obtain rfl : own = own' := Option.some.inj (hown.symm.trans hown')
  obtain rfl : own.number = k := (own?_eq_some.mp hown).1
  exact ⟨hk, hown, hid⟩

theorem lookup_entry (r : Registry) (id : String) :
    (r.lookup? id).map Own.entry = (r.contents.table.get? id).join := by
  unfold lookup? contents
  rw [OrderedMap.get?_map]
  cases r.table.get? id <;> rfl

theorem get?_contents_table (r : Registry) (id : String) :
    r.contents.table.get? id = none ↔ r.table.get? id = none := by
  unfold contents
  rw [OrderedMap.get?_map]
  exact Option.map_eq_none_iff

end Registry

namespace Node

open Registry

variable {n : Node}

theorem getMyOpenOffer_ok {id : String} {own : Own} (h : n.getMyOpenOffer id = .ok own) :
    n.registry.lookup? id = some own ∧ own.offer.isOwnedBy n.fingerprint = true := by
  unfold getMyOpenOffer at h
  split at h
  · rename_i o ho
    split at h
    · rename_i hw
      cases h
      exact ⟨ho, hw⟩
    · cases h
  · cases h

/-- Own offers by id are told by the contents alone. -/
theorem getMyOpenOffer_entry (n : Node) (id : String) :
    (n.getMyOpenOffer id).toOption.map Own.entry = n.registry.contents.own? n.fingerprint id := by
  unfold Contents.own? getMyOpenOffer
  rw [← lookup_entry]
  cases n.registry.lookup? id with
  | none => rfl
  | some own =>
    dsimp only
    by_cases h : own.offer.isOwnedBy n.fingerprint = true
    · simp [h, Own.entry, Except.toOption, Option.filter]
    · simp [h, Own.entry, Except.toOption, Option.filter]

theorem own?_of_getMyOpenOffer {id : String} {own : Own} (h : n.getMyOpenOffer id = .ok own) :
    n.registry.contents.own? n.fingerprint id = some own.entry := by
  rw [← getMyOpenOffer_entry, h]
  rfl

theorem own?_of_unknown {id : String} {e : ServiceError} (h : n.getMyOpenOffer id = .error e) :
    n.registry.contents.own? n.fingerprint id = none := by
  rw [← getMyOpenOffer_entry, h]
  rfl

theorem Sound.owned (h : n.Sound) {id : String} {own : Own} (ho : n.getMyOpenOffer id = .ok own) :
    n.registry.table.get? id = some own.number ∧ n.registry.own? own.number = some own ∧ own.offer.id = id :=
  h.keyed.lookup (getMyOpenOffer_ok ho).1

theorem Sound.mem_snapshotOwn (h : n.Sound) (own : Own) :
    own ∈ n.snapshotOwn ↔ n.registry.lookup? own.offer.id = some own := by
  rw [snapshotOwn, h.table]
  exact OrderedMap.mem_filterMap_values fun _ _ hk => h.keyed.own hk

theorem Sound.getMyOpenOffer_eq_ok (h : n.Sound) {id : String} {own : Own} : n.getMyOpenOffer id = .ok own ↔
    own ∈ n.snapshotOwn ∧ own.offer.id = id ∧ own.offer.isOwnedBy n.fingerprint = true := by
  constructor
  · intro ho
    obtain ⟨hl, hw⟩ := getMyOpenOffer_ok ho
    obtain ⟨_, _, rfl⟩ := h.keyed.lookup hl
    exact ⟨(h.mem_snapshotOwn own).mpr hl, rfl, hw⟩
  · rintro ⟨hown, rfl, hw⟩
    unfold getMyOpenOffer
    rw [(h.mem_snapshotOwn own).mp hown]
    exact if_pos hw

theorem getMyOpenOffer_error {id : String} {e : ServiceError} (h : n.getMyOpenOffer id = .error e) :
    e = .offerNotFound id none := by
  unfold getMyOpenOffer at h
  split at h
  · split at h
    · cases h
    · exact (Except.error.inj h).symm
  · exact (Except.error.inj h).symm

theorem Sound.getMyOffer_eq (h : n.Sound) (id : String) : n.getMyOffer id = n.getMyOpenOffer id := by
  unfold getMyOffer getMyOpenOffer
  cases hf : n.snapshotOwn.find? fun o => o.offer.id = id && o.offer.isOwnedBy n.fingerprint with
  | some own =>
    obtain ⟨rfl, hw⟩ : own.offer.id = id ∧ own.offer.isOwnedBy n.fingerprint = true := by
      simpa using List.find?_some hf
    have hl := (h.mem_snapshotOwn own).mp (List.mem_of_find?_eq_some hf)
    simp [hl, hw]
  | none =>
    cases hl : n.registry.lookup? id with
    | none => rfl
    | some own =>
      obtain ⟨_, _, rfl⟩ := h.keyed.lookup hl
      have := List.find?_eq_none.mp hf own ((h.mem_snapshotOwn own).mpr hl)
      simp at this
      simp [this]

end Node

end Tradepost
