import Tradepost.Proofs.Node.Hearsay
import Tradepost.Proofs.Node.Lookup

/-!
# What is listed and what is found

In every state of a node an id stands for one offer of the book and one own
offer at most, so nothing is listed twice. What a listing shows is what is
found by its id, and what is found is listed under its own direction and
currency.
-/

namespace Tradepost.Node

open Registry Listing

variable {n : Node} {direction currency id : String}

/-! ## Offers of others -/

def idOf (e : Nat × Offer) : String := e.2.id

theorem Sound.numbered (h : n.Sound) (id : String) (k : Nat) (hk : n.registry.book.get? id = some k) :
    ∃ e, n.numbered? k = some e ∧ idOf e = id := by
  obtain ⟨o, ho, hid⟩ := idOf?_eq_some.mp (h.keyed.book hk)
  exact ⟨(k, o), by rw [numbered?, ho]; rfl, hid⟩

theorem Sound.map_idOf (h : n.Sound) : n.snapshotOffers.map idOf = n.registry.book.keys := by
  rw [snapshotOffers_eq, listed, h.book]
  exact OrderedMap.map_filterMap_values h.numbered

theorem Sound.nodup_offers (h : n.Sound) : (n.snapshotOffers.map idOf).Nodup := by
  rw [h.map_idOf]
  exact n.registry.book.nodup

structure Takeable (n : Node) (e : Nat × Offer) : Prop where
  snapshot : e ∈ n.snapshotOffers
  foreign : e.2.isOwnedBy n.fingerprint = false
  accepted : n.refusal? e.2 = none

theorem Takeable.not_mine {e : Nat × Offer} (h : n.Takeable e) : e.2.payload.owner ≠ n.fingerprint :=
  of_decide_eq_false h.foreign

theorem shows_iff {o : Offer} : n.shows direction currency o = true ↔
    o.isOwnedBy n.fingerprint = false ∧ n.refusal? o = none ∧ o.matches direction currency = true := by
  unfold shows
  simp only [Bool.and_eq_true, Bool.not_eq_true', Option.isNone_iff_eq_none]
  exact ⟨fun ⟨⟨ho, hm⟩, hr⟩ => ⟨ho, hr, hm⟩, fun ⟨ho, hr, hm⟩ => ⟨⟨ho, hm⟩, hr⟩⟩

theorem mem_getOffers {L : List (Nat × Offer)} (hL : n.getOffers direction currency = .ok L) {e : Nat × Offer} :
    e ∈ L ↔ n.Takeable e ∧ e.2.matches direction currency = true := by
  rw [(sortByPrice_perm (getOffers_eq_ok.mp hL).2).mem_iff, List.mem_filter, shows_iff]
  exact ⟨fun ⟨he, ho, hr, hm⟩ => ⟨⟨he, ho, hr⟩, hm⟩, fun ⟨⟨he, ho, hr⟩, hm⟩ => ⟨he, ho, hr, hm⟩⟩

theorem Sound.once_listed (h : n.Sound) {L : List (Nat × Offer)} (hL : n.getOffers direction currency = .ok L)
    {e : Nat × Offer} (he : n.Takeable e) (hm : e.2.matches direction currency = true) : Once idOf e L :=
  sortByPrice_once (getOffers_eq_ok.mp hL).2 h.nodup_offers he.snapshot
    (shows_iff.mpr ⟨he.foreign, he.accepted, hm⟩)

theorem getOffer_ok {e : Nat × Offer} (h : n.getOffer id = .ok e) : n.Takeable e ∧ e.2.id = id := by
  unfold getOffer at h
  dsimp only at h
  split at h
  · rename_i o hfound
    cases h
    have he : e ∈ (n.candidates id).filter fun e => (n.refusal? e.2).isNone := hfound ▸ List.mem_singleton_self e
    obtain ⟨hmem, hr⟩ := List.mem_filter.mp he
    obtain ⟨hmem, hid⟩ := List.mem_filter.mp hmem
    obtain ⟨hid, ho⟩ := Bool.and_eq_true_iff.mp hid
    exact ⟨⟨hmem, by simpa using ho, Option.isNone_iff_eq_none.mp hr⟩, of_decide_eq_true hid⟩
  · cases h
  · cases h

theorem Sound.getOffer_id (h : n.Sound) {e : Nat × Offer} (he : n.Takeable e) : n.getOffer e.2.id = .ok e := by
  have honce : n.snapshotOffers.filter (fun x => x.2.id = e.2.id) = [e] := once_of_nodup h.nodup_offers he.snapshot
  have hfound : ((n.candidates e.2.id).filter fun x => (n.refusal? x.2).isNone) = [e] :=
    calc (n.candidates e.2.id).filter (fun x => (n.refusal? x.2).isNone)
        = (n.snapshotOffers.filter fun x => x.2.id = e.2.id).filter fun x =>
            (n.refusal? x.2).isNone && !x.2.isOwnedBy n.fingerprint := by
          unfold candidates
          rw [List.filter_filter, List.filter_filter]
          exact List.filter_congr fun x _ => ((Bool.and_right_comm ..).trans (Bool.and_assoc ..)).symm
      _ = [e] := by
          rw [honce]
          simp [he.foreign, he.accepted]
  unfold getOffer
  dsimp only
  rw [hfound]

theorem matches_self (o : Offer) : o.matches o.payload.direction.name o.payload.counterCurrency = true := by
  simp [Offer.matches]

/-- **Offers of others are listed as they are found.** In every state of the node: what a listing
shows is there once, is found by its id, and belongs to somebody else; and what is found by an id
belongs to somebody else and is shown once by the listing of its direction and currency, if there is
one. -/
theorem listed_as_found (h : n.Reachable) :
    (∀ direction currency L, n.getOffers direction currency = .ok L → ∀ e ∈ L,
      Once idOf e L ∧ n.getOffer e.2.id = .ok e ∧ e.2.payload.owner ≠ n.fingerprint) ∧
    ∀ id e, n.getOffer id = .ok e → e.2.id = id ∧ e.2.payload.owner ≠ n.fingerprint ∧
      ∀ L, n.getOffers e.2.payload.direction.name e.2.payload.counterCurrency = .ok L → Once idOf e L := by
  refine ⟨fun direction currency L hL e he => ?_, fun id e he => ?_⟩
  · obtain ⟨htakeable, hm⟩ := (mem_getOffers hL).mp he
    exact ⟨h.sound.once_listed hL htakeable hm, h.sound.getOffer_id htakeable, htakeable.not_mine⟩
  · obtain ⟨htakeable, hid⟩ := getOffer_ok he
    exact ⟨hid, htakeable.not_mine, fun L hL => h.sound.once_listed hL htakeable (matches_self e.2)⟩

def tenth : Binary64 := .ofDecimal false 1 (-1)

def ownFollowing : Offer :=
  { following "own-1" .zero with payload := { (following "own-1" .zero).payload with owner := "me" } }

def reannounced : Node :=
  ((oneListed.hear (following "peer-2" tenth)).hear ownFollowing).hear (following "peer-1" .zero)

theorem reannounced_reachable : reannounced.Reachable := ((oneListed_reachable.hear _).hear _).hear _

theorem listed_as_found_reannounced :
    ∃ L, reannounced.getOffers "BUY" "EUR" = .ok L ∧ L.map idOf = ["peer-2", "peer-1"] ∧
    (∀ e ∈ L, Once idOf e L ∧ reannounced.getOffer e.2.id = .ok e) ∧
    ∃ e, reannounced.getOffer "peer-1" = .ok e ∧ e.1 = 3 ∧ Once idOf e L := by
  have hL : reannounced.getOffers "BUY" "EUR" =
      .ok [(1, (following "peer-2" tenth).attached), (3, (following "peer-1" .zero).attached)] := by decide +kernel
  have he : reannounced.getOffer "peer-1" = .ok (3, (following "peer-1" .zero).attached) := by decide +kernel
  obtain ⟨hlisted, hfound⟩ := listed_as_found reannounced_reachable
  refine ⟨_, hL, by decide, fun e hmem => ?_, _, he, rfl, (hfound _ _ he).2.2 _ hL⟩
  obtain ⟨honce, hid, _⟩ := hlisted _ _ _ hL e hmem
  exact ⟨honce, hid⟩

/-! ## Own offers -/

def ownId (own : Own) : String := own.offer.id

theorem Sound.map_ownId (h : n.Sound) : n.snapshotOwn.map ownId = n.registry.table.keys := by
  rw [snapshotOwn, h.table]
  exact OrderedMap.map_filterMap_values fun _ _ hk => h.keyed.own hk

theorem Sound.nodup_own (h : n.Sound) : (n.snapshotOwn.map ownId).Nodup := by
  rw [h.map_ownId]
  exact n.registry.table.nodup

def sortedOwn (n : Node) (direction currency : String) : Except Breakdown (List Own) :=
  sortByPrice (fun own => n.priceOf own.offer) direction
    (n.snapshotOwn.filter fun own => own.offer.isOwnedBy n.fingerprint && own.offer.matches direction currency)

theorem getMyOffers_eq_ok {L : List Own} : n.getMyOffers direction currency = .ok L ↔
    (∃ d, Direction.parse (.text direction) = .ok d) ∧ n.sortedOwn direction currency = .ok L := by
  unfold getMyOffers
  exact listing_eq_ok

theorem mem_getMyOffers {L : List Own} (hL : n.getMyOffers direction currency = .ok L) {own : Own} :
    own ∈ L ↔ own ∈ n.snapshotOwn ∧ own.offer.isOwnedBy n.fingerprint = true ∧
      own.offer.matches direction currency = true := by
  rw [(sortByPrice_perm (getMyOffers_eq_ok.mp hL).2).mem_iff, List.mem_filter, Bool.and_eq_true]

theorem Sound.once_own (h : n.Sound) {L : List Own} (hL : n.getMyOffers direction currency = .ok L) {own : Own}
    (hown : own ∈ n.snapshotOwn) (hw : own.offer.isOwnedBy n.fingerprint = true)
    (hm : own.offer.matches direction currency = true) : Once ownId own L :=
  sortByPrice_once (getMyOffers_eq_ok.mp hL).2 h.nodup_own hown (Bool.and_eq_true_iff.mpr ⟨hw, hm⟩)

/-- **Own offers are listed as they are found.** In every state of the node: both ways of looking up
an own offer give the same one or none; what a listing of own offers shows is there once and is what
both give for its id; and what they give is shown once by the listing of its direction and currency,
if there is one. -/
theorem own_listed_as_found (h : n.Reachable) :
    (∀ id, (∃ own, own.offer.id = id ∧ n.getMyOffer id = .ok own ∧ n.getMyOpenOffer id = .ok own) ∨
      (n.getMyOffer id = .error (.offerNotFound id none) ∧
        n.getMyOpenOffer id = .error (.offerNotFound id none))) ∧
    (∀ direction currency L, n.getMyOffers direction currency = .ok L → ∀ own ∈ L,
      Once ownId own L ∧ n.getMyOffer own.offer.id = .ok own ∧ n.getMyOpenOffer own.offer.id = .ok own) ∧
    ∀ id own, n.getMyOpenOffer id = .ok own →
      ∀ L, n.getMyOffers own.offer.payload.direction.name own.offer.payload.counterCurrency = .ok L →
        Once ownId own L := by
  refine ⟨fun id => ?_, fun direction currency L hL own hown => ?_, fun id own hown L hL => ?_⟩
  · rw [h.sound.getMyOffer_eq]
    cases ho : n.getMyOpenOffer id with
    | ok own => exact .inl ⟨own, (h.sound.getMyOpenOffer_eq_ok.mp ho).2.1, rfl, rfl⟩
    | error e =>
      rw [getMyOpenOffer_error ho]
      exact .inr ⟨rfl, rfl⟩
  · obtain ⟨hmem, hw, hm⟩ := (mem_getMyOffers hL).mp hown
    have ho : n.getMyOpenOffer own.offer.id = .ok own := h.sound.getMyOpenOffer_eq_ok.mpr ⟨hmem, rfl, hw⟩
    exact ⟨h.sound.once_own hL hmem hw hm, (h.sound.getMyOffer_eq _).trans ho, ho⟩
  · obtain ⟨hmem, _, hw⟩ := h.sound.getMyOpenOffer_eq_ok.mp hown
    exact h.sound.once_own hL hmem hw (matches_self own.offer)

def ownBeingEdited : Node :=
  { registry := after {} [
      .makeOffer (Offer.small "me" "own-1"), .command (.place 0 0),
      .makeOffer (Offer.small "me" "own-2"), .command (.place 1 0), .command (.editStart 1),
      .makeOffer (Offer.small "me" "own-2"), .command (.editPublish 2 0 .deactivated), .command (.editStart 0)] }

theorem ownBeingEdited_reachable : ownBeingEdited.Reachable :=
  Reachable.after (.fresh rfl rfl rfl : Reachable {}) _

theorem own_listed_as_found_ownBeingEdited :
    ∃ L, ownBeingEdited.getMyOffers "BUY" "" = .ok L ∧ L.map ownId = ["own-1", "own-2"] ∧
    (∀ own ∈ L, Once ownId own L ∧ ownBeingEdited.getMyOffer own.offer.id = .ok own) ∧
    (∃ own, ownBeingEdited.getMyOpenOffer "own-2" = .ok own ∧ own.terms.state = .deactivated ∧ Once ownId own L) ∧
    ownBeingEdited.getMyOpenOffer "own-3" = .error (.offerNotFound "own-3" none) := by
  obtain ⟨L, hL, hids⟩ : ∃ L, ownBeingEdited.getMyOffers "BUY" "" = .ok L ∧ L.map ownId = ["own-1", "own-2"] :=
    ⟨_, rfl, by decide⟩
  obtain ⟨hlookup, hlisted, hfound⟩ := own_listed_as_found ownBeingEdited_reachable
  refine ⟨L, hL, hids, fun own hown => ?_, ?_, ?_⟩
  · obtain ⟨honce, hown, _⟩ := hlisted _ _ _ hL own hown
    exact ⟨honce, hown⟩
  · exact ⟨_, rfl, rfl, hfound "own-2" _ rfl L hL⟩
  · rcases hlookup "own-3" with ⟨own, _, hown, _⟩ | ⟨_, herror⟩
    · cases hown
    · exact herror

end Tradepost.Node
