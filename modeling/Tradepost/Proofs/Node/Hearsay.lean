import Tradepost.Node.Query
import Tradepost.Proofs.Node.Reachable
import Tradepost.Proofs.Offer.Listing
import Tradepost.Proofs.Offer.Pricing

/-!
# What an offer of a peer does to the listing of others

An offer that comes in from a peer takes a place of its own among the offers
that are listed and leaves the others in theirs, unless its price cannot be
computed. Then there is no listing at all.
-/

namespace Tradepost.Node

open Number Registry

variable {n : Node} {x : Offer} {direction currency : String}

def nextOffer (n : Node) : Nat := n.registry.offers.nextNumber

/-! ## Snapshots -/

theorem offer?_heard (n : Node) (x : Offer) (k : Nat) :
    (n.hear x).registry.offer? k = if k = n.nextOffer then some x.attached else n.registry.offer? k := by
  have h : (n.registry.addNetworkOffer x).offer? k = if k = n.nextOffer
      then ((n.registry.fileOffer x).1.offer? k).map Offer.attached else (n.registry.fileOffer x).1.offer? k :=
    (congrArg (·.offer? k) (addNetworkOffer_eq n.registry x)).trans (offer?_amendOffer ..)
  refine h.trans ?_
  by_cases hk : k = n.nextOffer
  · rw [if_pos hk, if_pos hk, hk]
    exact congrArg _ (offer?_filed x)
  · rw [if_neg hk, if_neg hk]
    exact (Ledger.get?_add ..).trans (if_neg hk)

def listed (n : Node) : List Nat := n.bookView.getD n.registry.book.values

def numbered? (n : Node) (k : Nat) : Option (Nat × Offer) := (n.registry.offer? k).map (k, ·)

theorem snapshotOffers_eq (n : Node) : n.snapshotOffers = n.listed.filterMap n.numbered? := by
  unfold snapshotOffers listed
  cases n.bookView <;> rfl

theorem numbered?_number {k : Nat} {e : Nat × Offer} (h : n.numbered? k = some e) : e.1 = k := by
  obtain ⟨o, _, rfl⟩ := Option.map_eq_some_iff.mp h
  rfl

theorem mem_snapshotOffers {e : Nat × Offer} (h : e ∈ n.snapshotOffers) : n.registry.offer? e.1 = some e.2 := by
  rw [snapshotOffers_eq] at h
  obtain ⟨k, _, hk⟩ := List.mem_filterMap.mp h
  obtain ⟨o, ho, rfl⟩ := Option.map_eq_some_iff.mp hk
  exact ho

theorem filterMap_numbered (n : Node) (p : Nat → Bool) (ks : List Nat) :
    (ks.filterMap n.numbered?).filter (fun e => p e.1) = (ks.filter p).filterMap n.numbered? := by
  induction ks with
  | nil => rfl
  | cons k ks ih =>
    rw [List.filterMap_cons, List.filter_cons]
    cases hk : n.numbered? k with
    | none => cases hp : p k <;> simp [hk, ih]
    | some e =>
      have he := numbered?_number hk
      cases hp : p k <;> simp [hk, he, hp, ih]

theorem listed_hear (hx : n.registry.book.get? x.id = none) :
    (n.hear x).listed.filter (· ≠ n.nextOffer) = n.listed.filter (· ≠ n.nextOffer) := by
  have hbook : (n.hear x).registry.book = n.registry.book.insert x.id n.nextOffer := by
    show (n.registry.addNetworkOffer x).book = _
    rw [addNetworkOffer_eq]
    rfl
  show (n.bookView.getD (n.hear x).registry.book.values).filter _ = _
  unfold listed
  cases n.bookView with
  | some ks => rfl
  | none =>
    show (n.hear x).registry.book.values.filter _ = n.registry.book.values.filter _
    rw [hbook, OrderedMap.values_insert hx, List.filter_append]
    simp

/-- Without the new offer the snapshot is the one from before. -/
theorem snapshotOffers_hear (hx : n.registry.book.get? x.id = none) :
    (n.hear x).snapshotOffers.filter (fun e => e.1 ≠ n.nextOffer) = n.snapshotOffers := by
  have hsame : ∀ k ∈ n.listed.filter (· ≠ n.nextOffer), (n.hear x).numbered? k = n.numbered? k := by
    intro k hk
    have hne : k ≠ n.nextOffer := by simpa using (List.mem_filter.mp hk).2
    unfold numbered?
    rw [offer?_heard, if_neg hne]
  have hall : n.snapshotOffers.filter (fun e => e.1 ≠ n.nextOffer) = n.snapshotOffers := by
    refine List.filter_eq_self.mpr fun e he => ?_
    exact decide_eq_true (Nat.ne_of_lt (Ledger.lt_of_get? (mem_snapshotOffers he)))
  calc (n.hear x).snapshotOffers.filter (fun e => e.1 ≠ n.nextOffer)
      = ((n.hear x).listed.filter (· ≠ n.nextOffer)).filterMap (n.hear x).numbered? := by
        rw [snapshotOffers_eq]
        exact filterMap_numbered _ (· ≠ n.nextOffer) _
    _ = (n.listed.filter (· ≠ n.nextOffer)).filterMap n.numbered? := by
        rw [listed_hear hx, List.filterMap_congr hsame]
    _ = n.snapshotOffers := by
        rw [← filterMap_numbered n (· ≠ n.nextOffer), ← snapshotOffers_eq]
        exact hall

/-! ## Listings -/

def shows (n : Node) (direction currency : String) (o : Offer) : Bool :=
  !o.isOwnedBy n.fingerprint && o.matches direction currency && (n.refusal? o).isNone

def sorted (n : Node) (direction currency : String) : Except Breakdown (List (Nat × Offer)) :=
  Listing.sortByPrice (fun e => n.priceOf e.2) direction
    (n.snapshotOffers.filter fun e => n.shows direction currency e.2)

theorem getOffers_of_sorted {d : Direction} (hd : Direction.parse (.text direction) = .ok d) :
    n.getOffers direction currency = computed (n.sorted direction currency) := by
  unfold getOffers
  rw [hd]
  rfl

theorem getOffers_eq_ok {L : List (Nat × Offer)} : n.getOffers direction currency = .ok L ↔
    (∃ d, Direction.parse (.text direction) = .ok d) ∧ n.sorted direction currency = .ok L := by
  unfold getOffers
  exact Listing.listing_eq_ok

theorem sorted_hear (hx : n.registry.book.get? x.id = none) {L L' : List (Nat × Offer)}
    (hL : n.sorted direction currency = .ok L) (hL' : (n.hear x).sorted direction currency = .ok L') :
    L'.filter (fun e => e.1 ≠ n.nextOffer) = L := by
  have h := Listing.sortByPrice_filter hL' fun e => e.1 ≠ n.nextOffer
  rw [List.filter_filter] at h
  have hitems : ((n.hear x).snapshotOffers.filter fun e =>
      decide (e.1 ≠ n.nextOffer) && (n.hear x).shows direction currency e.2) =
        n.snapshotOffers.filter fun e => n.shows direction currency e.2 := by
    rw [← snapshotOffers_hear hx, List.filter_filter]
    exact List.filter_congr fun e _ => Bool.and_comm ..
  rw [hitems] at h
  exact Except.ok.inj (h.symm.trans hL)

structure BrokenBy (n : Node) (direction currency : String) (x : Offer) : Prop where
  listed : n.nextOffer ∈ (n.hear x).listed
  shown : n.shows direction currency x.attached = true
  market : x.payload.useMarketPrice = true
  price : ∃ quote b, x.attached.quote? n.quotes = some quote ∧ x.payload.marketPrice quote = .error b

theorem payload_attached (x : Offer) : x.attached.payload = x.payload := by
  unfold Offer.attached
  split <;> rfl

theorem BrokenBy.priceOf (h : n.BrokenBy direction currency x) : ∃ b, n.priceOf x.attached = .error b := by
  obtain ⟨quote, b, hq, hb⟩ := h.price
  refine ⟨b, price?_eq_error.mpr ⟨?_, quote, hq, ?_⟩⟩
  · rw [payload_attached, h.market]
  · rw [payload_attached, hb]

theorem sorted_hear_error (hx : n.registry.book.get? x.id = none) {L : List (Nat × Offer)} {b : Breakdown}
    (hL : n.sorted direction currency = .ok L) (hb : (n.hear x).sorted direction currency = .error b) :
    n.BrokenBy direction currency x := by
  obtain ⟨e, he, hprice⟩ := Listing.sortByPrice_error hb
  obtain ⟨hmem, hshown⟩ := List.mem_filter.mp he
  have ho := mem_snapshotOffers hmem
  rw [offer?_heard] at ho
  by_cases hk : e.1 = n.nextOffer
  · rw [if_pos hk] at ho
    have hxe : x.attached = e.2 := Option.some.inj ho
    rw [← hxe] at hshown hprice
    obtain ⟨hmarket, quote, hq, hbreak⟩ := price?_eq_error.mp hprice
    rw [payload_attached] at hmarket hbreak
    refine ⟨?_, hshown, hmarket, quote, b, hq, hbreak⟩
    rw [snapshotOffers_eq] at hmem
    obtain ⟨k, hlisted, hnumber⟩ := List.mem_filterMap.mp hmem
    rwa [← hk, numbered?_number hnumber]
  · -- an offer from before has a price
    have hold : e ∈ n.snapshotOffers := by
      rw [← snapshotOffers_hear hx]
      exact List.mem_filter.mpr ⟨hmem, by simpa using hk⟩
    obtain ⟨p, hp⟩ := Listing.sortByPrice_ok hL e (List.mem_filter.mpr ⟨hold, hshown⟩)
    cases hp.symm.trans hprice

theorem BrokenBy.sorted (h : n.BrokenBy direction currency x) :
    ∃ b, (n.hear x).sorted direction currency = .error b := by
  have hmem : (n.nextOffer, x.attached) ∈ (n.hear x).snapshotOffers := by
    rw [snapshotOffers_eq]
    refine List.mem_filterMap.mpr ⟨n.nextOffer, h.listed, ?_⟩
    rw [numbered?, offer?_heard, if_pos rfl]
    rfl
  cases hL : (n.hear x).sorted direction currency with
  | error b => exact ⟨b, rfl⟩
  | ok L =>
    obtain ⟨b, hb⟩ := h.priceOf
    obtain ⟨p, hp⟩ := Listing.sortByPrice_ok hL _ (List.mem_filter.mpr ⟨hmem, h.shown⟩)
    cases hp.symm.trans hb

theorem brokenBy_iff {quote : Decimal} (hm : x.payload.margin.OfFormat)
    (hquote : x.attached.quote? n.quotes = some quote) (hq : quote.Plain) :
    n.BrokenBy direction currency x ↔ n.nextOffer ∈ (n.hear x).listed ∧
      n.shows direction currency x.attached = true ∧ x.payload.useMarketPrice = true ∧
      x.payload.margin.isFinite = false := by
  constructor
  · intro h
    obtain ⟨quote', b, hquote', hb⟩ := h.price
    obtain rfl : quote = quote' := Option.some.inj (hquote.symm.trans hquote')
    exact ⟨h.listed, h.shown, h.market, (marketPrice_breaks_iff hq hm).mp ⟨b, hb⟩⟩
  · rintro ⟨hlisted, hshown, hmarket, hfinite⟩
    obtain ⟨b, hb⟩ := (marketPrice_breaks_iff hq hm).mpr hfinite
    exact ⟨hlisted, hshown, hmarket, quote, b, hquote, hb⟩

/-- **An offer of a peer leaves the listing of others as it was, unless its own price breaks down.**
In every state of the node, and whatever the offer holds: without the new offer the listing is the
one from before, in its order. Over a plain quote the price breaks down just if the margin is not
finite. -/
theorem listing_apart (hx : n.registry.book.get? x.id = none) {L : List (Nat × Offer)}
    (hL : n.getOffers direction currency = .ok L) :
    (¬ n.BrokenBy direction currency x → ∃ L', (n.hear x).getOffers direction currency = .ok L' ∧
      L'.filter (fun e => e.1 ≠ n.nextOffer) = L) ∧
    (n.BrokenBy direction currency x → ∃ b, (n.hear x).getOffers direction currency = .error (.breakdown b)) ∧
    (x.payload.margin.OfFormat → ∀ quote, x.attached.quote? n.quotes = some quote → quote.Plain →
      (n.BrokenBy direction currency x ↔ n.nextOffer ∈ (n.hear x).listed ∧
        n.shows direction currency x.attached = true ∧ x.payload.useMarketPrice = true ∧
        x.payload.margin.isFinite = false)) := by
  obtain ⟨⟨d, hd⟩, hL⟩ := getOffers_eq_ok.mp hL
  rw [getOffers_of_sorted hd]
  refine ⟨fun hsound => ?_, fun hbroken => ?_, fun hm quote hquote hq => brokenBy_iff hm hquote hq⟩
  · cases hL' : (n.hear x).sorted direction currency with
    | ok L' => exact ⟨L', rfl, sorted_hear hx hL hL'⟩
    | error b => exact absurd (sorted_hear_error hx hL hL') hsound
  · obtain ⟨b, hb⟩ := hbroken.sorted
    exact ⟨b, by rw [hb]; rfl⟩

def following (id : String) (margin : Binary64) : Offer :=
  { payload := { (default : Payload) with
      id, owner := "peer", baseCurrency := "BTC", counterCurrency := "EUR", useMarketPrice := true, margin
      amount := 1, minAmount := 1, paymentMethod := "SEPA" }
    state := .available }

def oneListed : Node := quoted.hear (following "peer-1" .zero)

theorem oneListed_reachable : oneListed.Reachable := (Reachable.fresh rfl rfl rfl : quoted.Reachable).hear _

theorem oneListed_quote :
    (following "peer-2" .zero).attached.quote? oneListed.quotes = some (.finite false 50000 0) := by
  decide +kernel

theorem oneListed_listing : oneListed.getOffers "BUY" "EUR" = .ok [(0, (following "peer-1" .zero).attached)] := by
  decide +kernel

theorem listing_apart_oneListed : ∃ L', (oneListed.hear (following "peer-2" .zero)).getOffers "BUY" "EUR" = .ok L' ∧
    L'.filter (fun e => e.1 ≠ 1) = [(0, (following "peer-1" .zero).attached)] := by
  obtain ⟨hsound, _, hbroken⟩ := listing_apart (x := following "peer-2" .zero) rfl oneListed_listing
  refine hsound fun h => ?_
  have hplain : (Decimal.finite false 50000 0).Plain := ⟨50000, 0, rfl, by norm_num [size]⟩
  obtain ⟨_, _, _, hfinite⟩ := (hbroken ⟨by decide, by decide⟩ _ oneListed_quote hplain).mp h
  cases hfinite

/-- A margin that is no number keeps everybody else's offers from being listed. -/
theorem listing_disturbed : oneListed.registry.book.get? "peer-2" = none ∧
    oneListed.getOffers "BUY" "EUR" = .ok [(0, (following "peer-1" .zero).attached)] ∧
    (oneListed.hear (following "peer-2" .nan)).getOffers "BUY" "EUR" = .error (.breakdown .notANumber) :=
  ⟨by decide +kernel, oneListed_listing, by decide +kernel⟩

end Tradepost.Node
