import Tradepost.Proofs.Filter
import Tradepost.Proofs.Node.Found

/-!
# How an id is answered

An id is answered with the book's entry for it if this can be taken. If not,
the answer is that there is no such offer, with the first rule that the entry
breaks as the reason. An own offer is answered like an id nobody has.
-/

namespace Tradepost.Node

open Registry OfferFilter
open Text (upper)

variable {n : Node}

def entry? (n : Node) (id : String) : Option (Nat × Offer) := (n.registry.book.get? id).bind n.numbered?

theorem Sound.mem_snapshotOffers (h : n.Sound) (e : Nat × Offer) :
    e ∈ n.snapshotOffers ↔ n.entry? e.2.id = some e := by
  rw [snapshotOffers_eq, listed, h.book]
  exact OrderedMap.mem_filterMap_values h.numbered

theorem Sound.entry?_id (h : n.Sound) {id : String} {e : Nat × Offer} (he : n.entry? id = some e) :
    e.2.id = id := by
  obtain ⟨k, hk, hx⟩ := Option.bind_eq_some_iff.mp he
  obtain ⟨e', he', hid⟩ := h.numbered id k hk
  obtain rfl : e = e' := Option.some.inj (hx.symm.trans he')
  exact hid

theorem Sound.candidates_eq (h : n.Sound) (id : String) :
    n.candidates id = (n.entry? id).toList.filter fun e => !e.2.isOwnedBy n.fingerprint := by
  have hentry : n.snapshotOffers.filter (fun e => e.2.id = id) = (n.entry? id).toList := by
    cases he : n.entry? id with
    | some e =>
      obtain rfl := h.entry?_id he
      exact Listing.once_of_nodup h.nodup_offers ((h.mem_snapshotOffers e).mpr he)
    | none =>
      refine List.filter_eq_nil_iff.mpr fun e hmem hid => ?_
      obtain rfl : e.2.id = id := of_decide_eq_true hid
      cases he.symm.trans ((h.mem_snapshotOffers e).mp hmem)
  rw [← hentry, List.filter_filter]
  exact List.filter_congr fun e _ => Bool.and_comm ..

/-! ## The answers -/

section

variable {id : String} {e : Nat × Offer}

theorem Sound.getOffer_unknown (h : n.Sound) (he : n.entry? id = none) :
    n.getOffer id = .error (.offerNotFound id none) := by
  unfold getOffer
  rw [h.candidates_eq, he]
  rfl

theorem Sound.getOffer_own (h : n.Sound) (he : n.entry? id = some e) (hw : e.2.isOwnedBy n.fingerprint = true) :
    n.getOffer id = .error (.offerNotFound id none) := by
  unfold getOffer
  rw [h.candidates_eq, he]
  simp [hw]

theorem Sound.getOffer_refused (h : n.Sound) (he : n.entry? id = some e) (hw : e.2.isOwnedBy n.fingerprint = false)
    {r : Refusal} (hr : n.refusal? e.2 = some r) : n.getOffer id = .error (.offerNotFound id (some r.text)) := by
  unfold getOffer
  rw [h.candidates_eq, he]
  simp [hw, hr]

theorem Sound.getOffer_taken (h : n.Sound) (he : n.entry? id = some e) (hw : e.2.isOwnedBy n.fingerprint = false)
    (hr : n.refusal? e.2 = none) : n.getOffer id = .ok e := by
  unfold getOffer
  rw [h.candidates_eq, he]
  simp [hw, hr]

end

inductive Answer (n : Node) (id : String) : Except ServiceError (Nat × Offer) → Prop where
  | unknown : n.entry? id = none → Answer n id (.error (.offerNotFound id none))
  | own {e : Nat × Offer} : n.entry? id = some e → e.2.isOwnedBy n.fingerprint = true →
      Answer n id (.error (.offerNotFound id none))
  | refused {e : Nat × Offer} {r : Refusal} : n.entry? id = some e → e.2.isOwnedBy n.fingerprint = false →
      n.refusal? e.2 = some r → Answer n id (.error (.offerNotFound id (some r.text)))
  | taken {e : Nat × Offer} : n.entry? id = some e → e.2.isOwnedBy n.fingerprint = false → n.refusal? e.2 = none →
      Answer n id (.ok e)

theorem Sound.answer (h : n.Sound) (id : String) : n.Answer id (n.getOffer id) := by
  cases he : n.entry? id with
  | none => exact h.getOffer_unknown he ▸ .unknown he
  | some e =>
    cases hw : e.2.isOwnedBy n.fingerprint with
    | true => exact h.getOffer_own he hw ▸ .own he hw
    | false =>
      cases hr : n.refusal? e.2 with
      | some r => exact h.getOffer_refused he hw hr ▸ .refused he hw hr
      | none => exact h.getOffer_taken he hw hr ▸ .taken he hw hr

theorem Sound.getOffer_eq_ok (h : n.Sound) {id : String} {e : Nat × Offer} : n.getOffer id = .ok e ↔
    n.entry? id = some e ∧ e.2.payload.owner ≠ n.fingerprint ∧ n.refusal? e.2 = none := by
  constructor
  · intro hok
    have ha := h.answer id
    rw [hok] at ha
    cases ha with
    | taken he hw hr => exact ⟨he, of_decide_eq_false hw, hr⟩
  · rintro ⟨he, hw, hr⟩
    exact h.getOffer_taken he (decide_eq_false hw) hr

theorem Sound.getOffer_unexplained (h : n.Sound) {id : String} : n.getOffer id = .error (.offerNotFound id none) ↔
    ∀ e, n.entry? id = some e → e.2.payload.owner = n.fingerprint := by
  constructor
  · intro herror e he
    have ha := h.answer id
    rw [herror] at ha
    cases ha with
    | unknown hnone => cases hnone.symm.trans he
    | own he' hw =>
      obtain rfl := Option.some.inj (he'.symm.trans he)
      exact of_decide_eq_true hw
  · intro hown
    cases he : n.entry? id with
    | none => exact h.getOffer_unknown he
    | some e => exact h.getOffer_own he (decide_eq_true (hown e he))

theorem Sound.getOffer_explained (h : n.Sound) {id text : String} :
    n.getOffer id = .error (.offerNotFound id (some text)) ↔ ∃ e r, n.entry? id = some e ∧
      e.2.payload.owner ≠ n.fingerprint ∧ n.refusal? e.2 = some r ∧ r.text = text := by
  constructor
  · intro herror
    have ha := h.answer id
    rw [herror] at ha
    cases ha with
    | @refused e r he hw hr => exact ⟨e, r, he, of_decide_eq_false hw, hr, rfl⟩
  · rintro ⟨e, r, he, hw, hr, rfl⟩
    exact h.getOffer_refused he (decide_eq_false hw) hr

/-! ## Bans and accounts -/

def screened (n : Node) (ids currencies methods owners : List String) (accounts : AccountStore) : Node :=
  { n with filter := .ban ids currencies methods owners, accounts }

/-- **An id is answered with the book's entry that can be taken, or with the rule that keeps it from
being taken.** In every state of the node, with any bans and accounts. The entry is the answer if
somebody else has made it, it is available, none of its id, currency, method and owner is banned,
and some account serves it, currencies compared in any letter case. There is no reason just if the
id is unknown or an own one. Else the reason is the first rule that the entry breaks. -/
theorem answered_precisely (h : n.Reachable) (ids currencies methods owners : List String) (accounts : AccountStore)
    (id : String) :
    (∀ e, (n.screened ids currencies methods owners accounts).getOffer id = .ok e ↔
      n.entry? id = some e ∧ e.2.payload.owner ≠ n.fingerprint ∧ e.2.state = .available ∧ id ∉ ids ∧
        (∀ c ∈ currencies, upper c ≠ upper e.2.currency) ∧ e.2.payload.paymentMethod ∉ methods ∧
        e.2.payload.owner ∉ owners ∧
        ∃ a ∈ accounts.all, a.method = e.2.payload.paymentMethod ∧
          ∃ c ∈ a.currencies, upper c = upper e.2.currency) ∧
    ((n.screened ids currencies methods owners accounts).getOffer id = .error (.offerNotFound id none) ↔
      ∀ e, n.entry? id = some e → e.2.payload.owner = n.fingerprint) ∧
    (∀ text, (n.screened ids currencies methods owners accounts).getOffer id =
        .error (.offerNotFound id (some text)) ↔
      ∃ e r, n.entry? id = some e ∧ e.2.payload.owner ≠ n.fingerprint ∧
        (OfferFilter.ban ids currencies methods owners).FirstBroken accounts e.2 r ∧ r.text = text) ∧
    ∀ error, (n.screened ids currencies methods owners accounts).getOffer id = .error error →
      ∃ reason, error = .offerNotFound id reason := by
  have hreachable : (n.screened ids currencies methods owners accounts).Reachable := h.outside rfl rfl rfl rfl
  have hs := hreachable.sound
  refine ⟨fun e => ?_, hs.getOffer_unexplained, fun text => ?_, fun error herror => ?_⟩
  · rw [hs.getOffer_eq_ok]
    refine and_congr_right fun he => and_congr_right fun _ => ?_
    obtain rfl := hs.entry?_id he
    exact ban_refusal?_eq_none
  · rw [hs.getOffer_explained]
    simp only [← refusal?_eq_some]
    rfl
  · have ha := hs.answer id
    rw [herror] at ha
    cases ha with
    | unknown _ => exact ⟨none, rfl⟩
    | own _ _ => exact ⟨none, rfl⟩
    | refused _ _ _ => exact ⟨_, rfl⟩

theorem reannounced_entries : reannounced.entry? "peer-1" = some (3, (following "peer-1" .zero).attached) ∧
    reannounced.entry? "own-1" = some (2, ownFollowing.attached) := by
  decide +kernel

theorem answered_precisely_reannounced : reannounced.Reachable ∧
    (reannounced.screened [] ["Eur"] ["SEPA"] [] reannounced.accounts).getOffer "peer-1" =
      .error (.offerNotFound "peer-1" (some "currency is banned")) ∧
    (reannounced.screened ["own-1"] [] [] [] reannounced.accounts).getOffer "own-1" =
      .error (.offerNotFound "own-1" none) ∧
    (reannounced.screened [] [] [] [] reannounced.accounts).getOffer "peer-1" =
      .ok (3, (following "peer-1" .zero).attached) := by
  obtain ⟨hpeer, hown⟩ := reannounced_entries
  have hfirst : (OfferFilter.ban [] ["Eur"] ["SEPA"] []).FirstBroken reannounced.accounts
    (following "peer-1" .zero).attached
      .currencyBanned := ⟨by decide +kernel, [.notAvailable, .offerBanned], _, rfl, by decide +kernel⟩
  refine ⟨reannounced_reachable, ?_, ?_, ?_⟩
  · obtain ⟨_, _, hexplained, _⟩ :=
    answered_precisely reannounced_reachable [] ["Eur"] ["SEPA"] [] reannounced.accounts "peer-1"
    exact (hexplained _).mpr ⟨_, _, hpeer, by decide, hfirst, rfl⟩
  · obtain ⟨_, hunexplained, _⟩ :=
    answered_precisely reannounced_reachable ["own-1"] [] [] [] reannounced.accounts "own-1"
    refine hunexplained.mpr fun e he => ?_
    obtain rfl := Option.some.inj (hown.symm.trans he)
    rfl
  · obtain ⟨hfound, _⟩ := answered_precisely reannounced_reachable [] [] [] [] reannounced.accounts "peer-1"
    exact (hfound _).mpr
      ⟨hpeer, by decide, by decide, by decide, by decide, by decide, by decide, by decide +kernel⟩

end Tradepost.Node
