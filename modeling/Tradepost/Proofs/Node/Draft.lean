import Tradepost.Node.Create

/-!
# What a draft depends on

A drafted offer is told by the parameters, the accounts, the owner, the time,
the id that is drawn and whether the wallet is ready; nothing of the registry
goes into it.
-/

namespace Tradepost.Node

theorem readyFor_ok {w w' : Wallet} {code : String} (h : w.readyFor code = .ok w') :
    w'.available = w.available ∧ w'.locked = w.locked := by
  unfold Wallet.readyFor at h
  cases hv : w.verify with
  | error e =>
    rw [hv] at h
    cases h
  | ok _ =>
    rw [hv] at h
    change (if code.isEmpty then pure w else w.preferFeeCurrency code) = .ok w' at h
    split at h
    · cases h
      exact ⟨rfl, rfl⟩
    · unfold Wallet.preferFeeCurrency at h
      split at h
      · cases h
        exact ⟨rfl, rfl⟩
      · cases h

/-- A draft changes the fee currency and uses up an id, at most. -/
theorem draftOffer_node (n : Node) (p : CreateParams) :
    ∃ wallet ids, (n.draftOffer p).1 = { n with wallet, ids } ∧ wallet.available = n.wallet.available ∧
      wallet.locked = n.wallet.locked := by
  unfold draftOffer
  split
  · exact ⟨n.wallet, n.ids, rfl, rfl, rfl⟩
  · rename_i w hw
    dsimp only
    split
    · exact ⟨w, n.ids, rfl, readyFor_ok hw⟩
    · exact ⟨w, _, rfl, readyFor_ok hw⟩

theorem draftOffer_outcome (n : Node) (p : CreateParams) :
    (n.draftOffer p).2 = (do
      let _ ← reported (n.wallet.readyFor p.makerFeeCurrency)
      let t ← n.readTerms p
      n.draft n.ids.next.2 t p) := by
  unfold draftOffer
  cases n.wallet.readyFor p.makerFeeCurrency with
  | error e => rfl
  | ok w =>
    have ht : ({ n with wallet := w } : Node).readTerms p = n.readTerms p := rfl
    dsimp only
    rw [ht]
    cases n.readTerms p <;> rfl

theorem readTerms_ok {n : Node} {p : CreateParams} {t : Terms} (h : n.readTerms p = .ok t) :
    t.currency = Text.upper p.currency ∧ priceAsked p t.currency = .ok t.price := by
  unfold readTerms at h
  split at h
  · cases h
  · obtain ⟨d, _, h⟩ := bind_eq_ok.mp h
    obtain ⟨k, hk, h⟩ := bind_eq_ok.mp h
    cases h
    exact ⟨rfl, hk⟩

structure Drafted (n : Node) (p : CreateParams) (t : Terms) (margin : Binary64) (o : Offer) : Prop where
  terms : n.readTerms p = .ok t
  fraction : fractionOf p.marginPercent = .ok margin
  offer : o = { payload := n.payloadOf n.ids.next.2 t margin p, feed := .node }

theorem draftOffer_drafted {n : Node} {p : CreateParams} {o : Offer} (h : (n.draftOffer p).2 = .ok o) :
    ∃ t margin, Drafted n p t margin o := by
  rw [draftOffer_outcome] at h
  obtain ⟨_, _, h⟩ := bind_eq_ok.mp h
  obtain ⟨t, ht, h⟩ := bind_eq_ok.mp h
  obtain ⟨margin, hm, h⟩ := bind_eq_ok.mp h
  refine ⟨t, margin, ht, computed_eq_ok.mp hm, ?_⟩
  dsimp only at h
  split at h
  · cases h
    rfl
  · cases h

theorem draftOffer_account {n : Node} {c : CreateParams} {o : Offer} (h : (n.draftOffer c).2 = .ok o) :
    ∃ a, n.accounts.lookup c.account = some a ∧ o.payload.makerAccount = a.id ∧ a.fits o.payload = true := by
  rw [draftOffer_outcome] at h
  obtain ⟨_, _, h⟩ := bind_eq_ok.mp h
  obtain ⟨t, ht, h⟩ := bind_eq_ok.mp h
  obtain ⟨margin, _, h⟩ := bind_eq_ok.mp h
  have hlookup : n.accounts.lookup c.account = some t.account := by
    unfold readTerms at ht
    split at ht
    · cases ht
    · rename_i a ha
      obtain ⟨_, _, ht⟩ := bind_eq_ok.mp ht
      obtain ⟨_, _, ht⟩ := bind_eq_ok.mp ht
      cases ht
      exact ha
  dsimp only at h
  split at h
  · rename_i hfits
    cases h
    exact ⟨t.account, hlookup, rfl, hfits⟩
  · cases h

theorem draftOffer_ok {n : Node} {p : CreateParams} {o : Offer} (h : (n.draftOffer p).2 = .ok o) :
    o.id = n.ids.next.2 ∧ o.error? = none := by
  obtain ⟨t, margin, hd⟩ := draftOffer_drafted h
  rw [hd.offer]
  exact ⟨rfl, rfl⟩

section

variable {n : Node} {p : CreateParams} {t : Terms} {f : Binary64} {o : Offer}

theorem Drafted.market (h : Drafted n p t f o) : o.payload.useMarketPrice = p.useMarketPrice := by
  rw [h.offer]
  rfl

theorem Drafted.price (h : Drafted n p t f o) (hf : p.useMarketPrice = false) :
    Price.scaled p.price (Text.upper p.currency) = .ok o.payload.price := by
  obtain ⟨hcurrency, hk⟩ := readTerms_ok h.terms
  have hprice : o.payload.price = t.price := by
    rw [h.offer]
    simp [payloadOf, hf]
  rw [hprice, ← hk, ← hcurrency]
  simp [priceAsked, hf]

theorem Drafted.margin (h : Drafted n p t f o) :
    o.payload.margin = if p.useMarketPrice then f else .zero := by
  rw [h.offer]
  rfl

theorem Drafted.currencies (h : Drafted n p t f o) :
    o.payload.baseCurrency = (if Currency.isFiat t.currency then bitcoin else t.currency) ∧
      o.payload.counterCurrency = if Currency.isFiat t.currency then t.currency else bitcoin := by
  rw [h.offer]
  simp only [payloadOf, and_self]

end

/-! ## Errors of a draft -/

/-- An outcome that is no error of the most general kind, which could have any status. -/
def Specific {α : Type} (x : Outcome α) : Prop :=
  ∀ code message status, x ≠ .error (.service (.general code message status))

section

variable {α β : Type}

theorem Specific.bind {x : Outcome α} {f : α → Outcome β} (hx : Specific x) (hf : ∀ a, Specific (f a)) :
    Specific (x >>= f) := by
  intro code message status h
  cases x with
  | error e =>
    cases h
    exact hx code message status rfl
  | ok a => exact hf a code message status h

theorem specific_ok (a : α) : Specific (.ok a : Outcome α) := by
  intro _ _ _ h
  cases h

theorem specific_computed (x : Except Breakdown α) : Specific (computed x) := by
  intro _ _ _ h
  cases x <;> cases h

theorem specific_reported {x : Except ServiceError α}
    (hx : ∀ code message status, x ≠ .error (.general code message status)) : Specific (reported x) := by
  intro code message status h
  cases x with
  | error e =>
    cases h
    exact hx code message status rfl
  | ok a => cases h

end

theorem specific_priceAsked (p : CreateParams) (currency : String) : Specific (priceAsked p currency) := by
  unfold priceAsked
  split
  · exact specific_ok 0
  · refine .bind (specific_reported ?_) fun _ => specific_computed _
    intro _ _ _ h
    unfold Price.read at h
    split at h
    · split at h
      · split at h <;> cases h
      · cases h
    · cases h

theorem specific_readTerms (n : Node) (p : CreateParams) : Specific (n.readTerms p) := by
  unfold readTerms
  split
  · intro _ _ _ h
    cases h
  · refine .bind (specific_reported ?_) fun _ => .bind (specific_priceAsked p _) fun _ => specific_ok _
    intro _ _ _ h
    unfold Direction.parse at h
    split at h
    · split at h <;> cases h
    · cases h

theorem readyFor_specific (w : Wallet) (code : String) (c : Int) (message : String) (status : Int) :
    w.readyFor code ≠ .error (.general c message status) := by
  intro h
  unfold Wallet.readyFor at h
  cases hv : w.verify with
  | error e =>
    rw [hv] at h
    cases h
    unfold Wallet.verify at hv
    split at hv
    · cases hv
    · split at hv <;> cases hv
  | ok _ =>
    rw [hv] at h
    change (if code.isEmpty then pure w else w.preferFeeCurrency code) = _ at h
    split at h
    · cases h
    · unfold Wallet.preferFeeCurrency at h
      split at h <;> cases h

theorem specific_draftOffer (n : Node) (p : CreateParams) : Specific (n.draftOffer p).2 := by
  rw [draftOffer_outcome]
  refine .bind (specific_reported (readyFor_specific _ _)) fun _ => .bind (specific_readTerms n p) fun t =>
    .bind (specific_computed _) fun f => ?_
  dsimp only
  split
  · exact specific_ok _
  · intro _ _ _ h
    cases h

/-! ## Nodes that draft alike -/

theorem readyFor_bind {w w' : Wallet} (ha : w.available = w'.available) (hl : w.locked = w'.locked) (code : String)
    {α : Type} (x : Outcome α) :
    (reported (w.readyFor code) >>= fun _ => x) = (reported (w'.readyFor code) >>= fun _ => x) := by
  unfold Wallet.readyFor Wallet.verify Wallet.preferFeeCurrency
  rw [ha, hl]
  cases w'.available with
  | false => rfl
  | true =>
    cases w'.locked with
    | true => rfl
    | false =>
      cases code.isEmpty with
      | true => rfl
      | false =>
        cases FeeCurrency.ofName? (Text.upper code) <;> rfl

/-- Nodes that draft alike: they may differ in registry and prices. -/
structure Alike (n m : Node) : Prop where
  fingerprint : n.fingerprint = m.fingerprint
  accounts : n.accounts = m.accounts
  available : n.wallet.available = m.wallet.available
  locked : n.wallet.locked = m.wallet.locked

theorem Alike.refl (n : Node) : n.Alike n := ⟨rfl, rfl, rfl, rfl⟩

theorem Alike.symm {n m : Node} (h : n.Alike m) : m.Alike n :=
  ⟨h.fingerprint.symm, h.accounts.symm, h.available.symm, h.locked.symm⟩

theorem Alike.trans {n m k : Node} (h : n.Alike m) (h' : m.Alike k) : n.Alike k :=
  ⟨h.fingerprint.trans h'.fingerprint, h.accounts.trans h'.accounts, h.available.trans h'.available,
    h.locked.trans h'.locked⟩

theorem Alike.draftOffer {n m : Node} (h : n.Alike m) (hc : n.clock = m.clock) (hid : n.ids.next.2 = m.ids.next.2)
    (p : CreateParams) : (n.draftOffer p).2 = (m.draftOffer p).2 := by
  have ht : n.readTerms p = m.readTerms p := by
    unfold readTerms
    rw [h.accounts]
  have hd : ∀ id t, n.draft id t p = m.draft id t p := by
    intro id t
    unfold draft payloadOf
    rw [h.fingerprint, hc]
  rw [draftOffer_outcome, draftOffer_outcome, ht, hid, readyFor_bind h.available h.locked]
  simp only [hd]

end Tradepost.Node
