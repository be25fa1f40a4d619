import Tradepost.Proofs.Node.Lifetime

/-!
# The fee currency that a creation leaves behind

A creation notes the fee currency it is asked for as soon as the wallet is
found ready, before it looks at anything else. What fails after that does not
take the note back.
-/

namespace Tradepost

open Text (upper)

theorem FeeCurrency.ofName?_eq_some {s : String} {c : FeeCurrency} : ofName? s = some c ↔ s = c.name := by
  constructor
  · intro h
    have hname : c.name = s := by simpa using List.find?_some h
    exact hname.symm
  · rintro rfl
    cases c <;> rfl

namespace Wallet

structure Notes (w : Wallet) (code : String) (c : FeeCurrency) : Prop where
  available : w.available = true
  unlocked : w.locked = false
  names : upper code = c.name

variable {w : Wallet} {code : String} {c : FeeCurrency}

theorem verify_eq_ok : w.verify = .ok () ↔ w.available = true ∧ w.locked = false := by
  unfold verify
  cases w.available <;> cases w.locked <;> simp

theorem Notes.named (h : w.Notes code c) : code.isEmpty = false := by
  cases hempty : code.isEmpty with
  | false => rfl
  | true =>
    have hnames := h.names
    rw [String.isEmpty_iff.mp hempty] at hnames
    cases c <;> exact absurd hnames (by decide)

theorem Notes.readyFor (h : w.Notes code c) : w.readyFor code = .ok { w with feeCurrency := c } := by
  unfold Wallet.readyFor
  rw [verify_eq_ok.mpr ⟨h.available, h.unlocked⟩, h.named]
  show w.preferFeeCurrency code = _
  unfold preferFeeCurrency
  rw [FeeCurrency.ofName?_eq_some.mpr h.names]

theorem readyFor_cases {w' : Wallet} (h : w.readyFor code = .ok w') : w' = w ∨ ∃ c, w.Notes code c := by
  obtain ⟨_, hverify, h⟩ := bind_eq_ok.mp h
  obtain ⟨ha, hl⟩ := verify_eq_ok.mp hverify
  split at h
  · exact .inl (Except.ok.inj h).symm
  · unfold preferFeeCurrency at h
    split at h
    · rename_i c hc
      exact .inr ⟨c, ha, hl, FeeCurrency.ofName?_eq_some.mp hc⟩
    · cases h

end Wallet

namespace Node

variable {n : Node} {p : CreateParams}

/-- Whatever a creation comes to, the wallet is as the draft has left it. -/
theorem perform_wallet (n : Node) (p : CreateParams) :
    (n.perform (.create p)).1.wallet = (n.draftOffer p).1.wallet := by
  have hcreation := n.perform_creation p
  generalize n.perform (.create p) = m at hcreation ⊢
  cases hcreation <;> rfl

theorem draftOffer_wallet (n : Node) (p : CreateParams) : (n.draftOffer p).1.wallet =
    (n.wallet.readyFor p.makerFeeCurrency).toOption.getD n.wallet := by
  unfold draftOffer
  cases n.wallet.readyFor p.makerFeeCurrency with
  | error e => rfl
  | ok w =>
    dsimp only
    split <;> rfl

/-- **A creation leaves the fee currency as it was, or as it was asked to be.** Whatever the node
holds, whatever is asked for, and whether the creation fails or not. If the wallet is ready and a
fee currency is named, this is the wallet's from then on. If not, the wallet is the one from before.
-/
theorem creation_preference (n : Node) (p : CreateParams) :
    (∀ c, n.wallet.Notes p.makerFeeCurrency c →
      (n.perform (.create p)).1.wallet = { n.wallet with feeCurrency := c }) ∧
    ((∀ c, ¬ n.wallet.Notes p.makerFeeCurrency c) → (n.perform (.create p)).1.wallet = n.wallet) := by
  rw [perform_wallet, draftOffer_wallet]
  refine ⟨fun c hc => by rw [hc.readyFor]; rfl, fun hnone => ?_⟩
  cases hw : n.wallet.readyFor p.makerFeeCurrency with
  | error e => rfl
  | ok w =>
    rcases Wallet.readyFor_cases hw with rfl | ⟨c, hc⟩
    · rfl
    · exact absurd hc (hnone c)

def paying (code account : String) : CreateParams := { createFixed "1" 0 with makerFeeCurrency := code, account }

theorem creation_preference_placed : euroTrader.wallet.Notes "bsq" .bsq ∧
    (euroTrader.perform (.create (paying "bsq" "account-1"))).1.wallet.feeCurrency = .bsq ∧
    (∀ c, ¬ euroTrader.wallet.Notes "doge" c) ∧
    (euroTrader.perform (.create (paying "doge" "account-1"))).1.wallet.feeCurrency = .btc := by
  have hbsq : euroTrader.wallet.Notes "bsq" .bsq := ⟨rfl, rfl, by decide +kernel⟩
  have hdoge : ∀ c, ¬ euroTrader.wallet.Notes "doge" c := by
    intro c hc
    have hnames := hc.names
    cases c <;> revert hnames <;> decide +kernel
  obtain ⟨hnoted, _⟩ := creation_preference euroTrader (paying "bsq" "account-1")
  obtain ⟨_, hkept⟩ := creation_preference euroTrader (paying "doge" "account-1")
  refine ⟨hbsq, ?_, hdoge, ?_⟩
  · rw [hnoted _ hbsq]
  · rw [hkept hdoge]
    rfl

theorem noted_and_failed : euroTrader.wallet.feeCurrency = .btc ∧
    (euroTrader.perform (.create (paying "BSQ" "account-2"))).2 = .error (.service (.accountNotFound "account-2")) ∧
    (euroTrader.perform (.create (paying "BSQ" "account-2"))).1.wallet.feeCurrency = .bsq := by
  decide +kernel

end Node

end Tradepost
