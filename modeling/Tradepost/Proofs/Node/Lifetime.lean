import Tradepost.Proofs.Node.Run

/-!
# Own offers from their creation on

An own offer of a node that is only called is one that a call has created,
revised by the edits since. What every created offer has and every edit keeps,
all own offers have. So an offer with a fixed price has a positive one and no
trigger price, unless it still has what it was created with: edits check the
two, creation does not.
-/

namespace Tradepost

open Registry EditRequest

namespace Node

variable {n : Node} {log : List (Node × Call)}

/-! ## Fixed prices -/

def Tagged (log : List (Node × Call)) (e : Entry) : Prop :=
  e.offer.payload.useMarketPrice = false → 0 < e.offer.payload.price ∨
    ∃ p, .create p ∈ calls log ∧ p.useMarketPrice = false ∧
      Price.scaled p.price (Text.upper p.currency) = .ok e.offer.payload.price

theorem tagged_opened {p : CreateParams} {o : Offer} (hp : .create p ∈ calls log)
    (ho : (n.draftOffer p).2 = .ok o) :
    Tagged log (.opened o p.triggerPrice) := by
  intro hfixed
  obtain ⟨t, f, hd⟩ := draftOffer_drafted ho
  have hmarket : p.useMarketPrice = false := hd.market ▸ hfixed
  exact .inr ⟨p, hp, hmarket, hd.price hmarket⟩

theorem Tagged.revised {r : EditRequest} {v : ValidatedEdit} {e e' : Entry} (hrev : Revised r v e e')
    (h : Tagged log e) : Tagged log e' := by
  obtain ⟨q, hq, ho⟩ := hrev.offer
  have hp : e'.offer.payload = e.offer.payload.withPricing q := congrArg Offer.payload ho
  unfold Tagged
  rw [hp]
  intro hfixed
  rcases repriced_fixed hq hfixed with ⟨hbefore, hprice, _⟩ | ⟨hscope, hk, _⟩
  · have hkept : (e.offer.payload.withPricing q).price = e.offer.payload.price := hprice
    rw [hkept]
    exact h hbefore
  · -- validation has read the price that the edit sets
    obtain ⟨k, hk', hpos⟩ := hrev.valid.price hscope
    obtain rfl : k = q.price := Except.ok.inj (hk'.symm.trans hk)
    exact .inl hpos

/-- **Fixed prices are positive, but for what an offer was created with.** However many calls were
made, and whichever edits were among them: edits read the price they set and refuse one that is not
positive. -/
theorem fixed_price_positive (h : Ran log n) {own : Own} (hown : own ∈ n.snapshotOwn)
    (hfixed : own.offer.payload.useMarketPrice = false) :
    0 < own.offer.payload.price ∨ ∃ p, .create p ∈ calls log ∧ p.useMarketPrice = false ∧
      Price.scaled p.price (Text.upper p.currency) = .ok own.offer.payload.price :=
  h.entry (h.upheld (fun _ _ _ hp ho => tagged_opened (mem_calls hp) ho) fun _ _ _ _ => Tagged.revised) hown hfixed

def createFixed (price : String) (trigger : Int) : CreateParams :=
  { currency := "EUR", direction := .text "BUY", price := .text price, amount := 1, minAmount := 1
    buyerSecurityDeposit := .zero, triggerPrice := trigger, account := "account-1" }

def createMarket (margin : Binary64) : CreateParams :=
  { currency := "EUR", direction := .text "BUY", price := .text "", useMarketPrice := true, marginPercent := margin
    amount := 1, minAmount := 1, buyerSecurityDeposit := .zero, triggerPrice := 5, account := "account-1" }

def fixPrice : EditRequest := { editType := .text "FIXED_PRICE_ONLY", price := .text "20000" }

def marketThenFixed : Node :=
  ((euroTrader.perform (.create (createMarket .zero))).1.perform (.edit "gen-1" fixPrice)).1

def fixedLog : List (Node × Call) :=
  [((euroTrader.perform (.create (createMarket .zero))).1, .edit "gen-1" fixPrice),
    (euroTrader, .create (createMarket .zero))]

theorem marketThenFixed_ran : Ran fixedLog marketThenFixed :=
  ((Ran.fresh rfl rfl rfl : Ran [] euroTrader).call (.create (createMarket .zero))).call (.edit "gen-1" fixPrice)

theorem marketThenFixed_market : ∀ p, .create p ∈ calls fixedLog → p.useMarketPrice = true := by
  intro p hp
  rcases List.mem_cons.mp hp with hp | hp
  · cases hp
  · cases List.mem_singleton.mp hp
    rfl

theorem marketThenFixed_fixed : ∃ own ∈ marketThenFixed.snapshotOwn, own.offer.payload.useMarketPrice = false := by
  decide +kernel

theorem fixed_price_positive_marketThenFixed :
    ∃ own ∈ marketThenFixed.snapshotOwn, 0 < own.offer.payload.price := by
  obtain ⟨own, hown, hfixed⟩ := marketThenFixed_fixed
  refine ⟨own, hown, ?_⟩
  rcases fixed_price_positive marketThenFixed_ran hown hfixed with hpos | ⟨p, hp, hmarket, _⟩
  · exact hpos
  · cases hmarket.symm.trans (marketThenFixed_market p hp)

theorem created_below_zero :
    Ran [(euroTrader, .create (createFixed "-1" 0))] (euroTrader.perform (.create (createFixed "-1" 0))).1 ∧
    ∃ own ∈ (euroTrader.perform (.create (createFixed "-1" 0))).1.snapshotOwn,
      own.offer.payload.useMarketPrice = false ∧ own.offer.payload.price < 0 :=
  ⟨(Ran.fresh rfl rfl rfl : Ran [] euroTrader).call _, by decide +kernel⟩

/-! ## Trigger prices -/

def Triggered (log : List (Node × Call)) (e : Entry) : Prop :=
  e.offer.payload.useMarketPrice = false → e.triggerPrice = 0 ∨
    ∃ p, .create p ∈ calls log ∧ p.useMarketPrice = false ∧ p.triggerPrice = e.triggerPrice

theorem triggered_opened {p : CreateParams} {o : Offer} (hp : .create p ∈ calls log)
    (ho : (n.draftOffer p).2 = .ok o) :
    Triggered log (.opened o p.triggerPrice) := by
  intro hfixed
  obtain ⟨t, f, hd⟩ := draftOffer_drafted ho
  exact .inr ⟨p, hp, hd.market ▸ hfixed, rfl⟩

theorem triggered_revised {r : EditRequest} {v : ValidatedEdit} {e e' : Entry} (hrev : Revised r v e e') :
    Triggered log e' := fun hfixed => .inl (hrev.untriggered hfixed)

/-- **A fixed price goes without a trigger price, but for what an offer was created with.** However
many calls were made, and through every change of the way of pricing. -/
theorem fixed_price_untriggered (h : Ran log n) {own : Own} (hown : own ∈ n.snapshotOwn)
    (hfixed : own.offer.payload.useMarketPrice = false) :
    own.terms.triggerPrice = 0 ∨ ∃ p, .create p ∈ calls log ∧ p.useMarketPrice = false ∧
      p.triggerPrice = own.terms.triggerPrice :=
  h.entry (h.upheld (fun _ _ _ hp ho => triggered_opened (mem_calls hp) ho)
    fun _ _ _ _ hrev _ => triggered_revised hrev)
    hown hfixed

theorem fixed_price_untriggered_marketThenFixed :
    ∃ own ∈ marketThenFixed.snapshotOwn, own.terms.triggerPrice = 0 := by
  obtain ⟨own, hown, hfixed⟩ := marketThenFixed_fixed
  refine ⟨own, hown, ?_⟩
  rcases fixed_price_untriggered marketThenFixed_ran hown hfixed with hzero | ⟨p, hp, hmarket, _⟩
  · exact hzero
  · cases hmarket.symm.trans (marketThenFixed_market p hp)

theorem created_triggered :
    Ran [(euroTrader, .create (createFixed "1" 5))] (euroTrader.perform (.create (createFixed "1" 5))).1 ∧
    ∃ own ∈ (euroTrader.perform (.create (createFixed "1" 5))).1.snapshotOwn,
      own.offer.payload.useMarketPrice = false ∧ own.terms.triggerPrice = 5 :=
  ⟨(Ran.fresh rfl rfl rfl : Ran [] euroTrader).call _, by decide +kernel⟩

end Node

end Tradepost
