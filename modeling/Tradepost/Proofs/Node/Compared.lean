import Tradepost.Proofs.Node.Found
import Tradepost.Proofs.Node.Run
import Tradepost.Proofs.Offer.Market

/-!
# What a listing compares

A listing is made for a counter currency. On markets as offers are made for
them its prices have one precision, so that their scaled values compare as the
prices do. Against a fiat currency they are prices of one currency; against
bitcoin each is that of a crypto currency, and several can be listed together.
-/

namespace Tradepost.Node

open Registry
open Text (lower)

variable {n : Node} {direction currency : String} {o o' : Offer}

def Together (n : Node) (direction currency : String) (o o' : Offer) : Prop :=
  (∃ L, n.getOffers direction currency = .ok L ∧ (∃ e ∈ L, e.2 = o) ∧ ∃ e ∈ L, e.2 = o') ∨
    ∃ L, n.getMyOffers direction currency = .ok L ∧ (∃ own ∈ L, own.offer = o) ∧ ∃ own ∈ L, own.offer = o'

theorem matches_counter (h : o.matches direction currency = true) :
    lower o.payload.counterCurrency = lower currency :=
  of_decide_eq_true (Bool.and_eq_true_iff.mp h).2

theorem Together.counter (h : n.Together direction currency o o') :
    lower o.payload.counterCurrency = lower currency ∧ lower o'.payload.counterCurrency = lower currency := by
  rcases h with ⟨L, hL, ⟨e, he, rfl⟩, e', he', rfl⟩ | ⟨L, hL, ⟨own, hown, rfl⟩, own', hown', rfl⟩
  · exact ⟨matches_counter ((mem_getOffers hL).mp he).2, matches_counter ((mem_getOffers hL).mp he').2⟩
  · exact ⟨matches_counter ((mem_getMyOffers hL).mp hown).2.2, matches_counter ((mem_getMyOffers hL).mp hown').2.2⟩

/-! ## Markets of own offers -/

/-- Offers are drafted for a market: their code is in upper case, and in the catalog if it is a fiat
currency. -/
theorem onMarket_drafted {p : CreateParams} (ho : (n.draftOffer p).2 = .ok o) : o.payload.OnMarket := by
  obtain ⟨t, f, hd⟩ := draftOffer_drafted ho
  obtain ⟨hcurrency, _⟩ := readTerms_ok hd.terms
  obtain ⟨hbase, hcounter⟩ := hd.currencies
  by_cases hfiat : Currency.isFiat t.currency = true
  · rw [if_pos hfiat] at hbase hcounter
    refine .fiat hbase ?_
    rw [hcounter, hcurrency]
    rw [hcurrency] at hfiat
    exact Currency.mem_of_isFiat_upper hfiat
  · rw [if_neg hfiat] at hbase hcounter
    refine .crypto ?_ hcounter
    rw [hbase, Currency.isCrypto, Bool.eq_false_iff.mpr hfiat]
    rfl

theorem onMarket_opened {p : CreateParams} (ho : (n.draftOffer p).2 = .ok o) :
    (Entry.opened o p.triggerPrice).offer.payload.OnMarket :=
  show o.payload.OnMarket from onMarket_drafted ho

theorem onMarket_revised {r : EditRequest} {v : ValidatedEdit} {e e' : Entry} (hrev : Revised r v e e')
    (h : e.offer.payload.OnMarket) : e'.offer.payload.OnMarket := by
  obtain ⟨q, _, ho⟩ := hrev.offer
  rw [ho]
  cases h with
  | fiat hbase hcounter => exact .fiat hbase hcounter
  | crypto hbase hcounter => exact .crypto hbase hcounter

/-! ## Prices that are listed together -/

/-- **A listing compares prices of one precision, and of one currency unless it is made for
bitcoin.** In every state of the node, for any two offers with a price that one listing shows: on
one base currency their prices have one currency, letter case aside. On markets as offers are made
for them they have one precision, so that the scaled values compare as the prices do, and one
currency unless the listing is made for bitcoin; then each has that of its base. All own offers of a
node that is called and hears of offers of peers are on such markets. -/
theorem compared_prices :
    (∀ (n : Node) (direction currency : String) (o o' : Offer) (p p' : Price), n.Together direction currency o o' →
      n.priceOf o = .ok (some p) → n.priceOf o' = .ok (some p') →
      (o.payload.baseCurrency = o'.payload.baseCurrency → lower p.currency = lower p'.currency) ∧
      (o.payload.OnMarket → o'.payload.OnMarket →
        (p.worth ≤ p'.worth ↔ p.value ≤ p'.value) ∧
        (lower currency ≠ lower bitcoin → p.currency = p'.currency) ∧
        (lower currency = lower bitcoin →
          p.currency = o.payload.baseCurrency ∧ p'.currency = o'.payload.baseCurrency))) ∧
    ∀ (log : List (Node × Call)) (n : Node), Ran log n → ∀ own ∈ n.snapshotOwn, own.offer.payload.OnMarket := by
  refine ⟨fun n direction currency o o' p p' ht hp hp' => ?_, fun log n h own hown => ?_⟩
  · obtain ⟨hcounter, hcounter'⟩ := ht.counter
    have hcurrency : p.currency = o.payload.currency := Offer.price?_currency hp
    have hcurrency' : p'.currency = o'.payload.currency := Offer.price?_currency hp'
    rw [hcurrency, hcurrency']
    refine ⟨fun hbase => Payload.currency_same_base hbase (hcounter.trans hcounter'.symm), fun hm hm' => ?_⟩
    obtain ⟨hprecision, hfiat, hbitcoin⟩ := hm.alike hm' hcounter hcounter'
    rw [← hcurrency, ← hcurrency'] at hprecision
    exact ⟨Price.worth_le_iff hprecision, hfiat, hbitcoin⟩
  · exact h.entry (h.upheld (fun _ _ _ _ ho => onMarket_opened ho) fun _ _ _ _ => onMarket_revised) hown

def coinOffer (id base counter : String) (price : Int) : Offer :=
  { payload := { (default : Payload) with
      id, owner := "peer", baseCurrency := base, counterCurrency := counter, price
      amount := 1, minAmount := 1, paymentMethod := "BLOCK_CHAINS" }
    state := .available }

def cryptoTrader : Node :=
  { accounts := .ofList [{ id := "account-1", method := "BLOCK_CHAINS", currencies := ["XMR", "ETH", "EUR"] }] }

theorem cryptoTrader_ran : Ran [] cryptoTrader := .fresh rfl rfl rfl

theorem coinOffer_price (n : Node) (id base counter : String) (price : Int) :
    n.priceOf (coinOffer id base counter price).attached =
      .ok (some ⟨price, if base = bitcoin then counter else base⟩) := rfl

def twoCoins : Node :=
  (cryptoTrader.hear (coinOffer "peer-1" "XMR" bitcoin 500000)).hear (coinOffer "peer-2" "ETH" bitcoin 5000000)

theorem twoCoins_ran : Ran [] twoCoins := (cryptoTrader_ran.hear _).hear _

theorem twoCoins_listing : twoCoins.getOffers "BUY" "btc" =
    .ok [(0, (coinOffer "peer-1" "XMR" bitcoin 500000).attached),
      (1, (coinOffer "peer-2" "ETH" bitcoin 5000000).attached)] := by
  decide +kernel

def createMonero : CreateParams :=
  { currency := "xmr", direction := .text "buy", price := .text "0.005", amount := 1, minAmount := 1
    buyerSecurityDeposit := .zero, account := "account-1" }

theorem compared_prices_twoCoins : twoCoins.Together "BUY" "btc" (coinOffer "peer-1" "XMR" bitcoin 500000).attached
      (coinOffer "peer-2" "ETH" bitcoin 5000000).attached ∧
    Price.worth ⟨500000, "XMR"⟩ ≤ Price.worth ⟨5000000, "ETH"⟩ ∧
    ∃ own ∈ (twoCoins.perform (.create createMonero)).1.snapshotOwn, own.offer.payload.OnMarket := by
  obtain ⟨hlisted, hown⟩ := compared_prices
  have ht : twoCoins.Together "BUY" "btc" (coinOffer "peer-1" "XMR" bitcoin 500000).attached
      (coinOffer "peer-2" "ETH" bitcoin 5000000).attached :=
    .inl ⟨_, twoCoins_listing, ⟨_, .head _, rfl⟩, _, .tail _ (.head _), rfl⟩
  obtain ⟨_, hmarket⟩ := hlisted _ _ _ _ _ _ _ ht (coinOffer_price ..) (coinOffer_price ..)
  obtain ⟨hworth, _⟩ := hmarket (.crypto (by decide +kernel) rfl) (.crypto (by decide +kernel) rfl)
  obtain ⟨own, hmem⟩ : ∃ own, own ∈ (twoCoins.perform (.create createMonero)).1.snapshotOwn := by
    apply List.exists_mem_of_ne_nil
    decide +kernel
  exact ⟨ht, hworth.mpr (by decide), own, hmem, hown _ _ (twoCoins_ran.call _) own hmem⟩

def euroMarkets : Node :=
  (cryptoTrader.hear (coinOffer "peer-1" bitcoin "EUR" 500000000)).hear (coinOffer "peer-2" "XMR" "EUR" 15000000000)

theorem euroMarkets_listing : euroMarkets.getOffers "BUY" "EUR" =
    .ok [(0, (coinOffer "peer-1" bitcoin "EUR" 500000000).attached),
      (1, (coinOffer "peer-2" "XMR" "EUR" 15000000000).attached)] := by
  decide +kernel

def Mixed (n : Node) (direction currency : String) : Prop :=
  ∃ L, n.getOffers direction currency = .ok L ∧ ∃ e ∈ L, ∃ e' ∈ L, ∃ p p',
    n.priceOf e.2 = .ok (some p) ∧ n.priceOf e'.2 = .ok (some p') ∧ p.currency ≠ p'.currency

/-- What is asked for different crypto currencies is listed together, and so is what is asked for an
offer that is on no market. -/
theorem mixed_currencies : twoCoins.Reachable ∧ twoCoins.Mixed "BUY" "btc" ∧
    euroMarkets.Reachable ∧ euroMarkets.Mixed "BUY" "EUR" :=
  ⟨twoCoins_ran.reachable,
    ⟨_, twoCoins_listing, _, .head _, _, .tail _ (.head _), _, _, coinOffer_price ..,
      coinOffer_price .., by decide⟩,
    ((cryptoTrader_ran.hear _).hear _).reachable,
    ⟨_, euroMarkets_listing, _, .head _, _, .tail _ (.head _), _, _, coinOffer_price ..,
      coinOffer_price .., by decide⟩⟩

end Tradepost.Node
