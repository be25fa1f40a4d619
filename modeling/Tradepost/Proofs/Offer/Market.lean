import Mathlib.Algebra.Order.Field.Basic
import Mathlib.Algebra.Order.Field.Rat
import Mathlib.Data.Rat.Cast.Order
import Mathlib.Tactic.Positivity
import Tradepost.Proofs.Offer.Pricing
import Tradepost.Proofs.Text.Folding

/-!
# Markets and the currency of a price

A market is bitcoin against a fiat currency of the catalog, or a crypto
currency against bitcoin. Its price is told by the side that is not bitcoin,
and on all markets with one counter currency by the same number of digits.
-/

namespace Tradepost

open Text

/-! ## The catalog -/

theorem fiatCodes_ascii : ∀ code ∈ fiatCodes, IsAscii code.toList := by decide +kernel

theorem fiatCodes_lower : (fiatCodes.map lower).Nodup := by decide +kernel

theorem bitcoin_not_fiat : lower bitcoin ∉ fiatCodes.map lower := by decide +kernel

theorem fiatCodes_inj {a b : String} (ha : a ∈ fiatCodes) (hb : b ∈ fiatCodes) (h : lower a = lower b) : a = b :=
  List.inj_on_of_nodup_map fiatCodes_lower ha hb h

namespace Currency

theorem isFiat_iff {code : String} : isFiat code = true ↔ upper code ∈ fiatCodes := List.contains_iff_mem

theorem mem_of_isFiat_upper {s : String} (h : isFiat (upper s) = true) : upper s ∈ fiatCodes := by
  have hmem := isFiat_iff.mp h
  rwa [upper_upper (fiatCodes_ascii _ hmem)] at hmem

theorem precision_crypto {code : String} (h : isCrypto code = true) : precision code = cryptoPrecision := by
  unfold precision
  rw [h]
  rfl

end Currency

/-! ## Markets -/

/-- A market as offers are made for it: bitcoin against a fiat currency, or a crypto currency
against bitcoin. -/
inductive Payload.OnMarket (p : Payload) : Prop where
  | fiat : p.baseCurrency = bitcoin → p.counterCurrency ∈ fiatCodes → p.OnMarket
  | crypto : Currency.isCrypto p.baseCurrency = true → p.counterCurrency = bitcoin → p.OnMarket

variable {p q : Payload}

theorem Payload.currency_fiat (h : p.baseCurrency = bitcoin) : p.currency = p.counterCurrency := if_pos h

theorem Payload.currency_crypto (h : p.counterCurrency = bitcoin) : p.currency = p.baseCurrency := by
  unfold currency
  split
  · rename_i hbase
    rw [h, hbase]
  · rfl

theorem Payload.OnMarket.against_bitcoin (h : p.OnMarket) (hc : lower p.counterCurrency = lower bitcoin) :
    Currency.isCrypto p.currency = true ∧ p.currency = p.baseCurrency := by
  cases h with
  | fiat _ hcounter => exact absurd (List.mem_map.mpr ⟨_, hcounter, hc⟩) bitcoin_not_fiat
  | crypto hbase hcounter =>
    rw [currency_crypto hcounter]
    exact ⟨hbase, rfl⟩

theorem Payload.OnMarket.against_fiat (h : p.OnMarket) (hc : lower p.counterCurrency ≠ lower bitcoin) :
    p.counterCurrency ∈ fiatCodes ∧ p.currency = p.counterCurrency := by
  cases h with
  | fiat hbase hcounter => exact ⟨hcounter, currency_fiat hbase⟩
  | crypto _ hcounter => exact absurd (congrArg lower hcounter) hc

/-- On markets with one counter currency prices have one precision. Against a fiat currency they
have one currency too, against bitcoin each has that of its base. -/
theorem Payload.OnMarket.alike (hp : p.OnMarket) (hq : q.OnMarket) {code : String}
    (hpc : lower p.counterCurrency = lower code) (hqc : lower q.counterCurrency = lower code) :
    Currency.precision p.currency = Currency.precision q.currency ∧
      (lower code ≠ lower bitcoin → p.currency = q.currency) ∧
      (lower code = lower bitcoin → p.currency = p.baseCurrency ∧ q.currency = q.baseCurrency) := by
  by_cases hcode : lower code = lower bitcoin
  · obtain ⟨hcrypto, hbase⟩ := hp.against_bitcoin (hpc.trans hcode)
    obtain ⟨hcrypto', hbase'⟩ := hq.against_bitcoin (hqc.trans hcode)
    refine ⟨?_, fun h => absurd hcode h, fun _ => ⟨hbase, hbase'⟩⟩
    rw [Currency.precision_crypto hcrypto, Currency.precision_crypto hcrypto']
  · obtain ⟨hfiat, hcounter⟩ := hp.against_fiat fun h => hcode (hpc.symm.trans h)
    obtain ⟨hfiat', hcounter'⟩ := hq.against_fiat fun h => hcode (hqc.symm.trans h)
    have hsame : p.currency = q.currency := by
      rw [hcounter, hcounter']
      exact fiatCodes_inj hfiat hfiat' (hpc.trans hqc.symm)
    exact ⟨congrArg _ hsame, fun _ => hsame, fun h => absurd h hcode⟩

theorem Payload.currency_same_base (hbase : p.baseCurrency = q.baseCurrency)
    (hcounter : lower p.counterCurrency = lower q.counterCurrency) : lower p.currency = lower q.currency := by
  unfold currency
  rw [hbase]
  split
  · exact hcounter
  · rfl

/-! ## Prices -/

def Price.worth (p : Price) : ℚ := p.value / 10 ^ Currency.precision p.currency

theorem Price.worth_le_iff {p q : Price} (h : Currency.precision p.currency = Currency.precision q.currency) :
    p.worth ≤ q.worth ↔ p.value ≤ q.value := by
  unfold worth
  rw [h, div_le_div_iff_of_pos_right (by positivity)]
  exact Int.cast_le

theorem Payload.marketPrice_currency {quote : Decimal} {price : Price} (h : p.marketPrice quote = .ok price) :
    price.currency = p.currency := by
  rw [marketPrice_eq] at h
  obtain ⟨f, _, h⟩ := bind_eq_ok.mp h
  obtain ⟨m, _, h⟩ := bind_eq_ok.mp h
  obtain ⟨v, _, h⟩ := bind_eq_ok.mp h
  cases h
  rfl

theorem Offer.price?_cases {node : Quotes} {o : Offer} {price : Price} (h : o.price? node = .ok (some price)) :
    price = ⟨o.payload.price, o.currency⟩ ∨ ∃ quote, o.payload.marketPrice quote = .ok price := by
  cases hm : o.payload.useMarketPrice with
  | false =>
    simp only [price?, hm, Bool.not_false, ite_true] at h
    exact .inl (Option.some.inj (Except.ok.inj h)).symm
  | true =>
    cases hq : o.quote? node with
    | none =>
      have hq' : (o.quotes? node).bind (·.get? o.payload.currency) = none := hq
      simp only [price?, hm, hq', Bool.not_true, Bool.false_eq_true, ite_false] at h
      cases h
    | some quote =>
      rw [price?_quoted hm hq] at h
      refine .inr ⟨quote, ?_⟩
      cases hprice : o.payload.marketPrice quote with
      | error b =>
        rw [hprice] at h
        cases h
      | ok p =>
        rw [hprice] at h
        cases h
        rfl

theorem Offer.price?_currency {node : Quotes} {o : Offer} {price : Price} (h : o.price? node = .ok (some price)) :
    price.currency = o.currency := by
  rcases price?_cases h with rfl | ⟨quote, hprice⟩
  · rfl
  · exact Payload.marketPrice_currency hprice

end Tradepost
