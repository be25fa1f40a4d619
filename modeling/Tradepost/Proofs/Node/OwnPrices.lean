import Tradepost.Proofs.Node.Lifetime
import Tradepost.Proofs.Offer.Listing
import Tradepost.Proofs.Offer.Pricing

/-!
# Prices of own offers that follow the market

Edits set a margin of less than one either way, so the price of an own offer is
never less than nothing and can always be computed. Creation sets whatever
margin it is given.
-/

namespace Tradepost.Node

open Number Registry EditRequest

variable {n : Node} {log : List (Node × Call)}

def Unchecked (log : List (Node × Call)) (margin : Binary64) : Prop :=
  ∃ p, .create p ∈ calls log ∧ p.useMarketPrice = true ∧ marginInRange p.marginPercent = false ∧
    fractionOf p.marginPercent = .ok margin

structure Resolving (log : List (Node × Call)) (e : Entry) : Prop where
  feed : e.offer.feed = .node
  margin : e.offer.payload.margin.UpToOne ∨ Unchecked log e.offer.payload.margin

theorem resolving_opened {p : CreateParams} {o : Offer} (hp : .create p ∈ calls log)
    (ho : (n.draftOffer p).2 = .ok o) :
    Resolving log (.opened o p.triggerPrice) := by
  obtain ⟨t, f, hd⟩ := draftOffer_drafted ho
  have hmargin := hd.margin
  refine ⟨by rw [hd.offer]; rfl, ?_⟩
  show o.payload.margin.UpToOne ∨ Unchecked log o.payload.margin
  cases hm : p.useMarketPrice with
  | false =>
    rw [hm] at hmargin
    rw [hmargin]
    exact .inl (Binary64.upToOne_zero ..)
  | true =>
    rw [hm] at hmargin
    rw [hmargin]
    cases hr : marginInRange p.marginPercent with
    | false => exact .inr ⟨p, hp, hm, hr, hd.fraction⟩
    | true =>
      obtain ⟨f', hf', hone⟩ := fractionOf_upToOne hr
      obtain rfl : f' = f := Except.ok.inj (hf'.symm.trans hd.fraction)
      exact .inl hone

theorem Resolving.revised {r : EditRequest} {v : ValidatedEdit} {e e' : Entry} (hrev : Revised r v e e')
    (h : Resolving log e) : Resolving log e' := by
  obtain ⟨q, hq, ho⟩ := hrev.offer
  refine ⟨by rw [ho]; rfl, ?_⟩
  have hp : e'.offer.payload.margin = q.margin := congrArg (fun o => o.payload.margin) ho
  rw [hp]
  cases hq with
  | margin hm hf =>
    obtain ⟨f, hf', hone⟩ := marginFraction_upToOne (hrev.valid.margin hm)
    cases hf'.symm.trans hf
    exact .inl hone
  | trigger _ _ => exact h.margin
  | fixed _ _ _ _ => exact .inl (Binary64.upToOne_zero ..)
  | none _ _ _ => exact h.margin

theorem Ran.resolving (h : Ran log n) {own : Own} (hown : own ∈ n.snapshotOwn) :
    Resolving log own.entry :=
  h.entry (h.upheld (fun _ _ _ hp ho => resolving_opened (mem_calls hp) ho) fun _ _ _ _ => Resolving.revised) hown

theorem quote?_own {o : Offer} (h : o.feed = .node) (node : Quotes) : o.quote? node = node.get? o.currency := by
  unfold Offer.quote? Offer.quotes?
  rw [h]
  rfl

theorem Resolving.price {e : Entry} (h : Resolving log e) (hmarket : e.offer.payload.useMarketPrice = true)
    {node : Quotes} {quote : Decimal} (hq : node.get? e.offer.currency = some quote) (hplain : quote.Plain) :
    (∃ x, e.offer.price? node = .ok (some x) ∧ 0 ≤ x.value) ∨ Unchecked log e.offer.payload.margin := by
  refine h.margin.imp_left fun hone => ?_
  obtain ⟨x, hx, hpos⟩ := marketPrice_of_upToOne hplain hone
  refine ⟨x, ?_, hpos⟩
  rw [price?_quoted hmarket ((quote?_own h.feed node).trans hq), hx]
  rfl

theorem Resolving.priced {e : Entry} (h : Resolving log e) (hchecked : ∀ margin, ¬ Unchecked log margin)
    {node : Quotes} (hplain : node.Plain) : ∃ p, e.offer.price? node = .ok p := by
  by_cases hmarket : e.offer.payload.useMarketPrice = true
  · cases hq : node.get? e.offer.currency with
    | none => exact price?_unquoted fun _ => (quote?_own h.feed node).trans hq
    | some quote =>
      rcases h.price hmarket hq (hplain _ _ hq) with ⟨x, hx, _⟩ | hbad
      · exact ⟨_, hx⟩
      · exact absurd hbad (hchecked _)
  · exact price?_unquoted fun hm => absurd hm hmarket

/-- **Own offers that follow the market have a price that is not negative.** After any run and under
all plain quotes, but for a margin that an offer was created with and that no edit would set.
Without such margins own offers can be listed under every direction and currency. -/
theorem own_market_price (h : Ran log n) (hq : n.quotes.Plain) :
    (∀ own ∈ n.snapshotOwn, own.offer.payload.useMarketPrice = true →
      ∀ quote, n.quotes.get? own.offer.currency = some quote →
        (∃ x, n.priceOf own.offer = .ok (some x) ∧ 0 ≤ x.value) ∨ Unchecked log own.offer.payload.margin) ∧
    ((∀ p, .create p ∈ calls log → p.useMarketPrice = true → marginInRange p.marginPercent = true) →
      ∀ direction currency d, Direction.parse (.text direction) = .ok d →
        ∃ L, n.getMyOffers direction currency = .ok L) := by
  refine ⟨fun own hown hmarket quote hquote => (h.resolving hown).price hmarket hquote (hq _ _ hquote), ?_⟩
  intro hrange direction currency d hd
  have hchecked : ∀ margin, ¬ Unchecked log margin := by
    rintro margin ⟨p, hp, hm, hr, _⟩
    cases hr.symm.trans (hrange p hp hm)
  obtain ⟨L, hL⟩ : ∃ L, Listing.sortByPrice (fun o : Own => n.priceOf o.offer) direction
      (n.snapshotOwn.filter fun o =>
         o.offer.isOwnedBy n.fingerprint && o.offer.matches direction currency) = .ok L :=
    Listing.sortByPrice_total fun own hown => (h.resolving (List.mem_filter.mp hown).1).priced hchecked hq
  refine ⟨L, ?_⟩
  unfold getMyOffers
  rw [hd]
  exact computed_eq_ok.mpr hL

theorem quoted_plain : quoted.quotes.Plain := by
  refine plain_of_entries fun e he => ?_
  obtain rfl := List.mem_singleton.mp (show e ∈ [("EUR", Decimal.finite false 50000 0)] from he)
  exact ⟨50000, 0, rfl, by norm_num [size]⟩

def marginFifty : EditRequest := { editType := .text "MKT_PRICE_MARGIN_ONLY", marginPercent := some (.ofInt 50) }

def fixedThenMarket : Node :=
  ((quoted.perform (.create (createFixed "1" 0))).1.perform (.edit "gen-1" marginFifty)).1

def marketLog : List (Node × Call) :=
  [((quoted.perform (.create (createFixed "1" 0))).1, .edit "gen-1" marginFifty),
    (quoted, .create (createFixed "1" 0))]

theorem fixedThenMarket_ran : Ran marketLog fixedThenMarket :=
  ((Ran.fresh rfl rfl rfl : Ran [] quoted).call (.create (createFixed "1" 0))).call (.edit "gen-1" marginFifty)

theorem fixedThenMarket_plain : fixedThenMarket.quotes.Plain := by
  have h : fixedThenMarket.quotes = quoted.quotes := by decide +kernel
  rw [h]
  exact quoted_plain

theorem own_market_price_fixedThenMarket :
    (∃ own ∈ fixedThenMarket.snapshotOwn, own.offer.payload.useMarketPrice = true ∧
      ∃ x, fixedThenMarket.priceOf own.offer = .ok (some x) ∧ 0 ≤ x.value) ∧
    ∃ L, fixedThenMarket.getMyOffers "BUY" "EUR" = .ok L := by
  have hfixed : ∀ p, .create p ∈ calls marketLog → p.useMarketPrice = true →
      marginInRange p.marginPercent = true := by
    intro p hp hm
    rcases List.mem_cons.mp hp with hp | hp
    · cases hp
    · cases List.mem_singleton.mp hp
      cases hm
  obtain ⟨hprice, hlist⟩ := own_market_price fixedThenMarket_ran fixedThenMarket_plain
  refine ⟨?_, hlist hfixed "BUY" "EUR" .buy (by decide)⟩
  obtain ⟨own, hown, hmarket, hquote⟩ : ∃ own ∈ fixedThenMarket.snapshotOwn,
    own.offer.payload.useMarketPrice = true ∧
    fixedThenMarket.quotes.get? own.offer.currency = some (.finite false 50000 0) := by decide +kernel
  refine ⟨own, hown, hmarket, ?_⟩
  rcases hprice own hown hmarket _ hquote with hx | ⟨p, hp, hm, hr, _⟩
  · exact hx
  · cases hr.symm.trans (hfixed p hp hm)

/-- An offer can be created with a price below zero, or with one that breaks every listing it is in.
-/
theorem created_unchecked :
    (∀ m, Ran [(quoted, .create (createMarket m))] (quoted.perform (.create (createMarket m))).1) ∧
    (∃ own ∈ (quoted.perform (.create (createMarket (.ofInt 150)))).1.snapshotOwn,
      own.offer.payload.useMarketPrice = true ∧
        (quoted.perform (.create (createMarket (.ofInt 150)))).1.priceOf own.offer =
          .ok (some ⟨-250000000, "EUR"⟩)) ∧
    (quoted.perform (.create (createMarket .nan))).1.getMyOffers "BUY" "EUR" = .error (.breakdown .notANumber) :=
  ⟨fun m => (Ran.fresh rfl rfl rfl : Ran [] quoted).call (.create (createMarket m)), by decide +kernel,
    by decide +kernel⟩

end Tradepost.Node
