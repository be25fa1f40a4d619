import Tradepost.Node.Query

/-!
# Offers as clients see them

The margin is shown as a percentage, the price as text, and the date in whole
milliseconds.
-/

namespace Tradepost

structure OfferView where
  id : String
  direction : Direction
  price : Option String
  useMarketPrice : Bool
  marginPercent : Binary64
  amount : Int
  minAmount : Int
  baseCurrency : String
  counterCurrency : String
  paymentMethod : String
  account : String
  owner : String
  state : OfferState
  date : Int
  triggerPrice : Int := 0
  isActivated : Bool := true
  isMine : Bool := false
deriving DecidableEq, Repr

namespace OfferView

/-- Milliseconds of a time in microseconds: seconds as a double, times 1000 as
a double, the fraction cut off. -/
def millis (micros : Int) : Int :=
  let seconds := Binary64.ofRatio (micros < 0) micros.natAbs 1000000
  ((seconds.mul (.ofInt 1000)).truncate?).getD 0

def priceText (quotes : Quotes) (o : Offer) : Except Breakdown (Option String) := do
  match ← o.price? quotes with
  | none => pure none
  | some p => pure (some (← p.text))

def ofOffer (quotes : Quotes) (o : Offer) (isMine : Bool := false) :
    Except Breakdown OfferView := do
  let p := o.payload
  let price ← priceText quotes o
  pure {
    id := p.id
    direction := p.direction
    price
    useMarketPrice := p.useMarketPrice
    marginPercent := p.margin.mul (.ofInt 100)
    amount := p.amount
    minAmount := p.minAmount
    baseCurrency := p.baseCurrency
    counterCurrency := p.counterCurrency
    paymentMethod := p.paymentMethod
    account := p.makerAccount
    owner := p.owner
    state := o.state
    date := millis p.date
    isMine }

def ofOwn (quotes : Quotes) (o : Offer) (terms : OpenOffer) : Except Breakdown OfferView := do
  let v ← ofOffer quotes o true
  pure { v with triggerPrice := terms.triggerPrice, isActivated := !terms.isDeactivated }

def json (v : OfferView) : Json :=
  .object [
    ("id", .text v.id),
    ("direction", .text v.direction.name),
    ("price", Json.optText v.price),
    ("use_market_based_price", .bool v.useMarketPrice),
    ("market_price_margin", .real v.marginPercent),
    ("amount", .integer v.amount),
    ("min_amount", .integer v.minAmount),
    ("base_currency_code", .text v.baseCurrency),
    ("counter_currency_code", .text v.counterCurrency),
    ("payment_method_id", .text v.paymentMethod),
    ("payment_account_id", .text v.account),
    ("owner_fingerprint", .text v.owner),
    ("state", .text v.state.name),
    ("date", .integer v.date),
    ("trigger_price", .integer v.triggerPrice),
    ("is_activated", .bool v.isActivated),
    ("is_my_offer", .bool v.isMine)]

end OfferView

end Tradepost
