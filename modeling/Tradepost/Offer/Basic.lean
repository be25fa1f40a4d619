import Tradepost.OrderedMap
import Tradepost.Price

/-!
# Offers

The payload of an offer is what the network shares; it never changes, an edit
builds a new one. Around it stands what a node knows of the offer: its state,
an error attached to it, and the feed its market price comes from.
-/

namespace Tradepost

/-! ## Vocabulary -/

inductive Direction where
  | buy
  | sell
deriving DecidableEq, Repr, Inhabited

def Direction.name : Direction → String
  | buy => "BUY"
  | sell => "SELL"

/-- The life of an offer as the network sees it. -/
inductive OfferState where
  | unknown
  | feePaid
  | available
  | notAvailable
  | removed
deriving DecidableEq, Repr, Inhabited

def OfferState.name : OfferState → String
  | unknown => "UNKNOWN"
  | feePaid => "OFFER_FEE_PAID"
  | available => "AVAILABLE"
  | notAvailable => "NOT_AVAILABLE"
  | removed => "REMOVED"

/-- The state of an own offer, known to this node only. -/
inductive OpenState where
  | available
  | reserved
  | closed
  | canceled
  | deactivated
deriving DecidableEq, Repr, Inhabited

def OpenState.name : OpenState → String
  | available => "AVAILABLE"
  | reserved => "RESERVED"
  | closed => "CLOSED"
  | canceled => "CANCELED"
  | deactivated => "DEACTIVATED"

def Direction.ofName? (s : String) : Option Direction :=
  [buy, sell].find? fun d => d.name = s

def OfferState.ofName? (s : String) : Option OfferState :=
  [unknown, feePaid, available, notAvailable, removed].find? fun t => t.name = s

def OpenState.ofName? (s : String) : Option OpenState :=
  [available, reserved, closed, canceled, deactivated].find? fun t => t.name = s

def Direction.parse (sent : Json) : Except ServiceError Direction :=
  match sent with
  | .text s =>
    match ofName? (Text.upper s) with
    | some d => .ok d
    | none => .error (.invalidDirection s)
  | v => .error (.invalidDirection v.shown)

/-! ## Payload -/

/-- The terms of an offer: its date in microseconds, its scaled price, zero if it
follows the market, and its margin as a fraction of the market price. -/
structure Payload where
  id : String
  date : Int
  owner : String
  direction : Direction
  baseCurrency : String
  counterCurrency : String
  price : Int
  useMarketPrice : Bool
  margin : Binary64
  amount : Int
  minAmount : Int
  paymentMethod : String
  makerAccount : String
  buyerSecurityDeposit : Binary64
  country : Option String
  acceptedCountries : List String
  bank : Option String
  acceptedBanks : List String
deriving DecidableEq, Repr, Inhabited

def bitcoin : String := "BTC"

/-- The side of the market that is not bitcoin: the counter currency on a fiat
market, the base currency on a crypto market. -/
def Payload.currency (p : Payload) : String :=
  if p.baseCurrency = bitcoin then p.counterCurrency else p.baseCurrency

/-! ## Market quotes -/

structure Quotes where
  byCode : OrderedMap String Decimal := {}
deriving Repr, Inhabited, DecidableEq

namespace Quotes

def set (q : Quotes) (code : String) (price : Decimal) : Quotes :=
  ⟨q.byCode.insert (Text.upper code) price⟩

def get? (q : Quotes) (code : String) : Option Decimal := q.byCode.get? (Text.upper code)

def ofList (pairs : List (String × Decimal)) : Quotes :=
  pairs.foldl (fun q e => q.set e.1 e.2) {}

end Quotes

inductive Feed where
  | detached
  | node
  | own (quotes : Quotes)
deriving Repr, Inhabited, DecidableEq

/-! ## Offers and own offers -/

structure Offer where
  payload : Payload
  state : OfferState := .unknown
  error? : Option String := none
  feed : Feed := .detached
deriving Repr, Inhabited, DecidableEq

namespace Offer

def id (o : Offer) : String := o.payload.id

def currency (o : Offer) : String := o.payload.currency

def attached (o : Offer) : Offer :=
  match o.feed with
  | .detached => { o with feed := .node }
  | _ => o

def quotes? (node : Quotes) (o : Offer) : Option Quotes :=
  match o.feed with
  | .detached => none
  | .node => some node
  | .own q => some q

end Offer

/-- A positive margin lies below the market price: for the buyer on a fiat
market, for the seller on a crypto market. -/
def Payload.below (p : Payload) : Bool :=
  if Currency.isCrypto p.currency then p.direction = .sell else p.direction = .buy

def Payload.marketPrice (p : Payload) (quote : Decimal) : Except Breakdown Price := do
  let margin := p.margin.toDecimal
  let one := Decimal.ofInt 1
  let factor ← if p.below then one.sub margin else one.add margin
  let value ← Price.scale (← quote.mul factor) p.currency
  pure ⟨value, p.currency⟩

/-- The fixed price, or the market price moved by the margin; none when the
offer follows the market and there is no quote. -/
def Offer.price? (node : Quotes) (o : Offer) : Except Breakdown (Option Price) :=
  let p := o.payload
  if !p.useMarketPrice then .ok (some ⟨p.price, p.currency⟩)
  else
    match (o.quotes? node).bind (·.get? p.currency) with
    | none => .ok none
    | some quote => (p.marketPrice quote).map some

/-- An own offer in the registry: which offer record it shows at present, with
what only this node knows of it. A trigger price of zero is switched off. -/
structure OpenOffer where
  offer : Nat
  triggerPrice : Int := 0
  state : OpenState := .available
deriving Repr, Inhabited, DecidableEq

def OpenOffer.isDeactivated (o : OpenOffer) : Bool := o.state = .deactivated

end Tradepost
