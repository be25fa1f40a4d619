import Tradepost.Edit.Merge
import Tradepost.Node.Basic

/-!
# Drafting a new offer

Everything that happens before a new offer is given to the registry: the
wallet is asked, the payment account looked up, the direction and the price
read, an id drawn, and the drafted offer checked against the account.
-/

namespace Tradepost

structure CreateParams where
  currency : String
  direction : Json
  price : Json
  useMarketPrice : Bool := false
  marginPercent : Binary64 := .zero
  amount : Int
  minAmount : Int
  buyerSecurityDeposit : Binary64
  triggerPrice : Int := 0
  account : String
  makerFeeCurrency : String := ""
deriving Repr, Inhabited

structure Terms where
  account : PaymentAccount
  currency : String
  direction : Direction
  price : Int
deriving Repr

/-- The wallet when it is ready for a new offer; the fee currency is noted before
anything else is looked at. -/
def Wallet.readyFor (w : Wallet) (feeCurrency : String) : Except ServiceError Wallet := do
  w.verify
  if feeCurrency.isEmpty then pure w else w.preferFeeCurrency feeCurrency

namespace Node

/-- The price that was asked for; a blank one is zero when the market sets it. -/
def priceAsked (p : CreateParams) (currency : String) : Outcome Int :=
  if p.useMarketPrice && p.price.isBlank then .ok 0 else Price.scaled p.price currency

def readTerms (n : Node) (p : CreateParams) : Outcome Terms := do
  match n.accounts.lookup p.account with
  | none => throw (.service (.accountNotFound p.account))
  | some account =>
    let currency := Text.upper p.currency
    let direction ← reported (Direction.parse p.direction)
    let price ← priceAsked p currency
    pure { account, currency, direction, price }

def acceptedOf : Option String → List String
  | some s => if s.isEmpty then [] else [s]
  | none => []

def payloadOf (n : Node) (id : String) (t : Terms) (margin : Binary64) (p : CreateParams) :
    Payload :=
  { id
    date := n.clock
    owner := n.fingerprint
    direction := t.direction
    baseCurrency := if Currency.isFiat t.currency then bitcoin else t.currency
    counterCurrency := if Currency.isFiat t.currency then t.currency else bitcoin
    price := if p.useMarketPrice then 0 else t.price
    useMarketPrice := p.useMarketPrice
    margin := if p.useMarketPrice then margin else .zero
    amount := p.amount
    minAmount := p.minAmount
    paymentMethod := t.account.method
    makerAccount := t.account.id
    buyerSecurityDeposit := p.buyerSecurityDeposit
    country := t.account.country
    acceptedCountries := acceptedOf t.account.country
    bank := t.account.bank
    acceptedBanks := acceptedOf t.account.bank }

def draft (n : Node) (id : String) (t : Terms) (p : CreateParams) : Outcome Offer := do
  let margin ← computed (fractionOf p.marginPercent)
  let payload := n.payloadOf id t margin p
  if t.account.fits payload then pure { payload, feed := .node }
  else throw (.service (.accountMismatch payload.counterCurrency t.account.id))

/-- Drafts a new offer. A draft that fails may have noted the fee currency or
used up an id. -/
def draftOffer (n : Node) (p : CreateParams) : Node × Outcome Offer :=
  match n.wallet.readyFor p.makerFeeCurrency with
  | .error e => (n, .error (.service e))
  | .ok wallet =>
    let n := { n with wallet }
    match n.readTerms p with
    | .error e => (n, .error e)
    | .ok terms =>
      let (ids, id) := n.ids.next
      ({ n with ids }, n.draft id terms p)

end Node

end Tradepost
