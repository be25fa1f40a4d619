import Tradepost.Lenient
import Tradepost.Node.Service

/-!
# Bodies of requests
-/

namespace Tradepost

open Checked Lenient

/-! ## Creating an offer -/

structure CreateBody where
  currency : String
  direction : String
  price : String
  useMarketPrice : Bool
  marginPercent : Binary64
  amount : Int
  minAmount : Int
  buyerSecurityDeposit : Binary64
  triggerPrice : Int
  account : String
  makerFeeCurrency : String
deriving DecidableEq, Repr

def isCode (s : String) : Bool := !s.isEmpty && s = Text.strip s && !s.toList.contains ' '

def codeText (v : Json) : Except Problem String := do
  let s ← text v
  if isCode s then pure s else throw .valueError

def makerFeeWords : List String := ["", "BTC", "BSQ", "btc", "bsq"]

/-- The deposit of an offer that does not name one, 15 percent. -/
def defaultDeposit : Binary64 := Binary64.ofDecimal false 15 (-2)

def CreateBody.fields (v : Json) : Checked CreateBody :=
  CreateBody.mk
    <$> required v "currency_code" (one codeText)
    <*> required v "direction" (one text)
    <*> optional v "price" "" (one text)
    <*> optional v "use_market_based_price" false (one bool)
    <*> optional v "market_price_margin" .zero (one real)
    <*> required v "amount" (one positiveInt)
    <*> required v "min_amount" (one positiveInt)
    <*> optional v "buyer_security_deposit" defaultDeposit (one real)
    <*> optional v "trigger_price" 0 (one nonNegativeInt)
    <*> required v "payment_account_id" (one codeText)
    <*> optional v "maker_fee_currency_code" "" (one (oneOf makerFeeWords))

def CreateBody.params (b : CreateBody) : CreateParams where
  currency := b.currency
  direction := .text b.direction
  price := .text b.price
  useMarketPrice := b.useMarketPrice
  marginPercent := b.marginPercent
  amount := b.amount
  minAmount := b.minAmount
  buyerSecurityDeposit := b.buyerSecurityDeposit
  triggerPrice := b.triggerPrice
  account := b.account
  makerFeeCurrency := b.makerFeeCurrency

/-! ## Editing an offer -/

/-- The state stays with -1, the offer is switched off with 0 and on with 1. -/
structure EditBody where
  editType : EditType
  price : String
  useMarketPrice : Bool
  marginPercent : Option Binary64
  triggerPrice : Int
  enable : Int
deriving DecidableEq, Repr

def editTypeText : Json → Except Problem EditType
  | .text s => readable (fun s => (EditType.ofName? s).elim (.error .enumeration) .ok) s
  | _ => .error .enumeration

def EditBody.fields (v : Json) : Checked EditBody :=
  EditBody.mk
    <$> required v "edit_type" (one editTypeText)
    <*> optional v "price" "" (one text)
    <*> optional v "use_market_based_price" false (one bool)
    <*> optional v "market_price_margin" none (one optReal)
    <*> optional v "trigger_price" 0 (one int)
    <*> optional v "enable" (-1) (one int)

def EditBody.request (b : EditBody) : EditRequest where
  editType := .text b.editType.name
  price := .text b.price
  marginPercent := b.marginPercent
  triggerPrice := b.triggerPrice
  activation := .integer b.enable
  useMarketPrice := b.useMarketPrice

/-! ## Objects -/

def ofObject {α : Type} (p : Problem) (fields : Json → Checked α) (v : Json) : Checked α :=
  match v with
  | .object _ => fields v
  | v => fail [{ problem := p, value := v }]

end Tradepost
