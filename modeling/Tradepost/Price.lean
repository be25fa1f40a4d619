import Tradepost.Currency
import Tradepost.Failure
import Tradepost.Json.Value

/-!
# Prices

Prices come in as decimal text, are kept as whole numbers scaled by the
currency's precision, and go out as decimal text again. No binary number ever
reaches a stored price.
-/

namespace Tradepost

structure Price where
  value : Int
  currency : String
deriving DecidableEq, Repr

namespace Price

def read (sent : Json) : Except ServiceError Decimal :=
  match sent with
  | .text s =>
    match Decimal.ofString? (Text.strip s) with
    | some x => if x.isFinite then .ok x else .error (.invalidPrice s)
    | none => .error (.invalidPrice s)
  | v => .error (.invalidPrice v.shown)

/-- An amount of a currency in its smallest unit, ties away from zero. -/
def scale (x : Decimal) (currency : String) : Except Breakdown Int := do
  (← x.shift (Currency.precision currency)).toInt

def scaled (sent : Json) (currency : String) : Outcome Int := do
  let x ← reported (read sent)
  computed (scale x currency)

def textOf (value : Int) (currency : String) : Except Breakdown String := do
  let places := Currency.precision currency
  match ← (Decimal.ofInt value).shift (-places) with
  | .finite s c e => pure (Decimal.fixedText places s c e)
  | .infinity _ => .error .unbounded
  | .nan _ => .error .notANumber

def text (p : Price) : Except Breakdown String := textOf p.value p.currency

def le (p q : Price) : Bool := p.value < q.value || (p.value == q.value && Text.le p.currency q.currency)

end Price

/-- The product of two numbers through their shortest decimal form, so that
5.0 times 0.01 is 0.05. -/
def exactMultiply (a b : Binary64) : Except Breakdown Binary64 := do
  pure (Binary64.ofDecimalNumber (← a.toDecimal.mul b.toDecimal))

end Tradepost
