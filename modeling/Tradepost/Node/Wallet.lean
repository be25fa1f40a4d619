import Tradepost.Failure
import Tradepost.Text.Case

/-!
# The wallet

A node creates offers only while its wallet is available and unlocked. The
wallet remembers the currency that trade fees are paid in.
-/

namespace Tradepost

inductive FeeCurrency where
  | btc
  | bsq
deriving DecidableEq, Repr, Inhabited

def FeeCurrency.name : FeeCurrency → String
  | btc => "BTC"
  | bsq => "BSQ"

def FeeCurrency.ofName? (s : String) : Option FeeCurrency :=
  [btc, bsq].find? fun c => c.name = s

structure Wallet where
  available : Bool := true
  locked : Bool := false
  feeCurrency : FeeCurrency := .btc
deriving DecidableEq, Repr, Inhabited

namespace Wallet

def verify (w : Wallet) : Except ServiceError Unit :=
  if !w.available then .error (.walletUnavailable "wallet is not yet available")
  else if w.locked then .error .walletLocked
  else .ok ()

def preferFeeCurrency (w : Wallet) (code : String) : Except ServiceError Wallet :=
  match FeeCurrency.ofName? (Text.upper code) with
  | some c => .ok { w with feeCurrency := c }
  | none =>
    .error (.invalidArgument (code ++ " cannot be used to pay trade fees, use BTC or BSQ") 4000)

end Wallet

end Tradepost
