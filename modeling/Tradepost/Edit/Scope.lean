import Tradepost.Offer.Basic

/-!
# What an edit may touch

Every edit type names the parts of an offer it changes: the fixed price, the
margin, the trigger price, the activation state.
-/

namespace Tradepost

inductive EditType where
  | activationOnly
  | fixedPriceOnly
  | fixedPriceAndActivation
  | marginOnly
  | marginAndActivation
  | triggerOnly
  | triggerAndActivation
  | marginAndTrigger
  | marginTriggerAndActivation
deriving DecidableEq, Repr, Inhabited

structure EditScope where
  fixedPrice : Bool := false
  margin : Bool := false
  trigger : Bool := false
  activation : Bool := false
deriving DecidableEq, Repr

def EditScope.followsMarket (s : EditScope) : Bool := s.margin || s.trigger

namespace EditType

def scope : EditType → EditScope
  | activationOnly => { activation := true }
  | fixedPriceOnly => { fixedPrice := true }
  | fixedPriceAndActivation => { fixedPrice := true, activation := true }
  | marginOnly => { margin := true }
  | marginAndActivation => { margin := true, activation := true }
  | triggerOnly => { trigger := true }
  | triggerAndActivation => { trigger := true, activation := true }
  | marginAndTrigger => { margin := true, trigger := true }
  | marginTriggerAndActivation => { margin := true, trigger := true, activation := true }

def name : EditType → String
  | activationOnly => "ACTIVATION_STATE_ONLY"
  | fixedPriceOnly => "FIXED_PRICE_ONLY"
  | fixedPriceAndActivation => "FIXED_PRICE_AND_ACTIVATION_STATE"
  | marginOnly => "MKT_PRICE_MARGIN_ONLY"
  | marginAndActivation => "MKT_PRICE_MARGIN_AND_ACTIVATION_STATE"
  | triggerOnly => "TRIGGER_PRICE_ONLY"
  | triggerAndActivation => "TRIGGER_PRICE_AND_ACTIVATION_STATE"
  | marginAndTrigger => "MKT_PRICE_MARGIN_AND_TRIGGER_PRICE"
  | marginTriggerAndActivation => "MKT_PRICE_MARGIN_AND_TRIGGER_PRICE_AND_ACTIVATION_STATE"

def all : List EditType :=
  [activationOnly, fixedPriceOnly, fixedPriceAndActivation, marginOnly, marginAndActivation,
    triggerOnly, triggerAndActivation, marginAndTrigger, marginTriggerAndActivation]

def ofName? (s : String) : Option EditType := all.find? fun t => t.name = s

def read? : Json → Option EditType
  | .text s => ofName? s
  | _ => none

end EditType

inductive ActivationChange where
  | unspecified
  | disable
  | enable
deriving DecidableEq, Repr, Inhabited

namespace ActivationChange

def ofInt? (n : Int) : Option ActivationChange :=
  if n = -1 then some unspecified
  else if n = 0 then some disable
  else if n = 1 then some enable
  else none

/-- The change that was sent: anything equal to -1, 0 or 1 as a number. -/
def read? : Json → Option ActivationChange
  | .integer n => ofInt? n
  | .bool b => some (if b then enable else disable)
  | .real x => x.toInt?.bind ofInt?
  | _ => none

def apply (change : ActivationChange) (current : OpenState) : OpenState :=
  match change with
  | unspecified => current
  | enable => .available
  | disable => .deactivated

end ActivationChange

/-- An edit as a client asks for it. Which values matter depends on the type. -/
structure EditRequest where
  editType : Json
  price : Json := .text ""
  marginPercent : Option Binary64 := none
  triggerPrice : Int := 0
  activation : Json := .integer (-1)
  useMarketPrice : Bool := false
deriving Repr, Inhabited

end Tradepost
