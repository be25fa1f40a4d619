import Tradepost.Edit.Scope

/-!
# Checking an edit

The rules are checked in order, and the first one that is broken is reported.
-/

namespace Tradepost

structure ValidatedEdit where
  editType : EditType
  scope : EditScope
  activation : ActivationChange
deriving DecidableEq, Repr

namespace EditRequest

def checkType (r : EditRequest) : Except ServiceError EditType :=
  match EditType.read? r.editType with
  | some t => .ok t
  | none => .error (.invalidEdit ("'" ++ r.editType.shown ++ "' is not a known edit type"))

def checkActivation (p : Payload) (t : EditType) (r : EditRequest) :
    Except ServiceError ActivationChange :=
  match ActivationChange.read? r.activation with
  | none =>
    .error (.invalidEdit ("'" ++ r.activation.shown ++ "' is not a valid activation state,"
      ++ " expected -1 (unchanged), 0 (disable) or 1 (enable)"))
  | some change =>
    if t = .activationOnly ∧ change = .unspecified then
      .error (.invalidEdit ("no activation state change requested for offer " ++ p.id))
    else .ok change

def checkPrice (p : Payload) (r : EditRequest) : Outcome Unit := do
  let value ← Price.scaled r.price p.currency
  if value ≤ 0 then throw (.service (.invalidPrice r.price.shown))

def marginInRange (m : Binary64) : Bool :=
  (Binary64.ofInt (-100)).lt m && m.lt (Binary64.ofInt 100)

def checkMargin (r : EditRequest) : Except ServiceError Unit :=
  match r.marginPercent with
  | none => .ok ()
  | some m =>
    if marginInRange m then .ok ()
    else .error (.invalidEdit (m.toText ++ "% is not a valid market price margin"))

def checkTrigger (p : Payload) (s : EditScope) (r : EditRequest) : Except ServiceError Unit :=
  if r.triggerPrice < 0 then
    .error (.invalidEdit ("trigger price " ++ toString r.triggerPrice ++ " cannot be negative"))
  else if !p.useMarketPrice && !(s.margin || r.useMarketPrice) then
    .error (.invalidEdit ("cannot set a trigger price on fixed price offer " ++ p.id))
  else .ok ()

def validate (p : Payload) (r : EditRequest) : Outcome ValidatedEdit := do
  let t ← reported r.checkType
  let s := t.scope
  let change ← reported (r.checkActivation p t)
  if s.fixedPrice then r.checkPrice p
  if s.margin then reported r.checkMargin
  if s.trigger then reported (r.checkTrigger p s)
  pure { editType := t, scope := s, activation := change }

end EditRequest

end Tradepost
