import Tradepost.Edit.Scope

/-!
# Applying an edit

An edit replaces the price, the margin and the way of pricing. Everything else
of the payload is carried over as it is.
-/

namespace Tradepost

structure Pricing where
  price : Int
  margin : Binary64
  useMarketPrice : Bool
deriving DecidableEq, Repr

def Payload.pricing (p : Payload) : Pricing := ⟨p.price, p.margin, p.useMarketPrice⟩

def Payload.withPricing (p : Payload) (q : Pricing) : Payload :=
  { p with price := q.price, margin := q.margin, useMarketPrice := q.useMarketPrice }

def hundredth : Binary64 := Binary64.ofDecimal false 1 (-2)

def fractionOf (percent : Binary64) : Except Breakdown Binary64 := exactMultiply percent hundredth

namespace EditRequest

/-- The margin to set, as a fraction; a margin left out, or zero of either sign, is zero. -/
def marginFraction (r : EditRequest) : Except Breakdown Binary64 :=
  match r.marginPercent with
  | some m => fractionOf (if m.isZero then .zero else m)
  | none => fractionOf .zero

def pricing (p : Payload) (t : EditType) (r : EditRequest) : Outcome Pricing := do
  let s := t.scope
  let price ← if s.fixedPrice then Price.scaled r.price p.currency else pure p.price
  if s.margin then
    pure ⟨price, ← computed r.marginFraction, true⟩
  else if s.trigger then
    pure ⟨price, p.margin, p.useMarketPrice || r.useMarketPrice⟩
  else if s.fixedPrice then pure ⟨price, .zero, false⟩
  else pure ⟨price, p.margin, p.useMarketPrice⟩

def merge (p : Payload) (t : EditType) (r : EditRequest) : Outcome Payload :=
  (r.pricing p t).map p.withPricing

def newTrigger (s : EditScope) (edited : Payload) (current : Int) (r : EditRequest) : Int :=
  if s.trigger then r.triggerPrice else if edited.useMarketPrice then current else 0

end EditRequest

end Tradepost
