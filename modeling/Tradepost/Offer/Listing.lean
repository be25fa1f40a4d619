import Tradepost.Offer.Basic

/-!
# Which offers a listing shows, and in which order

Listings match direction and counter currency in any letter case. A buyer
sees the cheapest offer first, a seller the dearest; offers without a price
come last, and equal offers keep the order they were found in.
-/

namespace Tradepost

def Offer.isOwnedBy (fingerprint : String) (o : Offer) : Bool := o.payload.owner = fingerprint

def Offer.matches (direction currency : String) (o : Offer) : Bool :=
  Text.lower o.payload.direction.name = Text.lower direction
    && Text.lower o.payload.counterCurrency = Text.lower currency

namespace Listing

def insertBefore {α : Type} (before : α → α → Bool) (x : α) : List α → List α
  | [] => [x]
  | y :: ys => if before x y then x :: y :: ys else y :: insertBefore before x ys

/-- Items in the order of `before`; items that may stand before each other keep
their order. -/
def arrange {α : Type} (before : α → α → Bool) (xs : List α) : List α :=
  xs.foldr (insertBefore before) []

def cheapestFirst (direction : String) : Bool := Text.upper direction = Direction.buy.name

def byPrice {α : Type} (cheapest : Bool) (items : List (Option Price × α)) : List α :=
  let priced := items.filterMap fun (p, x) => p.map fun p => (p.value, x)
  let before := fun (a b : Int × α) => if cheapest then a.1 ≤ b.1 else b.1 ≤ a.1
  (arrange (fun a b => before a b) priced).map Prod.snd
    ++ items.filterMap fun (p, x) => if p.isNone then some x else none

def sortByPrice {α : Type} (price? : α → Except Breakdown (Option Price)) (direction : String)
    (items : List α) : Except Breakdown (List α) := do
  let priced ← items.mapM fun x => do pure (← price? x, x)
  pure (byPrice (cheapestFirst direction) priced)

end Listing

end Tradepost
