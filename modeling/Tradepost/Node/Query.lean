import Tradepost.Node.Basic
import Tradepost.Offer.Listing

/-!
# Looking offers up

Queries about the offers of others show only what can be taken; queries about
own offers show all of them. An own offer is never found among the offers of
others.
-/

namespace Tradepost.Node

def candidates (n : Node) (id : String) : List (Nat × Offer) :=
  n.snapshotOffers.filter fun (_, o) => o.id = id && !o.isOwnedBy n.fingerprint

def refusal? (n : Node) (o : Offer) : Option Refusal := n.filter.refusal? n.accounts o

/-- The one offer of somebody else with this id that can be taken. When none
can be, the last refusal is the reason; more than one is as good as none. -/
def getOffer (n : Node) (id : String) : Except ServiceError (Nat × Offer) :=
  let found := n.candidates id
  match found.filter fun (_, o) => (n.refusal? o).isNone with
  | [o] => .ok o
  | [] =>
    .error (.offerNotFound id ((found.filterMap fun (_, o) => n.refusal? o).getLast?.map (·.text)))
  | _ => .error (.offerNotFound id none)

def getMyOffer (n : Node) (id : String) : Except ServiceError Registry.Own :=
  match n.snapshotOwn.find? fun o => o.offer.id = id && o.offer.isOwnedBy n.fingerprint with
  | some o => .ok o
  | none => .error (.offerNotFound id none)

def getMyOpenOffer (n : Node) (id : String) : Except ServiceError Registry.Own :=
  match n.registry.lookup? id with
  | some o => if o.offer.isOwnedBy n.fingerprint then .ok o else .error (.offerNotFound id none)
  | none => .error (.offerNotFound id none)

def getOffers (n : Node) (direction currency : String) : Outcome (List (Nat × Offer)) := do
  let _ ← reported (Direction.parse (.text direction))
  let found := n.snapshotOffers.filter fun (_, o) =>
    !o.isOwnedBy n.fingerprint && o.matches direction currency && (n.refusal? o).isNone
  computed (Listing.sortByPrice (fun (_, o) => n.priceOf o) direction found)

def getMyOffers (n : Node) (direction currency : String) : Outcome (List Registry.Own) := do
  let _ ← reported (Direction.parse (.text direction))
  let found := n.snapshotOwn.filter fun o =>
    o.offer.isOwnedBy n.fingerprint && o.offer.matches direction currency
  computed (Listing.sortByPrice (fun o => n.priceOf o.offer) direction found)

end Tradepost.Node
