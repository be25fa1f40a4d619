import Tradepost.Offer.Basic
import Tradepost.Registry.Ledger

/-!
# The offer registry

The registry keeps the offer book of the network, the table of own open
offers, and the set of ids that are being edited. Book and table point to
records by number, so that the book entry of an own offer and its open offer
are one and the same record.

A command answers with one report. A refused placement, start or publication
leaves book, table and editing set alone; a removal takes the id out of all
three before it finds out whether there was an open offer to remove.
-/

namespace Tradepost

/-- Book and table give the number of a record for the id of an offer. -/
structure Registry where
  offers : Ledger Offer := {}
  openOffers : Ledger OpenOffer := {}
  book : OrderedMap String Nat := {}
  table : OrderedMap String Nat := {}
  editing : List String := []
deriving Repr, Inhabited

inductive Report where
  | accepted (receipt : Option String)
  | refused (message : String)
deriving DecidableEq, Repr

namespace Registry

/-! ## Records -/

def offer? (r : Registry) (n : Nat) : Option Offer := r.offers.get? n

def openOffer? (r : Registry) (n : Nat) : Option OpenOffer := r.openOffers.get? n

def idOf? (r : Registry) (n : Nat) : Option String := (r.offer? n).map Offer.id

def openIdOf? (r : Registry) (k : Nat) : Option String :=
  (r.openOffer? k).bind fun t => r.idOf? t.offer

def fileOffer (r : Registry) (o : Offer) : Registry × Nat :=
  ({ r with offers := r.offers.add o }, r.offers.nextNumber)

def fileOpenOffer (r : Registry) (o : OpenOffer) : Registry × Nat :=
  ({ r with openOffers := r.openOffers.add o }, r.openOffers.nextNumber)

def amendOffer (r : Registry) (n : Nat) (f : Offer → Offer) : Registry :=
  { r with offers := r.offers.amend n f }

def amendOpenOffer (r : Registry) (n : Nat) (f : OpenOffer → OpenOffer) : Registry :=
  { r with openOffers := r.openOffers.amend n f }

/-! ## Snapshots -/

def bookOffers (r : Registry) : List (Nat × Offer) :=
  r.book.values.filterMap fun n => (r.offer? n).map (n, ·)

/-- An own offer as it stands: the number of its open offer, and what the open
offer and its offer hold. -/
structure Own where
  number : Nat
  terms : OpenOffer
  offer : Offer
deriving DecidableEq, Repr, Inhabited

def own? (r : Registry) (n : Nat) : Option Own := do
  let terms ← r.openOffer? n
  let offer ← r.offer? terms.offer
  pure { number := n, terms, offer }

def tableOffers (r : Registry) : List Own := r.table.values.filterMap r.own?

def lookup? (r : Registry) (id : String) : Option Own := do r.own? (← r.table.get? id)

/-! ## Offers of peers -/

/-- Puts the record of a peer's offer into the book; one without a feed gets the node's. -/
def announce (r : Registry) (n : Nat) : Registry :=
  match r.offer? n with
  | some o => { r.amendOffer n Offer.attached with book := r.book.insert o.id n }
  | none => r

def addNetworkOffer (r : Registry) (o : Offer) : Registry :=
  let (r, n) := r.fileOffer o
  r.announce n

/-! ## What commands change -/

def placed (r : Registry) (n : Nat) (id : String) (trigger : Int) : Registry :=
  let r := r.amendOffer n fun o => { o with state := .available }
  let (r, k) := r.fileOpenOffer { offer := n, triggerPrice := trigger }
  { r with table := r.table.insert id k, book := r.book.insert id n }

def withdrawn (r : Registry) (id : String) : Registry :=
  { r with editing := id :: r.editing, book := r.book.erase id }

def published (r : Registry) (n k : Nat) (id : String) (trigger : Int) (state : OpenState) :
    Registry :=
  let r := r.amendOpenOffer k fun _ => { offer := n, triggerPrice := trigger, state }
  { r with
    editing := r.editing.filter (· ≠ id)
    book := if state = .available then r.book.insert id n else r.book }

def cleared (r : Registry) (id : String) : Registry :=
  { r with
    table := r.table.erase id
    book := r.book.erase id
    editing := r.editing.filter (· ≠ id) }

def retired (r : Registry) (n k : Nat) : Registry :=
  (r.amendOpenOffer k fun o => { o with state := .canceled }).amendOffer n fun o =>
    { o with state := .removed }

/-! ## Commands -/

inductive Command where
  | place (offer : Nat) (trigger : Int)
  | editStart (openOffer : Nat)
  | editPublish (offer : Nat) (trigger : Int) (state : OpenState)
  | remove (offer : Nat)
deriving DecidableEq, Repr

def amountsText (p : Payload) : String :=
  "invalid amounts for offer " ++ p.id ++ ": amount=" ++ toString p.amount
    ++ " min_amount=" ++ toString p.minAmount

def amountsValid (p : Payload) : Bool := 0 < p.amount && p.minAmount ≤ p.amount

def place (r : Registry) (n : Nat) (o : Offer) (trigger : Int) : Registry × Report :=
  if !amountsValid o.payload then
    (r.amendOffer n fun o => { o with error? := some (amountsText o.payload) },
      .refused (amountsText o.payload))
  else if r.table.contains o.id then (r, .refused ("offer " ++ o.id ++ " is already placed"))
  else (r.placed n o.id trigger, .accepted (some ("fee-tx-" ++ o.id)))

def editStart (r : Registry) (id : String) : Registry × Report :=
  if r.editing.contains id then (r, .refused ("offer " ++ id ++ " is already being edited"))
  else if !r.table.contains id then (r, .refused ("open offer " ++ id ++ " not found"))
  else (r.withdrawn id, .accepted none)

def editPublish (r : Registry) (n : Nat) (id : String) (trigger : Int) (state : OpenState) :
    Registry × Report :=
  match r.table.get? id with
  | some k =>
    if r.editing.contains id then (r.published n k id trigger state, .accepted none)
    else (r, .refused ("edit of offer " ++ id ++ " was not started"))
  | none => (r, .refused ("edit of offer " ++ id ++ " was not started"))

def remove (r : Registry) (n : Nat) (id : String) : Registry × Report :=
  match r.table.get? id with
  | none => (r.cleared id, .refused ("open offer " ++ id ++ " not found"))
  | some k => ((r.cleared id).retired n k, .accepted none)

def Command.subject? (r : Registry) : Command → Option Nat
  | place n _ | editPublish n _ _ | remove n => some n
  | editStart k => (r.openOffer? k).map OpenOffer.offer

/-- Runs a command. A command about a record that does not exist is refused. -/
def run (r : Registry) (c : Command) : Registry × Report :=
  match (c.subject? r).bind fun n => (r.offer? n).map (n, ·) with
  | none => (r, .refused "no such record")
  | some (n, o) =>
    match c with
    | .place _ trigger => r.place n o trigger
    | .editStart _ => r.editStart o.id
    | .editPublish _ trigger state => r.editPublish n o.id trigger state
    | .remove _ => r.remove n o.id

end Registry

end Tradepost
