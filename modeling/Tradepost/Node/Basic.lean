import Tradepost.Filter
import Tradepost.Node.Wallet
import Tradepost.Registry.Basic

/-!
# A trading node

A node is its registry together with the wallet, the payment accounts, the
filter for offers of others, the price feed, and the sources of time and ids.
-/

namespace Tradepost

structure PriceFeed where
  quotes : Quotes := {}
  activeCurrency : Option String := none
deriving Repr, Inhabited

/-- Ids handed out in order; when they are used up, ids are numbered. -/
structure IdSource where
  supply : List String := []
  issued : Nat := 0
deriving Repr, Inhabited

namespace IdSource

def next (s : IdSource) : IdSource × String :=
  let n := s.issued + 1
  match s.supply with
  | id :: rest => ({ supply := rest, issued := n }, id)
  | [] => ({ supply := [], issued := n }, "gen-" ++ toString n)

end IdSource

/-- The clock counts microseconds since the epoch. A view gives the numbers that
snapshots list in place of those in book or table. -/
structure Node where
  fingerprint : String := "me"
  registry : Registry := {}
  wallet : Wallet := {}
  accounts : AccountStore := {}
  filter : OfferFilter := {}
  feed : PriceFeed := {}
  ids : IdSource := {}
  clock : Int := 0
  bookView : Option (List Nat) := none
  tableView : Option (List Nat) := none
deriving Inhabited

namespace Node

def quotes (n : Node) : Quotes := n.feed.quotes

def snapshotOffers (n : Node) : List (Nat × Offer) :=
  match n.bookView with
  | none => n.registry.bookOffers
  | some numbers => numbers.filterMap fun k => (n.registry.offer? k).map (k, ·)

def snapshotOwn (n : Node) : List Registry.Own :=
  match n.tableView with
  | none => n.registry.tableOffers
  | some numbers => numbers.filterMap n.registry.own?

def priceOf (n : Node) (o : Offer) : Except Breakdown (Option Price) := o.price? n.quotes

end Node

end Tradepost
