import Tradepost.Offer.Basic

/-!
# Payment accounts

The accounts a node trades with, by id. An account added under an id that is
taken replaces the earlier one in its place.
-/

namespace Tradepost

structure PaymentAccount where
  id : String
  method : String
  currencies : List String
  country : Option String := none
  bank : Option String := none
deriving DecidableEq, Repr, Inhabited

def PaymentAccount.fits (a : PaymentAccount) (p : Payload) : Bool :=
  a.method = p.paymentMethod
    && (a.currencies.map Text.upper).contains (Text.upper p.currency)

structure AccountStore where
  byId : OrderedMap String PaymentAccount := {}
deriving Repr, Inhabited

namespace AccountStore

def add (s : AccountStore) (a : PaymentAccount) : AccountStore := ⟨s.byId.insert a.id a⟩

def lookup (s : AccountStore) (id : String) : Option PaymentAccount := s.byId.get? id

def all (s : AccountStore) : List PaymentAccount := s.byId.values

def ofList (accounts : List PaymentAccount) : AccountStore := accounts.foldl add {}

end AccountStore

end Tradepost
