import Tradepost.Account

/-!
# Which offers of others can be taken

The rules are tried in order; the first one an offer breaks is the reason it
cannot be taken.
-/

namespace Tradepost

structure OfferFilter where
  bannedIds : List String := []
  bannedCurrencies : List String := []
  bannedMethods : List String := []
  ignoredOwners : List String := []
deriving Repr, Inhabited

inductive Refusal where
  | notAvailable
  | offerBanned
  | currencyBanned
  | methodBanned
  | ownerIgnored
  | noAccount
deriving DecidableEq, Repr

def Refusal.text : Refusal → String
  | notAvailable => "offer is not available"
  | offerBanned => "offer is banned"
  | currencyBanned => "currency is banned"
  | methodBanned => "payment method is banned"
  | ownerIgnored => "offer owner is ignored"
  | noAccount => "no payment account valid for offer"

namespace OfferFilter

def ban (ids currencies methods owners : List String) : OfferFilter :=
  { bannedIds := ids, bannedCurrencies := currencies.map Text.upper,
    bannedMethods := methods, ignoredOwners := owners }

def refusal? (f : OfferFilter) (accounts : AccountStore) (o : Offer) : Option Refusal :=
  let p := o.payload
  if o.state ≠ .available then some .notAvailable
  else if f.bannedIds.contains p.id then some .offerBanned
  else if f.bannedCurrencies.contains (Text.upper p.currency) then some .currencyBanned
  else if f.bannedMethods.contains p.paymentMethod then some .methodBanned
  else if f.ignoredOwners.contains p.owner then some .ownerIgnored
  else if !(accounts.all.any (·.fits p)) then some .noAccount
  else none

def canTake (f : OfferFilter) (accounts : AccountStore) (o : Offer) : Bool :=
  (f.refusal? accounts o).isNone

end OfferFilter

end Tradepost
