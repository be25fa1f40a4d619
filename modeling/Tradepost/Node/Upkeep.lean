import Tradepost.Node.Basic

/-!
# Changes from outside

What happens to a node other than through its own commands: quotes move,
peers publish offers, own offers are loaded, states are set by hand.
-/

namespace Tradepost

namespace Registry

def loadOpen (r : Registry) (o : Offer) (trigger : Int) (state : OpenState) (inBook : Bool) :
    Registry :=
  let (r, n) := r.fileOffer o
  let (r, k) := r.fileOpenOffer { offer := n, triggerPrice := trigger, state }
  { r with
    table := r.table.insert o.id k
    book := if inBook then r.book.insert o.id n else r.book }

def setOfferState (r : Registry) (id : String) (state : OfferState) : Registry :=
  match r.book.get? id with
  | some n => r.amendOffer n fun o => { o with state }
  | none => r

def setOpenState (r : Registry) (id : String) (state : OpenState) : Registry :=
  match r.table.get? id with
  | some k => r.amendOpenOffer k fun o => { o with state }
  | none => r

end Registry

namespace Node

def setPrice (n : Node) (code : String) (price : Decimal) : Node :=
  { n with feed := { n.feed with quotes := n.feed.quotes.set code price } }

def addAccount (n : Node) (a : PaymentAccount) : Node := { n with accounts := n.accounts.add a }

def setFeeCurrency (n : Node) (code : String) : Node × Except ServiceError Unit :=
  match n.wallet.preferFeeCurrency code with
  | .ok wallet => ({ n with wallet }, .ok ())
  | .error e => (n, .error e)

end Node

end Tradepost
