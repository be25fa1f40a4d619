import Tradepost.Web.Percent

/-!
# Routes

Paths are percent-decoded and then compared segment by segment. The part of a
path that stands for an offer id is one segment and not empty; the segment
`mine` leads to the own offers wherever a route of that method exists. A word
at the end of a path may have a line break behind it.
-/

namespace Tradepost

inductive Endpoint where
  | document
  | health
  | listOffers
  | listMine
  | showMine (id : String)
  | showOffer (id : String)
  | create
  | edit (id : String)
  | cancel (id : String)
deriving DecidableEq, Repr

inductive Routing where
  | found (endpoint : Endpoint)
  | notFound
  | wrongMethod
  | redirect
deriving DecidableEq, Repr

namespace Routing

def segments : List Char → Option (List String)
  | '/' :: cs => some ((cs.splitOn '/').map String.ofList)
  | _ => none

def endsIn (word segment : String) : Bool := segment = word || segment = word ++ "\n"

def documents : List (String × Endpoint) := [("GET", .document), ("HEAD", .document)]

/-- The endpoint of each method the path has a route for, the first route of a
method winning. -/
def endpoints : List String → List (String × Endpoint)
  | [page] =>
    if endsIn "health" page then [("GET", .health)]
    else if ["openapi.json", "docs", "redoc"].any (endsIn · page) then documents
    else []
  | ["docs", page] => if endsIn "oauth2-redirect" page then documents else []
  | ["api", "v1", page] =>
    if endsIn "offers" page then [("GET", .listOffers), ("POST", .create)] else []
  | ["api", "v1", "offers", id] =>
    if id.isEmpty then []
    else [("GET", if endsIn "mine" id then .listMine else .showOffer id), ("PATCH", .edit id)]
  | ["api", "v1", "offers", first, second] =>
    (if first = "mine" ∧ !second.isEmpty then [("GET", .showMine second)] else [])
      ++ (if endsIn "cancel" second ∧ !first.isEmpty then [("POST", .cancel first)] else [])
  | _ => []

def endpointsOf (path : List Char) : List (String × Endpoint) :=
  ((segments path).map endpoints).getD []

def withoutSlashes (path : List Char) : List Char := (path.reverse.dropWhile (· = '/')).reverse

def route (method path : String) : Routing :=
  let path := Text.marked (Percent.decoded path.toList)
  let found := endpointsOf path
  match found.lookup method with
  | some e => .found e
  | none =>
    if !found.isEmpty then .wrongMethod
    else if path.getLast? = some '/' ∧ !(endpointsOf (withoutSlashes path)).isEmpty then .redirect
    else .notFound

end Routing

end Tradepost
