import Tradepost.Json.Encoding
import Tradepost.Node.Service
import Tradepost.Web.Envelope
import Tradepost.Web.Request
import Tradepost.Web.Route
import Tradepost.Web.View

/-!
# Answering requests

A request is routed, its body is parsed, its password is checked, the offer
service is looked for, and its parameters are read, in this order; the first
of these that fails decides the answer. Only then the node is asked. A command
that has to wait for the registry leaves a plan for the answer behind. At last
an answer is sent; one that cannot be put into JSON breaks the node down.
-/

namespace Tradepost

/-- A request. Its path and its body are kept as they are sent. -/
structure WebRequest where
  method : String
  path : String
  query : List (String × String) := []
  body : String := ""
  password : Option String := none
  requestId : Option String := none
deriving Repr

inductive WebBody where
  | json (v : Json)
  | envelope (e : Envelope)
  | issues (issues : List Issue)
  | text (s : String)
deriving Repr

structure WebResponse where
  status : Int
  body : WebBody
  isTagged : Bool := true
deriving Repr

inductive ReplyPlan where
  | created
  | edited (id : String)
  | cancelled (id : String)
deriving DecidableEq, Repr

structure WebCall where
  call : Call
  plan : ReplyPlan
deriving Repr

namespace WebServer

def version : String := "1.7.0"

def maxDepth : Nat := 968

/-! ## Answers -/

def brokenDown : WebResponse :=
  { status := 500, body := .text "Internal Server Error", isTagged := false }

def detail (status : Int) (s : String) : WebResponse :=
  { status, body := .json (.object [("detail", .text s)]) }

def unprocessable (issues : List Issue) : WebResponse := { status := 422, body := .issues issues }

/-- Numbers that JSON cannot write become null. -/
def finiteOnly (x : Binary64) : Json := if x.isFinite then .real x else .null

def viewJson (v : OfferView) : Json :=
  match v.json with
  | .object fields =>
    .object (fields.map fun (name, x) =>
      (name, match x with
        | .real r => finiteOnly r
        | x => x))
  | x => x

def success (requestId : Option String) (status : Int) (data : Json) : WebResponse :=
  { status, body := .envelope (Envelope.success data (requestId.map .text)) }

def failure (requestId : Option String) : Failure → WebResponse
  | .service e =>
    { status := e.httpStatus, body := .envelope (Envelope.ofError e (requestId.map .text)) }
  | .breakdown _ => brokenDown

def answer (requestId : Option String) (status : Int) (outcome : Outcome Json) : WebResponse :=
  match outcome with
  | .ok data => success requestId status data
  | .error e => failure requestId e

/-! ## Sending -/

def isSendable : WebBody → Bool
  | .json v => v.isSendable
  | .envelope e => Text.isSendable e.message && e.data.isSendable
  | .issues is => is.all (·.value.isSendable)
  | .text s => Text.isSendable s

def sent (response : WebResponse) : WebResponse :=
  if isSendable response.body then response else brokenDown

/-! ## Queries -/

def itemsJson (views : List OfferView) : Json := .object [("items", .list (views.map viewJson))]

def ownView (n : Node) (o : Registry.Own) : Outcome OfferView :=
  computed (OfferView.ofOwn n.quotes o.offer o.terms)

def listOffers (n : Node) (direction currency : String) : Outcome Json := do
  let found ← n.getOffers direction currency
  itemsJson <$> found.mapM fun (_, o) => computed (OfferView.ofOffer n.quotes o)

def listMine (n : Node) (direction currency : String) : Outcome Json := do
  let found ← n.getMyOffers direction currency
  itemsJson <$> found.mapM (ownView n)

def showOffer (n : Node) (id : String) : Outcome Json := do
  let (_, o) ← reported (n.getOffer id)
  viewJson <$> computed (OfferView.ofOffer n.quotes o)

def showMine (n : Node) (id : String) : Outcome Json := do
  let o ← reported (n.getMyOpenOffer id)
  viewJson <$> ownView n o

/-! ## Commands -/

def replyData (n : Node) (plan : ReplyPlan) (r : Receipt) : Outcome Json :=
  match plan, r with
  | .created, .placed k =>
    match n.registry.offer? k with
    | some o => viewJson <$> computed (OfferView.ofOffer n.quotes o true)
    | none => .ok .null
  | .edited id, _ => showMine n id
  | .cancelled id, _ => .ok (.object [("offer_id", .text id), ("status", .text "CANCELED")])
  | .created, _ => .ok .null

def ReplyPlan.status : ReplyPlan → Int
  | .created => 201
  | _ => 200

def reply (n : Node) (requestId : Option String) (plan : ReplyPlan) (outcome : Outcome Receipt) :
    WebResponse :=
  sent (answer requestId (ReplyPlan.status plan) (outcome.bind (replyData n plan)))

/-! ## Requests -/

inductive Handling where
  | answered (response : WebResponse)
  | taken (call : WebCall)

def bodyJson (body : String) : Except WebResponse (Option Json) :=
  if body.isEmpty then .ok none
  else
    match Json.parseBytes body maxDepth with
    | .ok v => .ok (some v)
    | .error (.at n) =>
      .error (unprocessable [{ problem := .jsonInvalid, place := [.field "body", .index n] }])
    | .error .tooLong | .error .tooDeep | .error .undecodable =>
      .error (detail 400 "There was an error parsing the body")

def readBody {α : Type} (fields : Json → Checked α) (v : Option Json) : Except WebResponse α :=
  let read : Checked α := match v with
    | none => Checked.fail [{ problem := .missing }]
    | some v => ofObject .modelAttributesType fields v
  (read.under (.field "body")).outcome.mapError unprocessable

/-- The two parameters of a listing; of a parameter given twice the last one counts. -/
def readListing (query : List (String × String)) : Except WebResponse (String × String) :=
  let param (name : String) : Checked String :=
    match query.reverse.lookup name with
    | some s => Checked.ok s
    | none => Checked.fail [{ problem := .missing, place := [.field "query", .field name] }]
  (Prod.mk <$> param "direction" <*> param "currency_code" : Checked _).outcome.mapError
    unprocessable

def checkPassword (password : String) (r : WebRequest) : Except WebResponse Unit :=
  if r.password = some password then .ok ()
  else .error (failure r.requestId (.service .wrongPassword))

def checkService (configured : Bool) (r : WebRequest) : Except WebResponse Unit :=
  if configured then .ok ()
  else .error (failure r.requestId (.service (.internal "offer service is not configured")))

def takesBody : Endpoint → Bool
  | .create | .edit _ => true
  | _ => false

def isOpen : Endpoint → Bool
  | .health | .document => true
  | _ => false

/-- An endpoint, once nothing stands in the way of the request. The documents are
empty here. -/
def serve (n : Node) (r : WebRequest) (body : Option Json) : Endpoint → Except WebResponse Handling
  | .document => pure (.answered { status := 200, body := .text "" })
  | .health =>
    pure (.answered { status := 200,
                      body := .json (.object [("status", .text "ok"), ("version", .text version)]) })
  | .listOffers => do
    let (direction, currency) ← readListing r.query
    pure (.answered (answer r.requestId 200 (listOffers n direction currency)))
  | .listMine => do
    let (direction, currency) ← readListing r.query
    pure (.answered (answer r.requestId 200 (listMine n direction currency)))
  | .showMine id => pure (.answered (answer r.requestId 200 (showMine n id)))
  | .showOffer id => pure (.answered (answer r.requestId 200 (showOffer n id)))
  | .create => do
    let b ← readBody CreateBody.fields body
    pure (.taken { call := .create b.params, plan := .created })
  | .edit id => do
    let b ← readBody EditBody.fields body
    pure (.taken { call := .edit id b.request, plan := .edited id })
  | .cancel id => pure (.taken { call := .cancel id, plan := .cancelled id })

def attend (password : String) (configured : Bool) (n : Node) (r : WebRequest) (e : Endpoint) :
    Except WebResponse Handling :=
  if isOpen e then serve n r none e
  else do
    let body ← if takesBody e then bodyJson r.body else pure none
    checkPassword password r
    checkService configured r
    serve n r body e

def dispatch (password : String) (configured : Bool) (n : Node) (r : WebRequest) :
    Routing → Handling
  | .notFound => .answered (detail 404 "Not Found")
  | .wrongMethod => .answered (detail 405 "Method Not Allowed")
  | .redirect => .answered { status := 307, body := .text "" }
  | .found e =>
    match attend password configured n r e with
    | .ok h => h
    | .error response => .answered response

/-- An answer to a request of that method; one to HEAD has no body. -/
def sentTo (method : String) (response : WebResponse) : WebResponse :=
  if method = "HEAD" then { sent response with body := .text "" } else sent response

def handle (password : String) (configured : Bool) (n : Node) (r : WebRequest) : Handling :=
  match dispatch password configured n r (Routing.route r.method r.path) with
  | .answered response => .answered (sentTo r.method response)
  | .taken call => .taken call

end WebServer

end Tradepost
