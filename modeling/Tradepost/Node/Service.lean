import Tradepost.Edit.Validate
import Tradepost.Node.Create
import Tradepost.Node.Query

/-!
# Creating, editing and cancelling offers

A service command runs until it has issued a registry command, and goes on
when the report on that command arrives. Between the two anything else may
happen to the node. Creating and cancelling wait once; an edit waits twice,
first for its start and then for its publication, and what it publishes was
fixed before the start.
-/

namespace Tradepost

inductive Call where
  | create (params : CreateParams)
  | edit (id : String) (request : EditRequest)
  | cancel (id : String)
deriving Repr

inductive Session where
  | placing (offer : Nat)
  | starting (edited : Nat) (trigger : Int) (state : OpenState)
  | publishing (edited : Nat)
  | removing
deriving DecidableEq, Repr

inductive Receipt where
  | placed (offer : Nat)
  | edited (offer : Nat)
  | cancelled
deriving DecidableEq, Repr

inductive Progress where
  | finished (outcome : Outcome Receipt)
  | waiting (command : Registry.Command) (session : Session)

namespace Session

def phase : Session → String
  | placing _ => "place offer"
  | starting _ _ _ => "edit start"
  | publishing _ => "edit publish"
  | removing => "remove offer"

/-- How many reports a call still waits for, at most. -/
def waits : Session → Nat
  | starting _ _ _ => 2
  | _ => 1

end Session

def Progress.waits : Progress → Nat
  | finished _ => 0
  | waiting _ s => s.waits

namespace Node

def failed (e : ServiceError) : Progress := .finished (.error (.service e))

def planEdit (own : Registry.Own) (r : EditRequest) : Outcome (Payload × Int × OpenState) := do
  let payload := own.offer.payload
  let v ← r.validate payload
  let edited ← r.merge payload v.editType
  pure (edited, EditRequest.newTrigger v.scope edited own.terms.triggerPrice r,
    v.activation.apply own.terms.state)

def fileEdited (n : Node) (currency : String) (edited : Payload) : Node × Nat :=
  let (registry, k) :=
    n.registry.fileOffer { payload := edited, state := .available, feed := .node }
  ({ n with registry, feed := { n.feed with activeCurrency := some currency } }, k)

def begin (n : Node) : Call → Node × Progress
  | .create p =>
    match n.draftOffer p with
    | (n, .error e) => (n, .finished (.error e))
    | (n, .ok o) =>
      let (registry, k) := n.registry.fileOffer o
      ({ n with registry }, .waiting (.place k p.triggerPrice) (.placing k))
  | .edit id r =>
    match n.getMyOpenOffer id with
    | .error e => (n, failed e)
    | .ok own =>
      match planEdit own r with
      | .error e => (n, .finished (.error e))
      | .ok (edited, trigger, state) =>
        let (n, k) := n.fileEdited own.offer.currency edited
        (n, .waiting (.editStart own.number) (.starting k trigger state))
  | .cancel id =>
    match n.getMyOffer id with
    | .error e => (n, failed e)
    | .ok own => (n, .waiting (.remove own.terms.offer) .removing)

def resume (n : Node) (s : Session) : Report → Progress
  | .refused message => failed (.registry s.phase message)
  | .accepted _ =>
    match s with
    | .placing k =>
      match (n.registry.offer? k).bind Offer.error? with
      | some detail => failed (.placement detail)
      | none => .finished (.ok (.placed k))
    | .starting k trigger state =>
      .waiting (.editPublish k trigger state) (.publishing k)
    | .publishing k => .finished (.ok (.edited k))
    | .removing => .finished (.ok .cancelled)

theorem waits_resume (n : Node) (s : Session) (r : Report) : (n.resume s r).waits < s.waits := by
  cases r with
  | refused m => cases s <;> simp [resume, failed, Progress.waits, Session.waits]
  | accepted x =>
    cases s with
    | placing k =>
      unfold resume
      dsimp only
      split <;> simp [failed, Progress.waits, Session.waits]
    | _ => simp [resume, Progress.waits, Session.waits]

/-! ## Without delay -/

def settle (n : Node) : Progress → Node × Outcome Receipt
  | .finished outcome => (n, outcome)
  | .waiting c s =>
    let (registry, report) := n.registry.run c
    let n := { n with registry }
    settle n (n.resume s report)
termination_by progress => progress.waits
decreasing_by exact waits_resume ..

def perform (n : Node) (c : Call) : Node × Outcome Receipt :=
  let (n, progress) := n.begin c
  n.settle progress

end Node

end Tradepost
