import Tradepost.Registry.Basic

/-!
# Between the service and the registry

The registry answers through reports that may be late, doubled or wrong. A
relay hands commands to the registry and reports back, and can be told to
disturb either for one kind of command.
-/

namespace Tradepost

/-- A command can be kept from the registry or its report held back; its success
can be denied, reported beside a failure, or leave an error on the offer. -/
inductive Disturbance where
  | refuse (message : String)
  | denySuccess (message : String)
  | attachError (message : String)
  | successThenFailure (message : String)
  | failureThenSuccess (message : String)
  | hold
deriving DecidableEq, Repr

structure Delivery where
  now : List Report := []
  held : List Report := []
deriving DecidableEq, Repr

structure Relay where
  place : Option Disturbance := none
  editStart : Option Disturbance := none
  editPublish : Option Disturbance := none
  remove : Option Disturbance := none
deriving DecidableEq, Repr, Inhabited

namespace Relay

def disturbance? (relay : Relay) : Registry.Command → Option Disturbance
  | .place _ _ => relay.place
  | .editStart _ => relay.editStart
  | .editPublish _ _ _ => relay.editPublish
  | .remove _ => relay.remove

def deliver : Option Disturbance → Report → Delivery
  | some .hold, report => { held := [report] }
  | some (.denySuccess m), .accepted _ => { now := [.refused m] }
  | some (.successThenFailure m), .accepted x => { now := [.accepted x, .refused m] }
  | some (.failureThenSuccess m), .accepted x => { now := [.refused m, .accepted x] }
  | _, report => { now := [report] }

/-- What a success leaves behind in the registry. -/
def aftermath (d : Option Disturbance) (subject : Option Nat) (report : Report) (r : Registry) :
    Registry :=
  match d, report, subject with
  | some (.attachError m), .accepted _, some n =>
    r.amendOffer n fun o => { o with error? := some m }
  | _, _, _ => r

def issue (relay : Relay) (r : Registry) (c : Registry.Command) : Registry × Delivery :=
  match relay.disturbance? c with
  | some (.refuse m) => (r, { now := [.refused m] })
  | d =>
    let (r', report) := r.run c
    (aftermath d (c.subject? r) report r', deliver d report)

end Relay

end Tradepost
