import Tradepost.Node.Relay
import Tradepost.Proofs.Registry.Keyed

/-!
# Histories of a registry

A history is any sequence of commands and announcements, each about any record:
callers may make records of their own at any time and hand them in, and may
hand in again what the registry holds already. The log of a history says for
every call which offer it was about and how it was answered.
-/

namespace Tradepost

def Offer.small (owner id : String) : Offer :=
  { payload := { (default : Payload) with id, owner, amount := 1, minAmount := 1 } }

namespace Registry

inductive Action where
  | makeOffer (o : Offer)
  | makeOpenOffer (o : OpenOffer)
  | announce (offer : Nat)
  | command (c : Command)
deriving Repr

def act (r : Registry) : Action → Registry
  | .makeOffer o => (r.fileOffer o).1
  | .makeOpenOffer o => (r.fileOpenOffer o).1
  | .announce n => r.announce n
  | .command c => (r.run c).1

def after (r : Registry) (actions : List Action) : Registry := actions.foldl act r

structure Event where
  verb : Verb
  payload : Payload
  delivery : Delivery := {}
deriving DecidableEq, Repr

namespace Event

def id (e : Event) : String := e.payload.id

def Accepted (e : Event) : Prop := ∃ x, Report.accepted x ∈ e.delivery.now

def idsOf (v : Verb) (log : List Event) : List String := (log.filter (·.verb = v)).map id

end Event

def event? (r : Registry) : Action → Option Event
  | .makeOffer _ | .makeOpenOffer _ => none
  | .announce n => (r.offer? n).map fun o => { verb := .announce, payload := o.payload }
  | .command c => ((c.subject? r).bind r.offer?).map fun o =>
    { verb := c.verb, payload := o.payload, delivery := (({} : Relay).issue r c).2 }

def log (r : Registry) : List Action → List Event
  | [] => []
  | a :: rest => (r.event? a).toList ++ log (r.act a) rest

def busyHistory : List Action := [
  .makeOffer (Offer.small "peer" "peer-1"), .announce 0,
  .makeOffer (Offer.small "me" "own-1"), .command (.place 1 0), .command (.editStart 0),
  .makeOffer (Offer.small "me" "own-1"), .command (.editPublish 2 0 .deactivated), .command (.editStart 0),
  .command (.remove 2), .command (.place 2 5), .command (.editPublish 1 0 .available)]

variable {r : Registry}

theorem issue_quiet (r : Registry) (c : Command) :
    ({} : Relay).issue r c = ((r.run c).1, { now := [(r.run c).2] }) := by
  unfold Relay.issue
  have hd : ({} : Relay).disturbance? c = none := by cases c <;> rfl
  rw [hd]
  rfl

theorem event?_command {c : Command} {id : String} (h : r.about? c = some id) :
    ∃ e, r.event? (.command c) = some e ∧ e.verb = c.verb ∧ e.id = id ∧ e.delivery = { now := [(r.run c).2] } := by
  obtain ⟨n, hn, hid⟩ := Option.bind_eq_some_iff.mp h
  obtain ⟨o, ho, rfl⟩ := idOf?_eq_some.mp hid
  refine ⟨_, by rw [event?, hn, Option.bind_some, ho, Option.map_some], rfl, rfl, ?_⟩
  rw [issue_quiet]

theorem Keyed.act (h : r.Keyed) (a : Action) : (r.act a).Keyed := by
  cases a with
  | makeOffer o => exact h.fileOffer o
  | makeOpenOffer o => exact h.fileOpenOffer o
  | announce n => exact h.announce n
  | command c => exact h.run c

theorem Keyed.after (h : r.Keyed) (actions : List Action) : (r.after actions).Keyed := by
  induction actions generalizing r with
  | nil => exact h
  | cons a rest ih => exact ih (h.act a)

end Registry

end Tradepost
