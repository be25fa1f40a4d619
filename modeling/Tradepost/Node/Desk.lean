import Tradepost.Node.Relay
import Tradepost.Node.Service

/-!
# Calls that wait

A desk takes calls in and carries each on until it ends or its next report is
late. Commands are numbered in the order they are issued. A call waits for the
report on one command at a time, and only the first report on a command counts:
once it has arrived nobody waits for that number any more.
-/

namespace Tradepost

structure Waiting where
  command : Nat
  ticket : Nat
  session : Session
deriving DecidableEq, Repr

structure Desk where
  node : Node
  relay : Relay := {}
  issued : Nat := 0
  waiting : List Waiting := []
  held : List (Nat × Report) := []

namespace Desk

def issue (d : Desk) (c : Registry.Command) : Desk × List Report :=
  let (registry, delivery) := d.relay.issue d.node.registry c
  ({ d with
      node := { d.node with registry }
      issued := d.issued + 1
      held := d.held ++ delivery.held.map fun report => (d.issued, report) },
    delivery.now)

def carryOn (d : Desk) (ticket : Nat) : Progress → Desk × Option (Outcome Receipt)
  | .finished outcome => (d, some outcome)
  | .waiting c s =>
    match d.issue c with
    | (d', report :: _) => carryOn d' ticket (d'.node.resume s report)
    | (d', []) =>
      let w : Waiting := { command := d.issued, ticket, session := s }
      ({ d' with waiting := d'.waiting ++ [w] }, none)
termination_by progress => progress.waits
decreasing_by exact Node.waits_resume ..

def start (d : Desk) (ticket : Nat) (c : Call) : Desk × Option (Outcome Receipt) :=
  let (node, progress) := d.node.begin c
  carryOn { d with node } ticket progress

/-- Lets a report on a command arrive. The call that waits for it goes on, and
is returned with its ticket if it ends; a report nobody waits for is ignored. -/
def arrive (d : Desk) (command : Nat) (report : Report) :
    Desk × Option (Nat × Outcome Receipt) :=
  match d.waiting.find? (·.command = command) with
  | none => (d, none)
  | some w =>
    let d := { d with waiting := d.waiting.filter (·.command ≠ command) }
    let (d, ended) := d.carryOn w.ticket (d.node.resume w.session report)
    (d, ended.map (w.ticket, ·))

def release (d : Desk) (place : Nat) : Option (Desk × Option (Nat × Outcome Receipt)) :=
  d.held[place]?.map fun (command, report) =>
    { d with held := d.held.eraseIdx place }.arrive command report

end Desk

end Tradepost
