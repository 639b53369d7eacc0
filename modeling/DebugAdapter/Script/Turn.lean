import DebugAdapter.Script.Execution
import DebugAdapter.Suspension.Coordinator

/-!
# Turns

A step of an execution that reports to the coordinator: what it does is told, and the answer decides
whether the thread may go on.
-/

namespace DebugAdapter.Script

/-- What becomes of a thread that has taken a step. -/
inductive Turn where
  | ready (x : Execution)
  | asleep (millis : Nat) (x : Execution)
  /-- It waits in the coordinator's table. -/
  | parked
  | ended

/-- What becomes of a thread that has to wait or not. -/
def Turn.ofReport (x : Execution) (r : Bool × Coordinator Execution) :
    Turn × Coordinator Execution :=
  (if r.1 then .parked else .ready x, r.2)

/-- Tells the coordinator what a thread has done. -/
def perform (c : Coordinator Execution) (x : Execution) : Action → Turn × Coordinator Execution
  | .line file line => Turn.ofReport x (c.atLine x file line)
  | .entry function component file line =>
    Turn.ofReport x (c.atEntry x function component file line)
  | .halt file line label => Turn.ofReport x (c.atBreak x file line label)
  | .announce line e =>
    let (stops, c) := c.announce x.id e false
    (.ready (if stops then x.stopAtException line e else x), c)
  | .output text isError => (.ready x, c.output text isError)
  | .sleep millis => (.asleep millis x, c)
  | .finish => (.ended, c.exited x.id)

/-- A step of a thread under a coordinator. -/
def takeTurn (c : Coordinator Execution) (x : Execution) : Turn × Coordinator Execution :=
  match x.step with
  | (none, x) => (.ready x, c)
  | (some a, x) => perform c x a

end DebugAdapter.Script
