import DebugAdapter.Step
import DebugAdapter.Value.Basic

/-!
# Stops

Why a thread stops, and what is told to the client.
-/

namespace DebugAdapter

inductive StopReason where
  | breakpoint
  | functionBreakpoint
  | step
  | exception
  | pause
  deriving DecidableEq

def StopReason.text : StopReason → String
  | .breakpoint => "breakpoint"
  | .functionBreakpoint => "function breakpoint"
  | .step => "step"
  | .exception => "exception"
  | .pause => "pause"

/-- A decision to stop. -/
structure Stop where
  reason : StopReason
  label : Option String := none
  exception : Option Exception := none
  breakpoint : Option Nat := none

/-- What is sent to the client without having been asked for. -/
inductive Notification where
  | stopped (thread : ThreadId) (reason : StopReason) (description text : Option String)
      (hits : List Nat)
  | output (text : String) (isError : Bool)
  deriving DecidableEq

/-- How a stop is described: by its exception, or else by its label. -/
def Stop.description (s : Stop) : Option String :=
  match s.exception with
  | some e => some (e.typeName ++ ": " ++ e.message)
  | none => s.label

/-- What the client is told of a stop. -/
def Stop.notification (s : Stop) (thread : ThreadId) : Notification :=
  .stopped thread s.reason s.description (s.exception.map (·.message)) s.breakpoint.toList

end DebugAdapter
