import DebugAdapter.Attach
import DebugAdapter.Debugger.Frames
import DebugAdapter.Suspension.Coordinator
import DebugAdapter.Thread.Order
import DebugAdapter.Value.Inspector

/-!
# The debugger

The state behind all requests: the coordinator, the values and frames that the client knows, and the
session.  What the debuggee as a whole has to say is asked for with every request that needs it.
-/

namespace DebugAdapter

/-- The debuggee as a process. -/
structure Debuggee where
  /-- Live threads, in any order. -/
  threads : List Thread.Row
  /-- The lines of a canonical path where execution can stop. -/
  executableLines : String → List Nat
  /-- Canonical paths of everything that is loaded. -/
  knownFiles : List String
  /-- What it keeps alive, apart from the threads that the coordinator has. -/
  held : List Value

/-- Why a request fails. -/
inductive RequestError where
  | notAttached
  | attachRejected (reason : String)
  | invalidRequest (problem : String)
  | unknownThread (thread : ThreadId)
  | unknownFrame (frame : Int)
  | evaluation (problem : String)
  | panicked (command : String)
  deriving DecidableEq

def RequestError.message : RequestError → String
  | .notAttached => "not attached"
  | .attachRejected reason => "attach rejected: " ++ reason
  | .invalidRequest problem => "invalid request: " ++ problem
  | .unknownThread t => "thread " ++ toString t ++ " is not suspended"
  | .unknownFrame f => "unknown frame id " ++ toString f
  | .evaluation problem => problem
  | .panicked command =>
    "internal error (panic) while handling " ++ command ++ "; the session continues"

structure Options where
  caseSensitive : Bool
  /-- The secret that clients must present; without one every attach is refused. -/
  secret : Option String
  pinCapacity : Nat
  /-- The age at which pins are dropped, in milliseconds; without one they are kept. -/
  pinLifetime : Option Nat

def Options.fold (o : Options) : Path.Folding := .ofCaseSensitive o.caseSensitive

structure Debugger (C : Type) where
  options : Options
  coordinator : Coordinator C
  inspector : Inspector
  frames : KnownFrames
  /-- The path mapper of the session. -/
  session : Option Path.Mapper

namespace Debugger

variable {C : Type}

def new (o : Options) : Debugger C where
  options := o
  coordinator := .new o.fold
  inspector := .new o.pinCapacity o.pinLifetime
  frames := .new
  session := none

/-- The debugger at a later time, in milliseconds. -/
def passTo (d : Debugger C) (time : Nat) : Debugger C :=
  { d with inspector := { d.inspector with now := time } }

def isAttached (d : Debugger C) : Bool := d.session.isSome

/-- The mapper for what is shown; without a session paths are shown as they are. -/
def displayMapper (d : Debugger C) : Path.Mapper := d.session.getD ⟨[], d.options.fold⟩

/-- Everything that is kept alive, pinned values aside. -/
def held [Context C] (d : Debugger C) (debuggee : Debuggee) : List Value :=
  debuggee.held ++ d.coordinator.contexts.flatMap Context.held ++ d.frames.held

end Debugger

end DebugAdapter
