import DebugAdapter.Step
import DebugAdapter.Value.Basic

/-!
# Execution contexts

What the adapter needs to know of a thread of the debuggee: its name, its stack, and what an
expression evaluates to in one of its frames.  How threads execute is left to the debuggee.
-/

namespace DebugAdapter

/-- A named group of variables, as one structured value. -/
structure Scope where
  name : String
  value : Value

/-- A frame of a thread's stack.  Its line is zero until it has executed one. -/
structure StackFrame where
  function : String
  /-- The debuggee's path. -/
  file : String
  line : Nat
  scopes : List Scope

/-- Why an expression has no value. -/
inductive EvaluationFailure where
  | failed (message : String)
  /-- The evaluator broke down. -/
  | crashed

/-- A thread of the debuggee.  Frames are listed from the innermost on. -/
class Context (C : Type) where
  thread : C → ThreadId
  name : C → String
  frames : C → List StackFrame
  /-- The number of frames that have executed a line. -/
  callDepth : C → Nat
  /-- The value of an expression in the frame of the given index.  Values made on the way are the
  adapter's, at offsets of its region from the given one on; the next free one is returned. -/
  evaluate : C → Nat → String → Nat → Except EvaluationFailure Value × Nat
  /-- What the thread keeps alive. -/
  held : C → List Value

end DebugAdapter
