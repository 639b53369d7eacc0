import DebugAdapter.Data.Table

/-!
# Stepping

A step lets a thread run on until its call depth fits the mode of the step.  A thread has at most
one step in progress.
-/

namespace DebugAdapter

/-- The number that a thread is known by. -/
abbrev ThreadId := Int

inductive StepMode where
  | into
  | over
  | out
  deriving DecidableEq

namespace StepMode

/-- The mode that a request of the given name asks for. -/
def ofCommand? : String → Option StepMode
  | "stepIn" => some .into
  | "next" => some .over
  | "stepOut" => some .out
  | _ => none

end StepMode

/-- A step in progress, from the call depth at which it began. -/
structure Step where
  mode : StepMode
  startDepth : Nat
  deriving DecidableEq

/-- A thread at the given call depth has completed the step. -/
def Step.accepts (s : Step) (depth : Nat) : Bool :=
  match s.mode with
  | .into => true
  | .over => depth ≤ s.startDepth
  | .out => depth < s.startDepth

/-- The steps in progress. -/
abbrev Steps := Table ThreadId Step

end DebugAdapter
