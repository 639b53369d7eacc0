import DebugAdapter.Suspension.Context
import DebugAdapter.Value.Copy

/-!
# Described threads

A thread that is given by what it answers: its stack, and the outcomes of the expressions that it
knows.  It stands for the threads of any debuggee at one moment.
-/

namespace DebugAdapter

/-- What an expression gives. -/
inductive DescribedOutcome where
  | value (v : Value)
  /-- A new copy with every evaluation. -/
  | fresh (model : Value)
  | failure (message : String)
  | crash

/-- An expression that a described thread knows, in one frame or in all. -/
structure DescribedAnswer where
  expression : String
  frame : Option Nat
  outcome : DescribedOutcome

structure DescribedThread where
  id : ThreadId
  name : String
  frames : List StackFrame
  answers : List DescribedAnswer

namespace DescribedThread

/-- The first answer for an expression in a frame counts. -/
def evaluate (t : DescribedThread) (frame : Nat) (expression : String) (made : Nat) :
    Except EvaluationFailure Value × Nat :=
  let applies (a : DescribedAnswer) : Bool :=
    a.expression == expression && (a.frame.isNone || a.frame == some frame)
  match (t.answers.find? applies).map (·.outcome) with
  | none => (.error (.failed ("unknown " ++ expression)), made)
  | some (.value v) => (.ok v, made)
  | some (.fresh model) =>
    let (v, made) := model.copy adapterRegion made
    (.ok v, made)
  | some (.failure message) => (.error (.failed message), made)
  | some .crash => (.error .crashed, made)

/-- What the answers and the scopes keep alive. -/
def held (t : DescribedThread) : List Value :=
  t.answers.filterMap (fun a =>
    match a.outcome with
    | .value v => some v
    | _ => none) ++ t.frames.flatMap fun f => f.scopes.map (·.value)

instance : Context DescribedThread where
  thread := id
  name := name
  frames := frames
  callDepth t := t.frames.countP (0 < ·.line)
  evaluate := evaluate
  held := held

end DescribedThread

end DebugAdapter
