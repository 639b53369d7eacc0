import DebugAdapter.Path.Stem
import DebugAdapter.Script.Expr.Parser
import DebugAdapter.Script.Stack

/-!
# Executions

A program that a thread executes, one step at a time.  What others can see of a step is its action:
a report to the debugger, output, a pause, the end.  The execution itself does not know who listens;
the only answer it takes is whether to report once more after it has announced an exception.
-/

namespace DebugAdapter.Script

/-- What is still to be done. -/
inductive Task where
  | statement (s : Stmt)
  /-- Test the condition of a loop again. -/
  | again (line : Nat) (test : Expr) (body : List Stmt)
  /-- Leave the frame of a call, for the statement that makes it and waits for the result. -/
  | leave (caller : Stmt)

/-- Where an execution stands. -/
inductive Point where
  /-- Before the next task. -/
  | next
  /-- The line of a statement has been reported. -/
  | reported (s : Stmt)
  /-- The line of a loop has been reported before a further turn. -/
  | turning (line : Nat) (test : Expr) (body : List Stmt)
  /-- An exception has been announced, and its line is to be reported once more. -/
  | raised (line : Nat) (e : Exception)
  /-- A function returns: what is left of its call is dropped. -/
  | returning (v : Value)
  /-- An exception ends the execution: whatever is left is dropped. -/
  | unwinding (e : Exception)
  | ended

structure Execution where
  id : ThreadId
  name : String
  program : Program
  stack : Stack
  tasks : List Task
  point : Point
  /-- The next free offset in the region of the thread. -/
  made : Nat

/-- What a step does that others can see. -/
inductive Action where
  | line (file : String) (line : Nat)
  | entry (function : String) (component : Option String) (file : String) (line : Nat)
  | halt (file : String) (line : Nat) (label : Option String)
  | announce (line : Nat) (e : Exception)
  | output (text : String) (isError : Bool)
  | sleep (millis : Nat)
  | finish

/-- Why a statement cannot be executed. -/
inductive Fault where
  | eval (e : EvalError)
  | noFunction (name : String)
  | notFunction (name typeName : String)
  | arity (name : String) (expected actual : Nat)
  | cannotSleep (duration : String)
  /-- The script raises an exception of its own. -/
  | thrown (typeName message : String)
  deriving DecidableEq

namespace Fault

/-- The type of exceptions that the script does not raise itself. -/
def runtimeError : String := "RuntimeError"

def typeName : Fault → String
  | thrown t _ => t
  | _ => runtimeError

def message : Fault → String
  | eval e => e.message
  | noFunction name => "function " ++ name ++ " is not defined"
  | notFunction name typeName => name ++ " is a " ++ typeName ++ ", not a function"
  | arity name expected actual =>
    name ++ " expects " ++ toString expected ++ " arguments, got " ++ toString actual
  | cannotSleep duration => "cannot sleep for " ++ duration
  | thrown _ message => message

end Fault

namespace Execution

/-- The region of a thread's values. -/
def region (x : Execution) : Nat := x.id.toNat

/-- The name of the frame of the script itself. -/
def mainFrame : String := "<main>"

/-- An execution that is about to begin. -/
def start (id : ThreadId) (name : String) (p : Program) : Execution where
  id := id
  name := name
  program := p
  stack := ⟨[⟨mainFrame, p.file, 0, none⟩], ⟨.first id.toNat 0, []⟩⟩
  tasks := p.body.map .statement
  point := .next
  made := 1

/-- A new value of the thread. -/
def allocate (x : Execution) (s : Shape) : Value × Execution :=
  let (v, made) := Script.allocate x.region s x.made
  (v, { x with made })

/-- The value of an expression in the innermost frame. -/
def evaluate (x : Execution) (e : Expr) : Except Fault (Value × Execution) :=
  match eval x.region (x.stack.lookup 0) e x.made with
  | .ok (v, made) => .ok (v, { x with made })
  | .error e => .error (.eval e)

def evaluateAll (x : Execution) (es : List Expr) : Except Fault (List Value × Execution) :=
  match evalAll x.region (x.stack.lookup 0) es x.made with
  | .ok (vs, made) => .ok (vs, { x with made })
  | .error e => .error (.eval e)

def assign (x : Execution) (name : String) (v : Value) : Execution :=
  { x with stack := x.stack.assign name v }

/-- Does the given statements before everything else. -/
def enterBlock (x : Execution) (body : List Stmt) : Execution :=
  { x with tasks := body.map .statement ++ x.tasks }

/-- The value of a function definition, with the fields that show it. -/
def makeFunction (x : Execution) (d : FunctionDef) : Value × Execution :=
  let (name, x) := x.allocate (.text d.name)
  let (line, x) := x.allocate (.int d.line)
  let (params, x) := d.params.foldl (fun (vs, x) p =>
    let (v, x) := allocate x (.text p)
    (vs ++ [v], x)) ([], x)
  let (params, x) := x.allocate (.array params)
  x.allocate (.function d [("name", name), ("line", line), ("parameters", params)])

/-- The function of a name. -/
def function (x : Execution) (name : String) : Except Fault FunctionDef :=
  match (x.stack.lookup 0 name).map Value.shape with
  | some (.function d _) => .ok d
  | some d => .error (.notFunction name d.typeName)
  | none => .error (.noFunction name)

/-- Enters a function for the statement that calls it: its frame is put on the stack, and its body is
to be done before anything else. -/
def call (x : Execution) (c : Call) (caller : Stmt) :
    Except Fault (Option Action × Execution) := do
  let d ← x.function c.function
  if c.args.length ≠ d.params.length then
    throw (.arity d.name d.params.length c.args.length)
  let (args, x) ← x.evaluateAll c.args
  let locals : Variables := ⟨.first x.region x.made, []⟩
  let args : Variables := ⟨.first x.region (x.made + 1), d.params.zip args⟩
  let frame : Frame := ⟨d.name, d.file, 0, some ⟨locals, args⟩⟩
  return (some (.entry d.name (Path.stem? d.file) d.file d.line),
    { x with
      stack := (x.stack.push frame).setLine d.line
      tasks := d.body.map .statement ++ .leave caller :: x.tasks
      made := x.made + 2 })

/-- Leaves the frame of a call and goes on behind the statement that has made it. -/
def leaveCall (x : Execution) (caller : Stmt) (v : Value) : Execution :=
  let x := { x with stack := x.stack.pop, point := .next }
  match caller with
  | .assignCall _ name _ => x.assign name v
  | _ => x

/-- Tests the condition of a loop: the body and another test follow if it holds. -/
def turn (x : Execution) (line : Nat) (test : Expr) (body : List Stmt) :
    Except Fault (Option Action × Execution) := do
  let (v, x) ← x.evaluate test
  if v.shape.isTrue then
    return (none, { x with tasks := .again line test body :: x.tasks }.enterBlock body)
  else return (none, x)

/-- Executes a statement whose line has been reported. -/
def execute (x : Execution) : Stmt → Except Fault (Option Action × Execution)
  | .func line name params body =>
    let (v, x) := x.makeFunction ⟨name, params, body, x.program.file, line⟩
    .ok (none, x.assign name v)
  | .branch _ test yes no => do
    let (v, x) ← x.evaluate test
    return (none, x.enterBlock (if v.shape.isTrue then yes else no))
  | .loop line test body => x.turn line test body
  | .assign _ name value => do
    let (v, x) ← x.evaluate value
    return (none, x.assign name v)
  | .assignCall line name c => x.call c (.assignCall line name c)
  | .call line c => x.call c (.call line c)
  | .print _ value => do
    let (v, x) ← x.evaluate value
    return (some (.output (v.printed ++ "\n") false), x)
  | .ret _ none =>
    let (v, x) := x.allocate .null
    .ok (none, { x with point := .returning v })
  | .ret _ (some value) => do
    let (v, x) ← x.evaluate value
    return (none, { x with point := .returning v })
  | .throw _ typeName none => .error (.thrown typeName "")
  | .throw _ typeName (some message) => do
    let (v, _) ← x.evaluate message
    throw (.thrown typeName v.printed)
  | .halt line label => .ok (some (.halt x.program.file line label), x)
  | .sleep _ millis => do
    let (v, x) ← x.evaluate millis
    match v.shape with
    | .int n =>
      if 0 ≤ n then return (some (.sleep n.toNat), x) else throw (.cannotSleep v.printed)
    | d => throw (.cannotSleep d.printed)

/-- The exception that a fault raises. -/
def exception (x : Execution) (f : Fault) : Exception :=
  ⟨f.typeName, f.message, none, x.stack.trace, none⟩

/-- Goes on after a statement, or announces the exception that it raises. -/
def settle (x : Execution) (line : Nat) :
    Except Fault (Option Action × Execution) → Option Action × Execution
  | .ok r => r
  | .error f =>
    let e := x.exception f
    (some (.announce line e), { x with point := .unwinding e })

/-- Reports a line, which the innermost frame executes from now on. -/
def report (x : Execution) (line : Nat) (point : Point) : Option Action × Execution :=
  (some (.line x.program.file line), { x with stack := x.stack.setLine line, point })

/-- The script itself is over, and its frame is left. -/
def finish (x : Execution) : Execution := { x with stack := x.stack.pop, point := .ended }

/-- One step: what can be seen of it, and the execution after it. -/
def step (x : Execution) : Option Action × Execution :=
  match x.point with
  | .next =>
    match x.tasks with
    | [] => (none, x.finish)
    | .statement s :: rest => { x with tasks := rest }.report s.line (.reported s)
    | .again line test body :: rest =>
      { x with tasks := rest }.report line (.turning line test body)
    | .leave caller :: rest =>
      let (v, x) := { x with tasks := rest }.allocate .null
      (none, x.leaveCall caller v)
  | .reported s =>
    let x := { x with point := .next }
    x.settle s.line (x.execute s)
  | .turning line test body =>
    let x := { x with point := .next }
    x.settle line (x.turn line test body)
  | .raised line e => (some (.line x.program.file line), { x with point := .unwinding e })
  | .returning v =>
    match x.tasks with
    | [] => (none, x.finish)
    | .leave caller :: rest => (none, { x with tasks := rest }.leaveCall caller v)
    | _ :: rest => (none, { x with tasks := rest })
  | .unwinding e =>
    match x.tasks with
    | [] =>
      (some (.output ("Uncaught " ++ e.typeName ++ ": " ++ e.message ++ "\n") true), x.finish)
    | .leave _ :: rest => (none, { x with stack := x.stack.pop, tasks := rest })
    | _ :: rest => (none, { x with tasks := rest })
  | .ended => (some .finish, x)

/-- Takes note that an announced exception is to be stopped at. -/
def stopAtException (x : Execution) (line : Nat) (e : Exception) : Execution :=
  { x with point := .raised line e }

/-! ## The thread as the debugger sees it -/

/-- The value of an expression that a client writes, in one of the frames. -/
def evaluateText (x : Execution) (frame : Nat) (text : String) (made : Nat) :
    Except EvaluationFailure Value × Nat :=
  match Expr.ofText text.toList with
  | .error e => (.error (.failed e.message), made)
  | .ok e =>
    if x.stack.frames.length ≤ frame then
      (.error (.failed ("no frame at index " ++ toString frame)), made)
    else
      match eval adapterRegion (x.stack.lookup frame) e made with
      | .ok (v, made) => (.ok v, made)
      | .error e => (.error (.failed e.message), made)

/-- What the thread keeps alive: its scopes, and a result on its way to the caller. -/
def held (x : Execution) : List Value :=
  match x.point with
  | .returning v => v :: x.stack.held
  | _ => x.stack.held

instance : Context Execution where
  thread := id
  name := name
  frames x := x.stack.shown
  callDepth x := x.stack.frames.countP (0 < ·.line)
  evaluate := evaluateText
  held := held

end Execution

end DebugAdapter.Script
