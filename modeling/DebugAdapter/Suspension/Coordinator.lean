import DebugAdapter.Breakpoint.Function
import DebugAdapter.Suspension.Context
import DebugAdapter.Suspension.Stop
import DebugAdapter.Value.Truth

/-!
# The coordinator

Threads of the debuggee report here before every line and on every function entry.  The coordinator
decides whether they stop; those that do wait in its table until the client releases them.  As long
as nothing can stop any thread, one flag says so and a report costs nothing.

What happens outside is kept in order: notifications with the receivers they go to, and the threads
that have been released and may go on.
-/

namespace DebugAdapter

structure Suspension (C : Type) where
  context : C
  file : String
  line : Nat
  stop : Stop
  /-- The number of the gate that it waits at.  No two suspensions share a gate. -/
  gate : Nat

/-- A notification on its way to a receiver, which is known by the number of the attach that brought
it. -/
structure Delivery where
  receiver : Nat
  notification : Notification
  deriving DecidableEq

structure Coordinator (C : Type) where
  breakpoints : LineBreakpoints
  functions : FunctionBreakpoints
  steps : Steps
  /-- A client is there. -/
  attached : Bool
  breakOnUncaught : Bool
  /-- The client wants the debuggee's output. -/
  consoleOutput : Bool
  /-- Something might stop a thread. -/
  active : Bool
  /-- Threads that are to stop where they are, under zero for whichever comes first. -/
  pauses : Table ThreadId Unit
  /-- Exceptions that have been announced and are not yet stopped at. -/
  pending : Table ThreadId Exception
  suspended : Table ThreadId (Suspension C)
  /-- The number of gates that there have been. -/
  gates : Nat
  /-- How often a client has come. -/
  attaches : Nat
  /-- Where notifications go; without one they are lost. -/
  receiver : Option Nat
  outbox : List Delivery
  released : List (Suspension C)

namespace Coordinator

variable {C : Type}

/-- The target of a pause that is for any thread. -/
def anyThread : ThreadId := 0

/-- The identifier under which the client sees all threads together. -/
def allThreads : ThreadId := 1

def new (fold : Path.Folding) : Coordinator C where
  breakpoints := .new fold
  functions := .new
  steps := ∅
  attached := false
  breakOnUncaught := false
  consoleOutput := false
  active := false
  pauses := ∅
  pending := ∅
  suspended := ∅
  gates := 0
  attaches := 0
  receiver := none
  outbox := []
  released := []

def canStop (c : Coordinator C) : Bool :=
  c.attached && (!c.breakpoints.isEmpty || !c.functions.isEmpty || c.breakOnUncaught ||
    !c.steps.isEmpty || !c.pauses.isEmpty || !c.pending.isEmpty)

def refresh (c : Coordinator C) : Coordinator C := { c with active := c.canStop }

/-- Exceptions that nobody handles stop their thread. -/
def stopsOnUncaught (c : Coordinator C) : Bool := c.breakOnUncaught && c.attached

def notify (c : Coordinator C) (n : Notification) : Coordinator C :=
  match c.receiver with
  | some r => { c with outbox := c.outbox ++ [⟨r, n⟩] }
  | none => c

def isSuspended (c : Coordinator C) (t : ThreadId) : Bool := c.suspended.contains t

/-- The threads that wait, and those that have been released and not yet taken over. -/
def contexts (c : Coordinator C) : List C :=
  c.suspended.values.map (·.context) ++ c.released.map (·.context)

def suspendedIds (c : Coordinator C) : List ThreadId := c.suspended.keys.mergeSort (· ≤ ·)

/-! ## Sessions -/

/-- A client is there, with a receiver of its own. -/
def attach (c : Coordinator C) (consoleOutput : Bool) : Coordinator C :=
  { c with
    attached := true
    consoleOutput
    attaches := c.attaches + 1
    receiver := some (c.attaches + 1) }.refresh

def drain (c : Coordinator C) : List (Suspension C) × Coordinator C :=
  (c.suspended.values, { c with suspended := ∅ })

/-- Lets a thread go on that has been taken out of the table. -/
def release (c : Coordinator C) (s : Suspension C) : Coordinator C :=
  { c with released := c.released ++ [s] }

/-- Releases every waiting thread and drops steps, pauses and announced exceptions; tells how many
threads there were. -/
def resumeAll (c : Coordinator C) : Nat × Coordinator C :=
  let (waiting, c) := c.drain
  (waiting.length, { waiting.foldl release c with steps := ∅, pauses := ∅, pending := ∅ }.refresh)

/-- Ends the session.  Breakpoints are kept but stop nothing until a client is there again. -/
def detach (c : Coordinator C) : Coordinator C :=
  { c with
    attached := false
    breakOnUncaught := false
    consoleOutput := false
    receiver := none }.resumeAll.2

def setBreakOnUncaught (c : Coordinator C) (enabled : Bool) : Coordinator C :=
  { c with breakOnUncaught := enabled }.refresh

def setBreakpoints (c : Coordinator C) (b : LineBreakpoints) : Coordinator C :=
  { c with breakpoints := b }.refresh

def setFunctions (c : Coordinator C) (b : FunctionBreakpoints) : Coordinator C :=
  { c with functions := b }.refresh

/-! ## Decisions -/

section

variable [Context C]

/-- Whether a condition holds for a thread where it stands.  A condition that cannot be evaluated,
or is not a truth value, does not hold; nothing is said if the evaluator breaks down. -/
def holds? (ctx : C) (condition : String) : Option Bool :=
  match (Context.evaluate ctx 0 condition 0).1 with
  | .ok v => some (v.truth.toOption.getD false)
  | .error (.failed _) => some false
  | .error .crashed => none

/-- The breakpoint found by a lookup, if it fires; nothing if the evaluator breaks down. -/
def fires? (ctx : C) : Option Hit → Option (Option Nat)
  | none => some none
  | some ⟨id, none⟩ => some (some id)
  | some ⟨id, some condition⟩ => (holds? ctx condition).map fun b => if b then some id else none

/-- Uses up a pause that applies to the thread: its own, else the one for any thread. -/
def consumePause? (c : Coordinator C) (t : ThreadId) : Option (Coordinator C) :=
  if c.pauses.contains t then some { c with pauses := c.pauses.erase t }.refresh
  else if c.pauses.contains anyThread then
    some { c with pauses := c.pauses.erase anyThread }.refresh
  else none

/-- Whether a thread stops before a line: for an announced exception, else for a breakpoint, else
for a pause, else for its step. -/
def decide? (c : Coordinator C) (ctx : C) (file : String) (line : Nat) :
    Option (Stop × Coordinator C) :=
  let t := Context.thread ctx
  match c.pending.get? t with
  | some e =>
    some ({ reason := .exception, exception := some e },
      { c with pending := c.pending.erase t }.refresh)
  | none =>
    match fires? ctx (c.breakpoints.check file line) with
    | none => none
    | some (some id) => some ({ reason := .breakpoint, breakpoint := some id }, c)
    | some none =>
      match c.consumePause? t with
      | some c => some ({ reason := .pause }, c)
      | none =>
        match c.steps.get? t with
        | some s => if s.accepts (Context.callDepth ctx) then some ({ reason := .step }, c) else none
        | none => none

/-- Puts a thread into the table, behind a new gate, unless the client has gone. -/
def park? (c : Coordinator C) (ctx : C) (file : String) (line : Nat) (stop : Stop) :
    Option (Coordinator C) :=
  if c.attached then
    some { c with
      suspended := c.suspended.insert (Context.thread ctx) ⟨ctx, file, line, stop, c.gates⟩
      gates := c.gates + 1 }
  else none

/-- Any stop of a thread completes its step and satisfies its pause. -/
def satisfy (c : Coordinator C) (t : ThreadId) : Coordinator C :=
  { c with steps := c.steps.erase t, pauses := c.pauses.erase t }.refresh

/-- Makes a thread wait, unless the client has gone. -/
def suspend (c : Coordinator C) (ctx : C) (file : String) (line : Nat) (stop : Stop) :
    Bool × Coordinator C :=
  let t := Context.thread ctx
  let c := c.satisfy t
  match c.park? ctx file line stop with
  | some c => (true, c.notify (stop.notification t))
  | none => (false, c)

/-- The report before a line, with the decision made in any case. -/
def checkLine (c : Coordinator C) (ctx : C) (file : String) (line : Nat) : Bool × Coordinator C :=
  match c.decide? ctx file line with
  | some (stop, c) => c.suspend ctx file line stop
  | none => (false, c)

/-- The report of a thread before a line: whether it has to wait. -/
def atLine (c : Coordinator C) (ctx : C) (file : String) (line : Nat) : Bool × Coordinator C :=
  if c.active then c.checkLine ctx file line else (false, c)

/-- The report on a function entry, with the decision made in any case. -/
def checkEntry (c : Coordinator C) (ctx : C) (function : String) (component : Option String)
    (file : String) (line : Nat) : Bool × Coordinator C :=
  match fires? ctx (c.functions.check function component) with
  | some (some id) =>
    c.suspend ctx file line { reason := .functionBreakpoint, breakpoint := some id }
  | _ => (false, c)

/-- The report of a thread on entering a function: whether it has to wait. -/
def atEntry (c : Coordinator C) (ctx : C) (function : String) (component : Option String)
    (file : String) (line : Nat) : Bool × Coordinator C :=
  if c.active then c.checkEntry ctx function component file line else (false, c)

/-- A stop that the program itself asks for, under a label for the client. -/
def atBreak (c : Coordinator C) (ctx : C) (file : String) (line : Nat) (label : Option String) :
    Bool × Coordinator C :=
  if c.attached then c.suspend ctx file line { reason := .breakpoint, label := label }
  else (false, c)

/-- The announcement of an exception: whether the thread is to stop at its next report. -/
def announce (c : Coordinator C) (t : ThreadId) (e : Exception) (caught : Bool) :
    Bool × Coordinator C :=
  if caught || !c.stopsOnUncaught then (false, c)
  else (true, { c with pending := c.pending.insert t e }.refresh)

/-- Output of the debuggee, forwarded if the client wants it. -/
def output (c : Coordinator C) (text : String) (isError : Bool) : Coordinator C :=
  if c.attached && c.consoleOutput then c.notify (.output text isError) else c

/-! ## Releases -/

def take? (c : Coordinator C) (t : ThreadId) : Option (Suspension C × Coordinator C) :=
  (c.suspended.get? t).map fun s => (s, { c with suspended := c.suspended.erase t })

/-- Releases one thread; tells whether it was waiting. -/
def resume (c : Coordinator C) (t : ThreadId) : Bool × Coordinator C :=
  match c.take? t with
  | some (s, c) => (true, c.release s)
  | none => (false, c)

/-- Releases one thread for a step; tells whether it was waiting. -/
def step (c : Coordinator C) (t : ThreadId) (mode : StepMode) : Bool × Coordinator C :=
  match c.suspended.get? t with
  | some s =>
    { c with steps := c.steps.insert t ⟨mode, Context.callDepth s.context⟩ }.refresh.resume t
  | none => (false, c)

/-- Asks a thread to stop where it is, or any thread. -/
def requestPause (c : Coordinator C) (t : ThreadId) : Coordinator C :=
  let target := if t = anyThread ∨ t = allThreads then anyThread else t
  { c with pauses := c.pauses.insert target () }.refresh

def exited (c : Coordinator C) (t : ThreadId) : Coordinator C :=
  if c.steps.contains t || c.pauses.contains t || c.pending.contains t then
    { c with
      steps := c.steps.erase t
      pauses := c.pauses.erase t
      pending := c.pending.erase t }.refresh
  else c

end

/-! ## The outside -/

def takeOutbox (c : Coordinator C) : List Notification × Coordinator C :=
  (c.outbox.map (·.notification), { c with outbox := [] })

def takeReleased (c : Coordinator C) : List (Suspension C) × Coordinator C :=
  (c.released, { c with released := [] })

end Coordinator

end DebugAdapter
