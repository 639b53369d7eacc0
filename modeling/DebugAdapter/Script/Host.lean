import DebugAdapter.Debugger.Requests
import DebugAdapter.Script.Program.Parser
import DebugAdapter.Script.Turn

/-!
# The host

A debuggee made of scripts: those that are loaded, and the threads that execute them, together with
the debugger that they report to.  Threads take turns, and time passes only while every one of them
sleeps or waits, so a run depends on nothing but what is asked of the host.
-/

namespace DebugAdapter.Script

structure Host where
  debugger : Debugger Execution
  /-- By canonical path. -/
  programs : Table String Program
  /-- New threads wait until a client attaches. -/
  waitForAttach : Bool
  nextThread : ThreadId
  ready : List Execution
  /-- With the times at which they wake. -/
  asleep : List (Nat × Execution)
  /-- Waiting for a client to attach. -/
  waiting : List Execution

namespace Host

/-- The first thread has this number; the numbers below are reserved. -/
def firstThread : ThreadId := 10

def new (o : Options) : Host where
  debugger := .new o
  programs := ∅
  waitForAttach := false
  nextThread := firstThread
  ready := []
  asleep := []
  waiting := []

/-! ## Scripts -/

/-- Why a script cannot be loaded or started. -/
inductive LoadError where
  | parse (path : String) (e : SyntaxError)
  | unreadable (path reason : String)
  | unknownScript (path : String)
  deriving DecidableEq

def LoadError.message : LoadError → String
  | parse path e => path ++ ":" ++ toString e.line ++ ": " ++ e.problem.message
  | unreadable path reason => "failed to read " ++ path ++ ": " ++ reason
  | unknownScript path => "no script loaded for " ++ path

/-- The form of a path under which programs are kept. -/
def key (h : Host) (path : String) : String := Path.canonical h.debugger.options.fold path

/-- Loads a script, in place of one that had its path before.  Threads that execute that one go on
with it. -/
def load (h : Host) (path source : String) : Except LoadError Host :=
  match Program.ofText path source with
  | .ok p => .ok { h with programs := h.programs.insert (h.key path) p }
  | .error e => .error (.parse path e)

theorem load_of_ofText {path source : String} {p : Program} (hp : Program.ofText path source = .ok p)
    (h : Host) : h.load path source = .ok { h with programs := h.programs.insert (h.key path) p } := by
  simp only [load, hp]

/-- Loads the script in a file, given by its path and its text if it exists. -/
def loadFile (h : Host) (path : String) (content : Option String) : Except LoadError Host :=
  match content with
  | some source => h.load path source
  | none => .error (.unreadable path Path.notFound)

/-- Starts a thread that executes a loaded script. -/
def spawn (h : Host) (path name : String) : Except LoadError (ThreadId × Host) :=
  match h.programs.get? (h.key path) with
  | none => .error (.unknownScript path)
  | some p =>
    let x := Execution.start h.nextThread name p
    let h := { h with nextThread := h.nextThread + 1 }
    .ok (x.id,
      if h.waitForAttach then { h with waiting := h.waiting ++ [x] }
      else { h with ready := h.ready ++ [x] })

/-! ## The debuggee as the debugger sees it -/

/-- Threads that the coordinator does not have. -/
def running (h : Host) : List Execution := h.ready ++ h.asleep.map (·.2) ++ h.waiting

/-- All live threads. -/
def live (h : Host) : List Execution := h.running ++ h.debugger.coordinator.contexts

def debuggee (h : Host) : Debuggee where
  threads := h.live.map fun x => ⟨x.id, x.name⟩
  executableLines path := (h.programs.get? path).elim [] Program.executableLines
  knownFiles := h.programs.keys.mergeSort (· ≤ ·)
  held := h.running.flatMap Context.held

/-! ## Running -/

/-- Released threads may go on, and so may those that have waited for a client that is there. -/
def collect (h : Host) : Host :=
  let (released, coordinator) := h.debugger.coordinator.takeReleased
  let (arrived, waiting) := if coordinator.attached then (h.waiting, []) else ([], h.waiting)
  { h with
    debugger := { h.debugger with coordinator }
    ready := h.ready ++ released.map (·.context) ++ arrived
    waiting }

/-- The time in milliseconds: that of the debugger. -/
def now (h : Host) : Nat := h.debugger.inspector.now

/-- The first thread that is ready takes a step. -/
def advance (h : Host) (x : Execution) (others : List Execution) : Host :=
  let (turn, coordinator) := takeTurn h.debugger.coordinator x
  let h := { h with debugger := { h.debugger with coordinator } }
  match turn with
  | .ready x => { h with ready := x :: others }
  | .asleep millis x => { h with ready := others, asleep := h.asleep ++ [(h.now + millis, x)] }
  | .parked => { h with ready := others }
  | .ended => { h with ready := others }

/-- The time at which the next thread wakes. -/
def nextWake? (h : Host) : Option Nat := (h.asleep.map (·.1)).min?

/-- Lets time pass until the given moment. -/
def wake (h : Host) (time : Nat) : Host :=
  { h with
    debugger := h.debugger.passTo time
    ready := h.ready ++ (h.asleep.filter (·.1 ≤ time)).map (·.2)
    asleep := h.asleep.filter (time < ·.1) }

/-- Runs the threads that are ready until none is, for so many steps at most. -/
def runReady : Nat → Host → Host
  | 0, h => h
  | fuel + 1, h =>
    let h := h.collect
    match h.ready with
    | x :: others => runReady fuel (h.advance x others)
    | [] => h

/-- Runs all threads until each is suspended, waits for a client or is over, for so many steps at
most. -/
def settle : Nat → Host → Host
  | 0, h => h
  | fuel + 1, h =>
    let h := h.collect
    match h.ready with
    | x :: others => settle fuel (h.advance x others)
    | [] =>
      match h.nextWake? with
      | some time => settle fuel (h.wake time)
      | none => h

end Host

end DebugAdapter.Script
