import DebugAdapter.Debugger.Basic

/-!
# Requests

What a client can ask of the debugger.  A request that can fail gives its error beside the state it
leaves behind.
-/

namespace DebugAdapter

namespace Debugger

variable {C : Type}

/-! ## Sessions -/

/-- Starts a session for a client that presents the secret. -/
def attach (d : Debugger C) (a : AttachArguments) : Except RequestError Unit × Debugger C :=
  match d.options.secret with
  | none => (.error (.attachRejected "no debugger secret is configured"), d)
  | some expected =>
    if a.secret ≠ some expected then (.error (.attachRejected "invalid secret"), d)
    else
      (.ok (), { d with
        session := some ⟨a.transforms, d.options.fold⟩
        coordinator := d.coordinator.attach a.consoleOutput })

/-- Ends the session.  Breakpoints are kept for the next client. -/
def detach (d : Debugger C) : Debugger C :=
  { d with
    session := none
    coordinator := d.coordinator.detach
    frames := d.frames.clear
    inspector := d.inspector.clear }

/-! ## Breakpoints -/

def setBreakpoints (d : Debugger C) (debuggee : Debuggee) (path : String)
    (requested : List Breakpoint.Request) :
    Except RequestError (List Breakpoint) × Debugger C :=
  match d.session with
  | none => (.error .notAttached, d)
  | some mapper =>
    let file := mapper.toDebuggee path
    let (created, breakpoints) :=
      d.coordinator.breakpoints.replace file requested (debuggee.executableLines file)
    (.ok created, { d with coordinator := d.coordinator.setBreakpoints breakpoints })

def setFunctionBreakpoints (d : Debugger C) (requested : List FunctionBreakpoint.Request) :
    Except RequestError (List FunctionBreakpoint) × Debugger C :=
  match d.session with
  | none => (.error .notAttached, d)
  | some _ =>
    let (created, functions) := d.coordinator.functions.replace requested
    (.ok created, { d with coordinator := d.coordinator.setFunctions functions })

/-- The filter for exceptions that nobody handles. -/
def uncaughtFilter : String := "uncaught"

def setExceptionBreakpoints (d : Debugger C) (filters : List String) :
    Except RequestError Unit × Debugger C :=
  match d.session with
  | none => (.error .notAttached, d)
  | some _ =>
    (.ok (), { d with
      coordinator := d.coordinator.setBreakOnUncaught (filters.contains uncaughtFilter) })

/-- The executable lines of a file between two lines, in ascending order. -/
def breakpointLocations (d : Debugger C) (debuggee : Debuggee) (path : String) (line : Nat)
    (endLine : Option Nat) : List Nat :=
  let last := max (endLine.getD line) line
  let lines := debuggee.executableLines (d.displayMapper.toDebuggee path)
  ((lines.filter fun n => line ≤ n && n ≤ last).mergeSort (· ≤ ·)).eraseReps

/-! ## Threads and frames -/

/-- All threads, the entry that stands for them together first. -/
def threads (d : Debugger C) (debuggee : Debuggee) : List Thread.Row :=
  ⟨Coordinator.allThreads, "All Threads"⟩ ::
    (Thread.sortRows debuggee.threads).map fun row =>
      if d.coordinator.isSuspended row.id then { row with name := row.name ++ " (suspended)" }
      else row

/-- A row of a listed stack. -/
structure FrameRow where
  id : Int
  name : String
  line : Nat
  path : String

section

variable [Context C]

/-- The frames that a suspended thread shows, with their indices in its own list.  A thread none of
whose frames has begun shows one that stands for itself. -/
def shownFrames (s : Suspension C) : List (Nat × StackFrame) :=
  let begun := ((Context.frames s.context).mapIdx Prod.mk).filter fun p => 0 < p.2.line
  if begun.isEmpty then [(0, ⟨Context.name s.context, s.file, s.line, []⟩)] else begun

/-- A page of a suspended thread's stack, and its whole size.  Other threads show none. -/
def stackTrace (d : Debugger C) (t : ThreadId) (start : Nat) (levels : Option Nat) :
    (List FrameRow × Nat) × Debugger C :=
  match d.coordinator.suspended.get? t with
  | none => (([], 0), d)
  | some s =>
    let shown := shownFrames s
    let known := shown.mapIdx fun position (index, frame) =>
      (⟨t, index, position == 0, frame⟩ : KnownFrame)
    let asked := Inspector.page (some start) levels known
    let (ids, frames) := d.frames.insertAll asked
    let mapper := d.displayMapper
    let rows := asked.zipWith (fun k id =>
      (⟨id, k.frame.function, k.frame.line, mapper.toClient k.frame.file⟩ : FrameRow)) ids
    ((rows, shown.length), { d with frames })

end

/-- A row of the listed scopes of a frame. -/
structure ScopeRow where
  name : String
  reference : Nat

/-- Lists a scope under a handle, and notes what the handle shows. -/
def listScope (d : Debugger C) (frame : Int) (name : String) (id : Nat) :
    ScopeRow × Debugger C :=
  let handles := (d.inspector.handles.setPath id name).setFrame id frame
  (⟨name, id⟩, { d with inspector := { d.inspector with handles } })

/-- The value that shows the exception of a suspended thread, made when it is first asked for. -/
def exceptionValue (d : Debugger C) (t : ThreadId) (e : Exception) : Value × Debugger C :=
  match d.frames.exceptions.get? t with
  | some v => (v, d)
  | none =>
    let (v, inspector) := d.inspector.makeException e
    (v, { d with
      inspector
      frames := { d.frames with exceptions := d.frames.exceptions.insert t v } })

/-- The exception that a thread is suspended for. -/
def exceptionOf? (d : Debugger C) (t : ThreadId) : Option Exception :=
  (d.coordinator.suspended.get? t).bind (·.stop.exception)

/-- Lists the scope that shows the exception of a thread. -/
def listException (d : Debugger C) (frame : Int) (t : ThreadId) : List ScopeRow × Debugger C :=
  match d.exceptionOf? t with
  | none => ([], d)
  | some e =>
    let (v, d) := d.exceptionValue t e
    let (id, inspector) := d.inspector.pin v
    let (row, d) := { d with inspector }.listScope frame "Exception" id
    ([row], d)

/-- Lists scopes one after the other. -/
def listScopes (d : Debugger C) (frame : Int) : List Scope → List ScopeRow × Debugger C
  | [] => ([], d)
  | s :: rest =>
    let (id, inspector) := d.inspector.register s.value
    let (row, d) := { d with inspector }.listScope frame s.name id
    let (rows, d) := d.listScopes frame rest
    (row :: rows, d)

/-- The scopes of a frame; the innermost frame also shows the exception that its thread stopped
for.  An unknown frame has none. -/
def scopes (d : Debugger C) (frame : Int) : List ScopeRow × Debugger C :=
  match d.frames.get? frame with
  | none => ([], d)
  | some known =>
    let (first, d) := if known.top then d.listException frame known.thread else ([], d)
    let (rest, d) := d.listScopes frame known.frame.scopes
    (first ++ rest, d)

/-! ## Values -/

section

variable [Context C]

def children (d : Debugger C) (debuggee : Debuggee) (id : Nat) (filter : ChildFilter)
    (start count : Option Nat) : List Variable × Debugger C :=
  let (rows, inspector) := d.inspector.children (d.held debuggee) id filter start count
  (rows, { d with inspector })

/-- Pins a value under its handle unless the handle is pinned already. -/
def keep (s : Inspector) (id : Nat) (v : Value) : Inspector :=
  if id == 0 then s
  else
    match s.pinned? id with
    | (some _, s) => s
    | (none, s) => { s with pins := s.pins.put id v s.now }

/-- The value of an expression in a frame, as a row.  Nothing else may hold the value, so it is
kept. -/
def evaluate (d : Debugger C) (frame : Option Int) (expression : String) :
    Except RequestError Variable × Debugger C :=
  match frame with
  | none => (.error (.invalidRequest "evaluate requires a frameId"), d)
  | some frame =>
    match d.frames.get? frame with
    | none => (.error (.unknownFrame frame), d)
    | some known =>
      match d.coordinator.suspended.get? known.thread with
      | none => (.error (.unknownThread known.thread), d)
      | some s =>
        match Context.evaluate s.context known.index expression d.inspector.made with
        | (.error (.failed problem), _) => (.error (.evaluation problem), d)
        | (.error .crashed, _) => (.error (.panicked "evaluate"), d)
        | (.ok v, made) =>
          let (row, inspector) := { d.inspector with made }.row "result" v
          (.ok row, { d with inspector := keep inspector row.reference v })

/-- The client's path of the file that the value behind a handle was defined in. -/
def sourcePath? (d : Debugger C) (debuggee : Debuggee) (id : Nat) : Option String := do
  let v ← d.inspector.resolve? (d.held debuggee) id
  return d.displayMapper.toClient (← v.source)

/-- Takes out handles of values that are gone, and tells how many there were. -/
def reclaim (d : Debugger C) (debuggee : Debuggee) : Nat × Debugger C :=
  let (n, inspector) := d.inspector.reclaim (d.held debuggee)
  (n, { d with inspector })

/-! ## Execution -/

/-- Releases a thread, or all of them; tells whether it was all. -/
def resume (d : Debugger C) (t : ThreadId) : Except RequestError Bool × Debugger C :=
  if t = Coordinator.anyThread ∨ t = Coordinator.allThreads then
    (.ok true, { d with coordinator := d.coordinator.resumeAll.2, frames := d.frames.clear })
  else
    let (was, coordinator) := d.coordinator.resume t
    (if was then .ok false else .error (.unknownThread t),
      { d with coordinator, frames := d.frames.forgetThread t })

/-- Releases a thread for a step. -/
def step (d : Debugger C) (t : ThreadId) (mode : StepMode) :
    Except RequestError Unit × Debugger C :=
  let (was, coordinator) := d.coordinator.step t mode
  (if was then .ok () else .error (.unknownThread t),
    { d with coordinator, frames := d.frames.forgetThread t })

/-- Asks a live thread, or any thread, to stop where it is. -/
def pause (d : Debugger C) (debuggee : Debuggee) (t : ThreadId) :
    Except RequestError Unit × Debugger C :=
  match d.session with
  | none => (.error .notAttached, d)
  | some _ =>
    if t = Coordinator.anyThread ∨ t = Coordinator.allThreads ∨
        debuggee.threads.any (·.id = t) then
      (.ok (), { d with coordinator := d.coordinator.requestPause t })
    else (.error (.unknownThread t), d)

end

/-! ## Information -/

structure ExceptionDetails where
  message : String
  typeName : String
  stackTrace : String
  inner : Option String

structure ExceptionInfo where
  id : String
  description : String
  details : Option ExceptionDetails

/-- What an exception says of itself, followed by its detail if that is not empty. -/
def fullMessage (e : Exception) : String :=
  match e.detail with
  | some detail => if detail.isEmpty then e.message else e.message ++ "\n\nDetail: " ++ detail
  | none => e.message

def exceptionInfo (d : Debugger C) (t : ThreadId) : ExceptionInfo :=
  match d.exceptionOf? t with
  | none => ⟨"unknown", "No exception information available", none⟩
  | some e => ⟨e.typeName, e.message, some ⟨fullMessage e, e.typeName, e.stackTrace, e.inner⟩⟩

structure Bindings where
  files : List String
  breakpoints : List Breakpoint
  transforms : List Path.Transform

/-- The files, breakpoints and path transforms that are in force. -/
def bindings (d : Debugger C) (debuggee : Debuggee) : Bindings where
  files := debuggee.knownFiles.mergeSort (· ≤ ·)
  breakpoints := d.coordinator.breakpoints.all
  transforms := d.displayMapper.transforms

end Debugger

end DebugAdapter
