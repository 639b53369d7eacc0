import DebugAdapter.Redaction
import DebugAdapter.Wire.Arguments
import DebugAdapter.Wire.Rows

/-!
# Handling requests

What each command does with the debugger, and what it answers.
-/

namespace DebugAdapter.Wire

open Json

/-- What follows a request that succeeds. -/
inductive Reply where
  | answer (body : Option Json)
  /-- An event follows the answer. -/
  | answerThen (body : Option Json) (event : String)
  /-- The session is over after the answer. -/
  | finish (body : Option Json)

/-- What the adapter can do, as it is told to clients. -/
def capabilities : Json :=
  ofMembers [
    ("supportsConfigurationDoneRequest", .bool true),
    ("supportsEvaluateForHovers", .bool true),
    ("supportsConditionalBreakpoints", .bool true),
    ("supportsHitConditionalBreakpoints", .bool false),
    ("supportsLogPoints", .bool false),
    ("supportsFunctionBreakpoints", .bool true),
    ("supportsBreakpointLocationsRequest", .bool true),
    ("supportsExceptionInfoRequest", .bool true),
    ("supportsSingleThreadExecutionRequests", .bool true),
    ("supportsSetVariable", .bool false),
    ("supportsStepBack", .bool false),
    ("exceptionBreakpointFilters", .arr [ofMembers [
      ("filter", .str Debugger.uncaughtFilter),
      ("label", .str "Uncaught Exceptions"),
      ("description", .str "Break when an exception is not handled by the debuggee"),
      ("default", .bool false)]])]

/-- An answer of one member. -/
def single (name : String) (j : Json) : Reply := .answer (some (ofMembers [(name, j)]))

/-- A line breakpoint in the answer to the request that sets it. -/
def breakpointRow (path : String) (b : Breakpoint) : Json :=
  ofSome [("id", some (ofNat b.id)), ("verified", some (.bool b.verified)),
    ("line", some (ofNat b.line)), ("source", some (ofMembers [("path", .str path)])),
    ("message", if b.verified then none else some (.str "No executable code at this line"))]

def functionRow (b : FunctionBreakpoint) : Json :=
  ofMembers [("id", ofNat b.id), ("verified", .bool b.verified)]

/-- The arguments of a request; none are an empty record.  Errors do not repeat what the client has
sent. -/
def arguments {α : Type} (r : Request) (decode : Decoder α) : Except RequestError α :=
  match decode (if r.arguments.isNull then .obj [] else r.arguments) with
  | .ok a => .ok a
  | .error e => .error (.invalidRequest ("invalid " ++ r.command ++ " arguments: " ++
      Redaction.redact (Request.errorText e)))

section

variable {C : Type}

/-- The outcome of a command: its answer or error, and the debugger after it. -/
abbrev Outcome (C : Type) := Except RequestError Reply × Debugger C

/-- Turns the result of a debugger call into an answer. -/
def Outcome.of {α : Type} (f : α → Reply) (r : Except RequestError α × Debugger C) : Outcome C :=
  (r.1.map f, r.2)

/-- A call that gives an answer in any case. -/
def Outcome.sure {α : Type} (f : α → Reply) (r : α × Debugger C) : Outcome C := (.ok (f r.1), r.2)

/-- Does something with the arguments of a request if they have the right form. -/
def withArguments {α : Type} (d : Debugger C) (r : Request) (decode : Decoder α)
    (f : α → Outcome C) : Outcome C :=
  match arguments r decode with
  | .ok a => f a
  | .error e => (.error e, d)

variable [Context C]

/-- Values that nobody can see any more are forgotten when a thread goes on. -/
def reclaimed (p : Debuggee) (o : Outcome C) : Outcome C :=
  match o.1 with
  | .ok _ => (o.1, (o.2.reclaim p).2)
  | .error _ => o

/-- Handles a request. -/
def handle (d : Debugger C) (p : Debuggee) (r : Request) : Outcome C :=
  match r.command with
  | "initialize" => (.ok (.answer (some capabilities)), d)
  | "attach" =>
    Outcome.of (fun _ => .answerThen none "initialized") (d.attach (.ofJson r.arguments))
  | "launch" =>
    (.error (.invalidRequest "launch is not supported; attach to a running debuggee"), d)
  | "configurationDone" => (.ok (.answer none), d)
  | "setBreakpoints" =>
    withArguments d r SetBreakpoints.decode fun a =>
      Outcome.of (fun bs => single "breakpoints" (ofList (breakpointRow a.path) bs))
        (d.setBreakpoints p a.path a.requested)
  | "setFunctionBreakpoints" =>
    withArguments d r functionBreakpoints fun requested =>
      Outcome.of (fun bs => single "breakpoints" (ofList functionRow bs))
        (d.setFunctionBreakpoints requested)
  | "setExceptionBreakpoints" =>
    withArguments d r exceptionFilters fun filters =>
      Outcome.of (fun _ => .answer none) (d.setExceptionBreakpoints filters)
  | "breakpointLocations" =>
    withArguments d r Locations.decode fun a =>
      let lines := d.breakpointLocations p a.path a.line a.endLine
      (.ok (single "breakpoints" (ofList (fun n => ofMembers [("line", ofNat n)]) lines)), d)
  | "threads" => (.ok (single "threads" (ofList Thread.Row.toJson (d.threads p))), d)
  | "stackTrace" =>
    withArguments d r StackTrace.decode fun a =>
      Outcome.sure (fun (rows, total) => .answer (some (ofMembers [
        ("stackFrames", ofList Debugger.FrameRow.toJson rows), ("totalFrames", ofNat total)])))
        (d.stackTrace a.thread a.start a.levels)
  | "scopes" =>
    withArguments d r frameId fun frame =>
      Outcome.sure (fun rows => single "scopes" (ofList Debugger.ScopeRow.toJson rows))
        (d.scopes frame)
  | "variables" =>
    withArguments d r Listing.decode fun a =>
      Outcome.sure (fun rows => single "variables" (ofList Variable.toJson rows))
        (d.children p a.reference (.ofName a.filter) a.start a.count)
  | "evaluate" =>
    withArguments d r Evaluation.decode fun a =>
      Outcome.of (fun v => .answer (some v.resultJson)) (d.evaluate a.frame a.expression)
  | "continue" =>
    withArguments d r thread fun t =>
      reclaimed p (Outcome.of (fun all => single "allThreadsContinued" (.bool all)) (d.resume t))
  | "pause" =>
    withArguments d r thread fun t => Outcome.of (fun _ => .answer none) (d.pause p t)
  | "exceptionInfo" =>
    withArguments d r thread fun t => (.ok (.answer (some (d.exceptionInfo t).toJson)), d)
  | "debugBreakpointBindings" => (.ok (.answer (some (d.bindings p).toJson)), d)
  | "getSourcePath" =>
    withArguments d r Listing.decode fun a =>
      (.ok (single "path" (ofOption .str (d.sourcePath? p a.reference))), d)
  | "disconnect" => (.ok (.finish none), d.detach)
  | command =>
    match StepMode.ofCommand? command with
    | some mode =>
      withArguments d r thread fun t =>
        reclaimed p (Outcome.of (fun _ => .answer none) (d.step t mode))
    | none => (.error (.invalidRequest ("unsupported request " ++ command)), d)

end

end DebugAdapter.Wire
