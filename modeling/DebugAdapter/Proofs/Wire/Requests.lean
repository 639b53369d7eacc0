import DebugAdapter.Proofs.Debugger.Refusals
import DebugAdapter.Suspension.Described
import DebugAdapter.Wire.Handler

/-!
# What requests do

A request asks the debugger for at most one thing (`Asks`), and `handle_cases` says what becomes of
it. All that is to be known of the single commands is in these two; in particular a request that is
answered by an error leaves the debugger as it was (`state_of_error`).
-/

namespace DebugAdapter.Wire

variable {C : Type}

/-- What a request asks for, if its arguments can be read. The two that begin and end a session are
not among these. -/
inductive Asks (p : Debuggee) (r : Request) : Debugger.Event C → Prop where
  | setBreakpoints {a : SetBreakpoints} (hcommand : r.command = "setBreakpoints")
      (ha : arguments r SetBreakpoints.decode = .ok a) :
      Asks p r (.setBreakpoints p a.path a.requested)
  | setFunctionBreakpoints {requested : List FunctionBreakpoint.Request}
      (hcommand : r.command = "setFunctionBreakpoints")
      (ha : arguments r functionBreakpoints = .ok requested) :
      Asks p r (.setFunctionBreakpoints requested)
  | setExceptionBreakpoints {filters : List String} (hcommand : r.command = "setExceptionBreakpoints")
      (ha : arguments r exceptionFilters = .ok filters) : Asks p r (.setExceptionBreakpoints filters)
  | stackTrace {a : StackTrace} (hcommand : r.command = "stackTrace")
      (ha : arguments r StackTrace.decode = .ok a) :
      Asks p r (.stackTrace a.thread a.start a.levels)
  | scopes {frame : Int} (hcommand : r.command = "scopes") (ha : arguments r frameId = .ok frame) :
      Asks p r (.scopes frame)
  | children {a : Listing} (hcommand : r.command = "variables")
      (ha : arguments r Listing.decode = .ok a) :
      Asks p r (.children p a.reference (.ofName a.filter) a.start a.count)
  | evaluate {a : Evaluation} (hcommand : r.command = "evaluate")
      (ha : arguments r Evaluation.decode = .ok a) : Asks p r (.evaluate a.frame a.expression)
  | resume {t : ThreadId} (hcommand : r.command = "continue") (ha : arguments r thread = .ok t) :
      Asks p r (.resume t)
  | step {t : ThreadId} {mode : StepMode} (hcommand : StepMode.ofCommand? r.command = some mode)
      (ha : arguments r thread = .ok t) : Asks p r (.step t mode)
  | pause {t : ThreadId} (hcommand : r.command = "pause") (ha : arguments r thread = .ok t) :
      Asks p r (.pause p t)

/-- The request neither begins nor ends a session. -/
def Inner (r : Request) : Prop := r.command ≠ "attach" ∧ r.command ≠ "disconnect"

theorem inner_of {r : Request} {command : String} (h : r.command = command)
    (hcommand : command ≠ "attach" ∧ command ≠ "disconnect" := by decide) : Inner r := by
  rw [Inner, h]
  exact hcommand

theorem inner_of_step {r : Request} {mode : StepMode}
    (h : StepMode.ofCommand? r.command = some mode) : Inner r := by
  constructor
  · intro hattach
    rw [hattach] at h
    contradiction
  · intro hdisconnect
    rw [hdisconnect] at h
    contradiction

variable [Context C]

/-- What can become of a request. -/
inductive Handled (d : Debugger C) (p : Debuggee) (r : Request) : Outcome C → Prop where
  | looked (answer : Except RequestError (Option Json)) (hinner : Inner r)
      (hkind : ∀ reason, answer ≠ .error (.attachRejected reason)) :
      Handled d p r (answer.map .answer, d)
  | did {e : Debugger.Event C} (hasks : Asks p r e) (answer : Except RequestError (Option Json))
      (houtcome : d.outcome e = answer.map fun _ => ()) :
      Handled d p r (answer.map .answer, d.after e)
  /-- A thread goes on, so values are forgotten. -/
  | released {e : Debugger.Event C} (hasks : Asks p r e) (body : Option Json)
      (houtcome : d.outcome e = .ok ()) :
      Handled d p r (.ok (.answer body), (d.after e).after (.reclaim p))
  | attached (hcommand : r.command = "attach") :
      Handled d p r ((d.outcome (.attach (.ofJson r.arguments))).map fun _ =>
        .answerThen none "initialized", d.after (.attach (.ofJson r.arguments)))
  | left (hcommand : r.command = "disconnect") :
      Handled d p r (.ok (.finish none), d.after .detach)

section
variable {d : Debugger C} {p : Debuggee} {r : Request}

theorem Handled.withArguments {α : Type} {decode : Json.Decoder α} {f : α → Outcome C}
    (hinner : Inner r) (h : ∀ a, arguments r decode = .ok a → Handled d p r (f a)) :
    Handled d p r (withArguments d r decode f) := by
  cases ha : arguments r decode with
  | ok a =>
    simp only [Wire.withArguments, ha]
    exact h a ha
  | error err =>
    have hkind : ∀ reason, (Except.error err : Except RequestError (Option Json)) ≠
        .error (.attachRejected reason) := by
      intro reason hreason
      cases hreason
      unfold arguments at ha
      split at ha <;> cases ha
    simp only [Wire.withArguments, ha]
    exact .looked (.error err) hinner hkind

theorem Handled.of {α : Type} {e : Debugger.Event C} {x : Except RequestError α × Debugger C}
    (hasks : Asks p r e) (body : α → Option Json) (hstate : x.2 = d.after e)
    (houtcome : d.outcome e = x.1.map fun _ => ()) :
    Handled d p r (Outcome.of (fun a => .answer (body a)) x) := by
  obtain ⟨result, after⟩ := x
  obtain rfl : after = d.after e := hstate
  have hanswer : d.outcome e = (result.map body).map fun _ => () := by
    rw [houtcome]
    cases result <;> rfl
  have hmap : Outcome.of (fun a => .answer (body a)) (result, d.after e) =
      ((result.map body).map .answer, d.after e) := by
    cases result <;> rfl
  rw [hmap]
  exact .did hasks _ hanswer

theorem Handled.reclaimed {α : Type} {e : Debugger.Event C}
    {x : Except RequestError α × Debugger C} (hasks : Asks p r e) (body : α → Option Json)
    (hstate : x.2 = d.after e) (houtcome : d.outcome e = x.1.map fun _ => ()) :
    Handled d p r (reclaimed p (Outcome.of (fun a => .answer (body a)) x)) := by
  obtain ⟨result, after⟩ := x
  obtain rfl : after = d.after e := hstate
  cases result with
  | error err => exact .did hasks (.error err) houtcome
  | ok a => exact .released hasks (body a) houtcome

theorem Handled.sure {e : Debugger.Event C} (hasks : Asks p r e) (body : Option Json)
    (houtcome : d.outcome e = .ok ()) : Handled d p r (.ok (.answer body), d.after e) :=
  .did hasks (.ok body) houtcome

/-- An answer that is always given, to a request for nothing. -/
theorem Handled.told (hinner : Inner r) (body : Option Json) :
    Handled d p r (.ok (.answer body), d) :=
  .looked (.ok body) hinner fun _ h => by cases h

theorem Handled.invalid (hinner : Inner r) (problem : String) :
    Handled d p r (.error (.invalidRequest problem), d) :=
  .looked (.error (.invalidRequest problem)) hinner fun _ h => by cases h

end

theorem handle_cases (d : Debugger C) (p : Debuggee) (r : Request) :
    Handled d p r (handle d p r) := by
  have hunit : ∀ x : Except RequestError Unit, x = x.map fun _ => () := by
    intro x
    cases x <;> rfl
  unfold handle
  split
  case h_1 h => exact .told (inner_of h) _
  case h_2 h => exact .attached h
  case h_3 h => exact .invalid (inner_of h) _
  case h_4 h => exact .told (inner_of h) _
  case h_5 h =>
    refine .withArguments (inner_of h) fun a ha => ?_
    exact .of (.setBreakpoints h ha) _ rfl rfl
  case h_6 h =>
    refine .withArguments (inner_of h) fun a ha => ?_
    exact .of (.setFunctionBreakpoints h ha) _ rfl rfl
  case h_7 h =>
    refine .withArguments (inner_of h) fun a ha => ?_
    exact .of (.setExceptionBreakpoints h ha) _ rfl (hunit _)
  case h_8 h =>
    exact .withArguments (inner_of h) fun a _ =>
      .told (inner_of h) _
  case h_9 h => exact .told (inner_of h) _
  case h_10 h =>
    refine .withArguments (inner_of h) fun a ha => ?_
    exact .sure (.stackTrace h ha) _ rfl
  case h_11 h =>
    refine .withArguments (inner_of h) fun frame ha => ?_
    exact .sure (.scopes h ha) _ rfl
  case h_12 h =>
    refine .withArguments (inner_of h) fun a ha => ?_
    exact .sure (.children h ha) _ rfl
  case h_13 h =>
    refine .withArguments (inner_of h) fun a ha => ?_
    exact .of (.evaluate h ha) _ rfl rfl
  case h_14 h =>
    refine .withArguments (inner_of h) fun t ha => ?_
    exact .reclaimed (.resume h ha) _ rfl rfl
  case h_15 h =>
    refine .withArguments (inner_of h) fun t ha => ?_
    exact .of (.pause h ha) _ rfl (hunit _)
  case h_16 h =>
    exact .withArguments (inner_of h) fun t _ =>
      .told (inner_of h) _
  case h_17 h => exact .told (inner_of h) _
  case h_18 h =>
    exact .withArguments (inner_of h) fun a _ =>
      .told (inner_of h) _
  case h_19 h => exact .left h
  case h_20 =>
    split
    · rename_i mode hmode
      refine .withArguments (inner_of_step hmode) fun t ha => ?_
      exact .reclaimed (.step hmode ha) _ rfl (hunit _)
    · exact .invalid ⟨‹_›, ‹_›⟩ _

/-! ## Errors -/

theorem Handled.unchanged {d : Debugger C} {p : Debuggee} {r : Request} {x : Outcome C}
    {err : RequestError} (h : Handled d p r x) (hd : d.Acquainted) (herror : x.1 = .error err) :
    x.2 = d := by
  cases h with
  | looked answer => rfl
  | did hasks answer houtcome =>
    cases answer with
    | ok body => contradiction
    | error err' => exact Debugger.after_of_refused hd houtcome
  | released => contradiction
  | attached =>
    cases houtcome : d.outcome (.attach (.ofJson r.arguments)) with
    | ok _ =>
      rw [houtcome] at herror
      contradiction
    | error err' => exact Debugger.after_of_refused hd houtcome
  | left => contradiction

/-- Whatever has happened to a debugger before, and whatever is asked: a request that is answered by
an error leaves the whole state as it was. -/
theorem state_of_error (o : Options) (hs : List (Debugger.Happening C)) (p : Debuggee) (r : Request)
    (err : RequestError) (herror : (handle ((Debugger.new o).through hs) p r).1 = .error err) :
    (handle ((Debugger.new o).through hs) p r).2 = (Debugger.new o).through hs :=
  (handle_cases _ p r).unchanged (Debugger.acquainted_through o hs) herror

/-- One thread stands before a breakpoint and the client knows its stack; the other one runs. -/
def oneWaits : List (Debugger.Happening DescribedThread) :=
  let ten : DescribedThread := ⟨10, "ten", [⟨"main", "/a", 3, []⟩], []⟩
  [.event (.attach ⟨some "secret", [], false⟩), .event (.report ten (.halt "/a" 3 none)),
    .event (.stackTrace 10 0 none)]

theorem state_of_error_runningThread :
    let d := (Debugger.new ⟨true, some "secret", 8, none⟩).through oneWaits
    let r : Request := ⟨7, "request", "next", .obj [("threadId", .ofInt 11)]⟩
    d.frames.frames.size = 1 ∧
      (handle d ⟨[⟨10, "ten"⟩, ⟨11, "eleven"⟩], fun _ => [], [], []⟩ r).1 =
        .error (.unknownThread 11) ∧
      (handle d ⟨[⟨10, "ten"⟩, ⟨11, "eleven"⟩], fun _ => [], [], []⟩ r).2 = d :=
  ⟨rfl, rfl, state_of_error _ oneWaits _ _ _ rfl⟩

end DebugAdapter.Wire
