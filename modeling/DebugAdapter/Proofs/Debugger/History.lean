import DebugAdapter.Debugger.Requests
import DebugAdapter.Proofs.Suspension.Activity

/-!
# Histories of a debugger

Requests of the client and reports of the debuggee's threads, in any order. To the coordinator each
of them is at most one operation (`after_cases`), so what holds along the histories of a coordinator
holds along those of a debugger. More holds here, since the debugger asks for a pause only within a
session and changes breakpoints only through their registry. `active_exact` draws the conclusion for
the flag that lets reports return early.
-/

namespace DebugAdapter.Debugger

variable {C : Type}

inductive Event (C : Type) where
  | attach (a : AttachArguments)
  | detach
  | setBreakpoints (p : Debuggee) (path : String) (requested : List Breakpoint.Request)
  | setFunctionBreakpoints (requested : List FunctionBreakpoint.Request)
  | setExceptionBreakpoints (filters : List String)
  | stackTrace (t : ThreadId) (start : Nat) (levels : Option Nat)
  | scopes (frame : Int)
  | children (p : Debuggee) (id : Nat) (filter : ChildFilter) (start count : Option Nat)
  | evaluate (frame : Option Int) (expression : String)
  | reclaim (p : Debuggee)
  | resume (t : ThreadId)
  | step (t : ThreadId) (mode : StepMode)
  | pause (p : Debuggee) (t : ThreadId)
  | report (ctx : C) (r : Report)
  | announce (t : ThreadId) (e : Exception) (caught : Bool)
  | exited (t : ThreadId)
  | output (text : String) (isError : Bool)

variable [Context C]

def after (d : Debugger C) : Event C → Debugger C
  | .attach a => (d.attach a).2
  | .detach => d.detach
  | .setBreakpoints p path requested => (d.setBreakpoints p path requested).2
  | .setFunctionBreakpoints requested => (d.setFunctionBreakpoints requested).2
  | .setExceptionBreakpoints filters => (d.setExceptionBreakpoints filters).2
  | .stackTrace t start levels => (d.stackTrace t start levels).2
  | .scopes frame => (d.scopes frame).2
  | .children p id filter start count => (d.children p id filter start count).2
  | .evaluate frame expression => (d.evaluate frame expression).2
  | .reclaim p => (d.reclaim p).2
  | .resume t => (d.resume t).2
  | .step t mode => (d.step t mode).2
  | .pause p t => (d.pause p t).2
  | .report ctx r => { d with coordinator := d.coordinator.after (.report ctx r) }
  | .announce t e caught => { d with coordinator := d.coordinator.after (.announce t e caught) }
  | .exited t => { d with coordinator := d.coordinator.after (.exited t) }
  | .output text isError => { d with coordinator := d.coordinator.after (.output text isError) }

def run (d : Debugger C) (es : List (Event C)) : Debugger C := es.foldl after d

/-! ## Requests that only look -/

/-- The same coordinator in the same session. -/
def Unmoved (d d' : Debugger C) : Prop :=
  d'.coordinator = d.coordinator ∧ d'.session = d.session

omit [Context C] in
theorem Unmoved.trans {d d' d'' : Debugger C} (h : Unmoved d d') (h' : Unmoved d' d'') :
    Unmoved d d'' := ⟨h'.1.trans h.1, h'.2.trans h.2⟩

theorem stackTrace_unmoved (d : Debugger C) (t : ThreadId) (start : Nat) (levels : Option Nat) :
    Unmoved d (d.stackTrace t start levels).2 := by
  unfold stackTrace
  split <;> exact ⟨rfl, rfl⟩

omit [Context C] in
theorem listScopes_unmoved (d : Debugger C) (frame : Int) (scopes : List Scope) :
    Unmoved d (d.listScopes frame scopes).2 := by
  induction scopes generalizing d with
  | nil => exact ⟨rfl, rfl⟩
  | cons s rest ih => exact Unmoved.trans ⟨rfl, rfl⟩ (ih _)

omit [Context C] in
theorem exceptionValue_unmoved (d : Debugger C) (t : ThreadId) (e : Exception) :
    Unmoved d (d.exceptionValue t e).2 := by
  unfold exceptionValue
  split <;> exact ⟨rfl, rfl⟩

omit [Context C] in
theorem listException_unmoved (d : Debugger C) (frame : Int) (t : ThreadId) :
    Unmoved d (d.listException frame t).2 := by
  unfold listException
  split
  · exact ⟨rfl, rfl⟩
  · exact (exceptionValue_unmoved d t _).trans ⟨rfl, rfl⟩

omit [Context C] in
theorem scopes_unmoved (d : Debugger C) (frame : Int) : Unmoved d (d.scopes frame).2 := by
  unfold scopes
  split
  · exact ⟨rfl, rfl⟩
  · rename_i known _
    have hfirst : Unmoved d
        (if known.top then d.listException frame known.thread else ([], d)).2 := by
      split
      · exact listException_unmoved d frame known.thread
      · exact ⟨rfl, rfl⟩
    exact hfirst.trans (listScopes_unmoved _ frame known.frame.scopes)

theorem evaluate_unmoved (d : Debugger C) (frame : Option Int) (expression : String) :
    Unmoved d (d.evaluate frame expression).2 := by
  unfold evaluate
  repeat' split
  all_goals exact ⟨rfl, rfl⟩

/-! ## The coordinator's side -/

/-- An operation that a debugger can ask for. -/
def Regular (c : Coordinator C) : Operation C → Prop
  | .requestPause _ => c.attached = true
  | .setBreakpoints b => b.summary = .of b.all
  | _ => True

/-- What holds between a debugger and its coordinator. -/
structure Settled (d : Debugger C) : Prop where
  session : d.session.isSome = d.coordinator.attached
  current : d.coordinator.Current
  rest : d.coordinator.AtRest
  summary : d.coordinator.breakpoints.summary = .of d.coordinator.breakpoints.all

/-- An event leaves the coordinator alone, or is one operation to it. -/
theorem after_cases {d : Debugger C} (h : Settled d) (e : Event C) :
    Unmoved d (d.after e) ∨ ∃ op, Regular d.coordinator op ∧
      (d.after e).coordinator = d.coordinator.after op ∧
      (d.after e).session.isSome = (op.configure d.coordinator.setup).attached := by
  cases e with
  | attach a =>
    simp only [after, attach]
    split
    · exact Or.inl ⟨rfl, rfl⟩
    · split
      · exact Or.inl ⟨rfl, rfl⟩
      · exact Or.inr ⟨.attach a.consoleOutput, trivial, rfl, rfl⟩
  | detach => exact Or.inr ⟨.detach, trivial, rfl, rfl⟩
  | setBreakpoints p path requested =>
    simp only [after, setBreakpoints]
    split
    · exact Or.inl ⟨rfl, rfl⟩
    · refine Or.inr ⟨.setBreakpoints _, ?_, rfl, h.session⟩
      rfl
  | setFunctionBreakpoints requested =>
    simp only [after, setFunctionBreakpoints]
    split
    · exact Or.inl ⟨rfl, rfl⟩
    · exact Or.inr ⟨.setFunctions _, trivial, rfl, h.session⟩
  | setExceptionBreakpoints filters =>
    simp only [after, setExceptionBreakpoints]
    split
    · exact Or.inl ⟨rfl, rfl⟩
    · exact Or.inr ⟨.setBreakOnUncaught _, trivial, rfl, h.session⟩
  | stackTrace t start levels => exact Or.inl (stackTrace_unmoved d t start levels)
  | scopes frame => exact Or.inl (scopes_unmoved d frame)
  | children p id filter start count => exact Or.inl ⟨rfl, rfl⟩
  | evaluate frame expression => exact Or.inl (evaluate_unmoved d frame expression)
  | reclaim p => exact Or.inl ⟨rfl, rfl⟩
  | resume t =>
    simp only [after, resume]
    split
    · exact Or.inr ⟨.resumeAll, trivial, rfl, h.session⟩
    · exact Or.inr ⟨.resume t, trivial, rfl, h.session⟩
  | step t mode => exact Or.inr ⟨.step t mode, trivial, rfl, h.session⟩
  | pause p t =>
    cases hsession : d.session with
    | none =>
      simp only [after, pause, hsession]
      exact Or.inl ⟨rfl, rfl⟩
    | some mapper =>
      have hattached : d.coordinator.attached = true := by
        rw [← h.session, hsession]
        rfl
      simp only [after, pause, hsession]
      split
      · exact Or.inr ⟨.requestPause t, hattached, rfl, hattached.symm⟩
      · exact Or.inl ⟨rfl, rfl⟩
  | report ctx r => exact Or.inr ⟨.report ctx r, trivial, rfl, h.session⟩
  | announce t e caught => exact Or.inr ⟨.announce t e caught, trivial, rfl, h.session⟩
  | exited t => exact Or.inr ⟨.exited t, trivial, rfl, h.session⟩
  | output text isError => exact Or.inr ⟨.output text isError, trivial, rfl, h.session⟩

omit [Context C] in
theorem Settled.of_unmoved {d d' : Debugger C} (h : Settled d) (hd : Unmoved d d') :
    Settled d' := by
  obtain ⟨hcoordinator, hsession⟩ := hd
  constructor
  · rw [hcoordinator, hsession]
    exact h.session
  · rw [hcoordinator]
    exact h.current
  · rw [hcoordinator]
    exact h.rest
  · rw [hcoordinator]
    exact h.summary

theorem summary_after {c : Coordinator C} {op : Operation C} (hop : Regular c op)
    (h : c.breakpoints.summary = .of c.breakpoints.all) :
    (c.after op).breakpoints.summary = .of (c.after op).breakpoints.all := by
  have hsetup : (c.after op).breakpoints = (op.configure c.setup).breakpoints :=
    congrArg Setup.breakpoints (Coordinator.after_setup c op)
  rw [hsetup]
  cases op with
  | setBreakpoints b => exact hop
  | _ => exact h

theorem settled_after {d : Debugger C} (h : Settled d) (e : Event C) : Settled (d.after e) := by
  rcases after_cases h e with hunmoved | ⟨op, hop, hcoordinator, hsession⟩
  · exact h.of_unmoved hunmoved
  · have hattended : d.coordinator.Attended op := by
      cases op with
      | requestPause t => exact hop
      | _ => trivial
    constructor
    · rw [hsession, hcoordinator]
      exact (congrArg Setup.attached (Coordinator.after_setup d.coordinator op)).symm
    · rw [hcoordinator]
      exact Coordinator.after_current h.current op
    · rw [hcoordinator]
      exact Coordinator.after_atRest hattended h.rest
    · rw [hcoordinator]
      exact summary_after hop h.summary

theorem settled_run (o : Options) (es : List (Event C)) : Settled ((new o : Debugger C).run es) := by
  have hnew : Settled (new o : Debugger C) :=
    ⟨rfl, rfl, ⟨fun _ => rfl, fun _ => rfl, fun _ => rfl, fun _ => rfl⟩, rfl⟩
  unfold run
  generalize new o = d at hnew
  induction es generalizing d with
  | nil => exact hnew
  | cons e es ih => exact ih _ (settled_after hnew e)

/-! ## The activity flag -/

/-- In every state that a debugger can reach, the flag says exactly whether a client is there and
something might stop a thread; and reports answer as if the full decision were always made. -/
theorem active_exact (o : Options) (es : List (Event C)) :
    let c := ((new o : Debugger C).run es).coordinator
    (c.active = true ↔ c.attached = true ∧
      ((∃ b ∈ c.breakpoints.all, b.verified = true) ∨ c.functions.entries ≠ [] ∨
        c.breakOnUncaught = true ∨ (∃ t s, c.steps.get? t = some s) ∨
        (∃ t u, c.pauses.get? t = some u) ∨ ∃ t e, c.pending.get? t = some e)) ∧
    (∀ ctx file line, c.atLine ctx file line = c.checkLine ctx file line) ∧
    ∀ ctx function component file line,
      c.atEntry ctx function component file line =
        c.checkEntry ctx function component file line := by
  intro c
  have h := settled_run o es
  refine ⟨?_, ?_, ?_⟩
  · rw [show c.active = c.canStop from h.current]
    exact Coordinator.canStop_iff h.summary
  · exact Coordinator.atLine_eq_checkLine h.current h.rest
  · exact Coordinator.atEntry_eq_checkEntry h.current h.rest

end DebugAdapter.Debugger
