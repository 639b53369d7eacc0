import DebugAdapter.Suspension.Coordinator

/-!
# Histories of a coordinator

What happens to a coordinator, as data: what the client asks for and what the threads of the debuggee
report, one operation after the other and in any order. What the outside takes over from the
coordinator (its outbox and the released threads) is NOT an operation, so both are complete records.

An operation either leaves the table of waiting threads alone, or puts one thread into it, or takes
one or all of them out; `hear_cases` says what a report can do.
-/

namespace DebugAdapter

/-- Where a thread reports from. -/
inductive Report where
  /-- It is about to execute the line. -/
  | line (file : String) (line : Nat)
  | entry (function : String) (component : Option String) (file : String) (line : Nat)
  /-- The program itself asks for a stop. -/
  | halt (file : String) (line : Nat) (label : Option String)

namespace Report

def file : Report → String
  | line file _ => file
  | entry _ _ file _ => file
  | halt file _ _ => file

def lineNumber : Report → Nat
  | line _ n => n
  | entry _ _ _ n => n
  | halt _ n _ => n

end Report

inductive Operation (C : Type) where
  | attach (consoleOutput : Bool)
  | detach
  | setBreakOnUncaught (enabled : Bool)
  | setBreakpoints (b : LineBreakpoints)
  | setFunctions (b : FunctionBreakpoints)
  | report (ctx : C) (r : Report)
  | announce (t : ThreadId) (e : Exception) (caught : Bool)
  | exited (t : ThreadId)
  | output (text : String) (isError : Bool)
  | step (t : ThreadId) (mode : StepMode)
  | resume (t : ThreadId)
  | resumeAll
  | requestPause (t : ThreadId)

/-- What only requests of the client change. -/
structure Setup where
  breakpoints : LineBreakpoints
  functions : FunctionBreakpoints
  attached : Bool
  breakOnUncaught : Bool
  consoleOutput : Bool
  attaches : Nat
  receiver : Option Nat

def Coordinator.setup {C : Type} (c : Coordinator C) : Setup where
  breakpoints := c.breakpoints
  functions := c.functions
  attached := c.attached
  breakOnUncaught := c.breakOnUncaught
  consoleOutput := c.consoleOutput
  attaches := c.attaches
  receiver := c.receiver

def Operation.configure {C : Type} : Operation C → Setup → Setup
  | .attach consoleOutput, s =>
    { s with
      attached := true
      consoleOutput
      attaches := s.attaches + 1
      receiver := some (s.attaches + 1) }
  | .detach, s =>
    { s with attached := false, breakOnUncaught := false, consoleOutput := false, receiver := none }
  | .setBreakOnUncaught enabled, s => { s with breakOnUncaught := enabled }
  | .setBreakpoints b, s => { s with breakpoints := b }
  | .setFunctions b, s => { s with functions := b }
  | _, s => s

namespace Coordinator

variable {C : Type} [Context C]

/-- The answer to a report: whether the thread has to wait. -/
def hear (c : Coordinator C) (ctx : C) : Report → Bool × Coordinator C
  | .line file line => c.atLine ctx file line
  | .entry function component file line => c.atEntry ctx function component file line
  | .halt file line label => c.atBreak ctx file line label

def after (c : Coordinator C) : Operation C → Coordinator C
  | .attach consoleOutput => c.attach consoleOutput
  | .detach => c.detach
  | .setBreakOnUncaught enabled => c.setBreakOnUncaught enabled
  | .setBreakpoints b => c.setBreakpoints b
  | .setFunctions b => c.setFunctions b
  | .report ctx r => (c.hear ctx r).2
  | .announce t e caught => (c.announce t e caught).2
  | .exited t => c.exited t
  | .output text isError => c.output text isError
  | .step t mode => (c.step t mode).2
  | .resume t => (c.resume t).2
  | .resumeAll => c.resumeAll.2
  | .requestPause t => c.requestPause t

/-- The coordinator at the end of a history. -/
def run (c : Coordinator C) (ops : List (Operation C)) : Coordinator C := ops.foldl after c

/-- Each operation of a history satisfies `P` where it happens. -/
def Along (P : Coordinator C → Operation C → Prop) : Coordinator C → List (Operation C) → Prop
  | _, [] => True
  | c, op :: ops => P c op ∧ Along P (c.after op) ops

/-- What each operation keeps, a history keeps. -/
theorem run_keeps {P : Coordinator C → Operation C → Prop} {I : Coordinator C → Prop}
    (step : ∀ c op, P c op → I c → I (c.after op)) {c : Coordinator C}
    {ops : List (Operation C)} (hops : Along P c ops) (hc : I c) : I (c.run ops) := by
  induction ops generalizing c with
  | nil => exact hc
  | cons op ops ih => exact ih hops.2 (step c op hops.1 hc)

theorem along_of_forall {P : Coordinator C → Operation C → Prop} (h : ∀ c op, P c op)
    (c : Coordinator C) (ops : List (Operation C)) : Along P c ops := by
  induction ops generalizing c with
  | nil => trivial
  | cons op ops ih => exact ⟨h c op, ih _⟩

/-! ## What a report can do -/

/-- A decision uses up at most a pause or an announced exception. -/
inductive Decided (c : Coordinator C) : Coordinator C → Prop where
  | nothing : Decided c c
  | pause (target : ThreadId) : Decided c { c with pauses := c.pauses.erase target }.refresh
  | exception (t : ThreadId) : Decided c { c with pending := c.pending.erase t }.refresh

omit [Context C] in
theorem consumePause?_decided {c d : Coordinator C} {t : ThreadId}
    (h : c.consumePause? t = some d) : Decided c d := by
  unfold consumePause? at h
  split at h
  · cases h
    exact .pause t
  · split at h
    · cases h
      exact .pause anyThread
    · contradiction

theorem decide?_decided {c d : Coordinator C} {ctx : C} {file : String} {line : Nat} {stop : Stop}
    (h : c.decide? ctx file line = some (stop, d)) : Decided c d := by
  simp only [decide?] at h
  split at h
  · cases h
    exact .exception _
  · split at h
    · contradiction
    · cases h
      exact .nothing
    · split at h
      · rename_i hpause
        cases h
        exact consumePause?_decided hpause
      · split at h
        · split at h
          · cases h
            exact .nothing
          · contradiction
        · contradiction

theorem checkLine_cases (c : Coordinator C) (ctx : C) (file : String) (line : Nat) :
    c.checkLine ctx file line = (false, c) ∨ ∃ stop d, Decided c d ∧
      c.checkLine ctx file line = d.suspend ctx file line stop := by
  cases hdecide : c.decide? ctx file line with
  | none =>
    left
    simp only [checkLine, hdecide]
  | some d =>
    obtain ⟨stop, d⟩ := d
    right
    refine ⟨stop, d, decide?_decided hdecide, ?_⟩
    simp only [checkLine, hdecide]

theorem checkEntry_cases (c : Coordinator C) (ctx : C) (function : String)
    (component : Option String) (file : String) (line : Nat) :
    c.checkEntry ctx function component file line = (false, c) ∨ ∃ stop,
      c.checkEntry ctx function component file line = c.suspend ctx file line stop := by
  unfold checkEntry
  split
  · exact Or.inr ⟨_, rfl⟩
  · exact Or.inl rfl

/-- A report changes nothing, or it makes the thread wait after a decision. -/
theorem hear_cases (c : Coordinator C) (ctx : C) (r : Report) :
    c.hear ctx r = (false, c) ∨ ∃ stop d, Decided c d ∧
      c.hear ctx r = d.suspend ctx r.file r.lineNumber stop := by
  cases r with
  | line file line =>
    by_cases hactive : c.active = true
    · have hfull : c.hear ctx (.line file line) = c.checkLine ctx file line := if_pos hactive
      rw [hfull]
      exact checkLine_cases c ctx file line
    · exact Or.inl (if_neg hactive)
  | entry function component file line =>
    by_cases hactive : c.active = true
    · have hfull : c.hear ctx (.entry function component file line) =
          c.checkEntry ctx function component file line := if_pos hactive
      rw [hfull]
      apply (checkEntry_cases c ctx function component file line).imp_right
      rintro ⟨stop, hstop⟩
      exact ⟨stop, c, .nothing, hstop⟩
    · exact Or.inl (if_neg hactive)
  | halt file line label =>
    by_cases hattached : c.attached = true
    · exact Or.inr ⟨_, c, .nothing, if_pos hattached⟩
    · exact Or.inl (if_neg hattached)

/-! ## Waiting and going on -/

section
variable {c : Coordinator C} {ctx : C} {file : String} {line : Nat} {stop : Stop}

/-- A thread with its step completed and its pause satisfied stands in the table, behind a new
gate. -/
def parked (c : Coordinator C) (ctx : C) (file : String) (line : Nat) (stop : Stop) :
    Coordinator C :=
  { c.satisfy (Context.thread ctx) with
    suspended := c.suspended.insert (Context.thread ctx) ⟨ctx, file, line, stop, c.gates⟩
    gates := c.gates + 1 }

theorem suspend_of_attached (h : c.attached = true) :
    c.suspend ctx file line stop =
      (true, (c.parked ctx file line stop).notify (stop.notification (Context.thread ctx))) := by
  have hpark : (c.satisfy (Context.thread ctx)).park? ctx file line stop =
      some (c.parked ctx file line stop) := if_pos h
  simp only [suspend, hpark]

theorem suspend_of_detached (h : c.attached = false) :
    c.suspend ctx file line stop = (false, c.satisfy (Context.thread ctx)) := by
  have hpark : (c.satisfy (Context.thread ctx)).park? ctx file line stop = none :=
    if_neg (Bool.eq_false_iff.mp h)
  simp only [suspend, hpark]

end

omit [Context C] in
theorem foldl_release (c : Coordinator C) (waiting : List (Suspension C)) :
    waiting.foldl release c = { c with released := c.released ++ waiting } := by
  induction waiting generalizing c with
  | nil => simp
  | cons s rest ih => simp [ih, release]

omit [Context C] in
theorem resumeAll_eq (c : Coordinator C) :
    c.resumeAll = (c.suspended.size, refresh { c with
      suspended := ∅
      released := c.released ++ c.suspended.values
      steps := ∅
      pauses := ∅
      pending := ∅ }) := by
  simp only [resumeAll, drain, foldl_release]
  exact congrArg (·, _) (List.length_map _)

omit [Context C] in
theorem resume_of_waiting {c : Coordinator C} {t : ThreadId} {s : Suspension C}
    (h : c.suspended.get? t = some s) :
    c.resume t = (true, release { c with suspended := c.suspended.erase t } s) := by
  simp [resume, take?, h]

omit [Context C] in
theorem resume_of_absent {c : Coordinator C} {t : ThreadId} (h : c.suspended.get? t = none) :
    c.resume t = (false, c) := by
  simp [resume, take?, h]

/-! ## The setup -/

omit [Context C] in
theorem notify_setup (c : Coordinator C) (n : Notification) : (c.notify n).setup = c.setup := by
  unfold notify
  split <;> rfl

theorem suspend_setup (c : Coordinator C) (ctx : C) (file : String) (line : Nat) (stop : Stop) :
    (c.suspend ctx file line stop).2.setup = c.setup := by
  cases hattached : c.attached with
  | true =>
    rw [suspend_of_attached hattached]
    exact notify_setup _ _
  | false =>
    rw [suspend_of_detached hattached]
    rfl

omit [Context C] in
theorem resume_setup (c : Coordinator C) (t : ThreadId) : (c.resume t).2.setup = c.setup := by
  cases hs : c.suspended.get? t with
  | none => rw [resume_of_absent hs]
  | some s =>
    rw [resume_of_waiting hs]
    rfl

/-- Reports, pauses and releases leave the setup alone. -/
theorem after_setup (c : Coordinator C) (op : Operation C) :
    (c.after op).setup = op.configure c.setup := by
  cases op with
  | attach | setBreakOnUncaught | setBreakpoints | setFunctions | requestPause => rfl
  | resume t => exact resume_setup c t
  | resumeAll =>
    simp only [after, resumeAll_eq]
    rfl
  | detach =>
    simp only [after, detach, resumeAll_eq]
    rfl
  | report ctx r =>
    rcases hear_cases c ctx r with hhear | ⟨stop, d, hdecided, hhear⟩
    · simp only [after, hhear]
      rfl
    · have hd : d.setup = c.setup := by cases hdecided <;> rfl
      simp only [after, hhear, suspend_setup, hd]
      rfl
  | announce t e caught =>
    simp only [after, announce]
    split <;> rfl
  | exited t =>
    simp only [after, exited]
    split <;> rfl
  | output text isError =>
    simp only [after, output]
    split
    · exact notify_setup _ _
    · rfl
  | step t mode =>
    simp only [after, step]
    split
    · exact resume_setup _ _
    · rfl

theorem run_setup (c : Coordinator C) (ops : List (Operation C)) :
    (c.run ops).setup = ops.foldl (fun s op => op.configure s) c.setup := by
  induction ops generalizing c with
  | nil => rfl
  | cons op ops ih =>
    rw [List.foldl_cons, ← after_setup c op]
    exact ih (c.after op)

end Coordinator

end DebugAdapter
