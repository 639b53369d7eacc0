import DebugAdapter.Proofs.Suspension.Stops

/-!
# Steps along a history

`after_fate` lists what an operation can do to the step of a thread and to its place in the table.
From it follow that a waiting thread has no step in progress (`run_waits`), that a step stays with
its thread through whatever else happens until the thread stops (`Stepping.after`), and that nothing
but a request for a step brings one (`run_unstepped`).
-/

namespace DebugAdapter

/-- At such a depth a thread goes on with the step. -/
def Step.Outside (s : Step) (depth : Nat) : Prop :=
  match s.mode with
  | .into => False
  | .over => s.startDepth < depth
  | .out => s.startDepth ≤ depth

theorem Step.accepts_eq_false_iff {s : Step} {depth : Nat} :
    s.accepts depth = false ↔ s.Outside depth := by
  obtain ⟨mode, startDepth⟩ := s
  cases mode <;> simp [Step.accepts, Step.Outside]

namespace Coordinator

variable {C : Type} [Context C]

/-- What becomes of the step and the place of thread `u` with an operation. -/
inductive Fate (c d : Coordinator C) (u : ThreadId) : Operation C → Prop where
  | kept {op : Operation C} (hstep : d.steps.get? u = c.steps.get? u)
    (hplace : d.suspended.get? u = c.suspended.get? u) : Fate c d u op
  | cleared {op : Operation C} (hop : op = .detach ∨ op = .resumeAll)
    (hstep : d.steps.get? u = none) (hplace : d.suspended.get? u = none) : Fate c d u op
  | exited (hstep : d.steps.get? u = none)
    (hplace : d.suspended.get? u = c.suspended.get? u) : Fate c d u (.exited u)
  | resumed (hstep : d.steps.get? u = c.steps.get? u) (hplace : d.suspended.get? u = none) :
    Fate c d u (.resume u)
  | stepped {mode : StepMode} {s : Suspension C} (hwaited : c.suspended.get? u = some s)
    (hstep : d.steps.get? u = some ⟨mode, Context.callDepth s.context⟩)
    (hplace : d.suspended.get? u = none) : Fate c d u (.step u mode)
  | parked {ctx : C} {r : Report} {s : Suspension C} (hthread : Context.thread ctx = u)
    (hwaits : (c.hear ctx r).1 = true) (hstep : d.steps.get? u = none)
    (hplace : d.suspended.get? u = some s) : Fate c d u (.report ctx r)
  | turnedAway {ctx : C} {r : Report} (hthread : Context.thread ctx = u)
    (hdetached : c.attached = false) (hstep : d.steps.get? u = none)
    (hplace : d.suspended.get? u = c.suspended.get? u) : Fate c d u (.report ctx r)

omit [Context C] in
theorem notify_steps (c : Coordinator C) (n : Notification) : (c.notify n).steps = c.steps := by
  unfold notify
  split <;> rfl

theorem step_of_suspend (c : Coordinator C) (ctx : C) (file : String) (line : Nat) (stop : Stop) :
    (c.suspend ctx file line stop).2.steps.get? (Context.thread ctx) = none := by
  cases hattached : c.attached with
  | true =>
    rw [suspend_of_attached hattached, notify_steps]
    simp [parked, satisfy, refresh, Table.get?_erase]
  | false =>
    rw [suspend_of_detached hattached]
    simp [satisfy, refresh, Table.get?_erase]

theorem suspend_fate (c : Coordinator C) (ctx : C) (file : String) (line : Nat) (stop : Stop)
    {u : ThreadId} (hu : u ≠ Context.thread ctx) :
    (c.suspend ctx file line stop).2.steps.get? u = c.steps.get? u ∧
      (c.suspend ctx file line stop).2.suspended.get? u = c.suspended.get? u := by
  cases hattached : c.attached with
  | true =>
    rw [suspend_of_attached hattached, notify_steps, notify_suspended]
    simp [parked, satisfy, refresh, Table.get?_erase, Table.get?_insert, hu]
  | false =>
    rw [suspend_of_detached hattached]
    simp [satisfy, refresh, Table.get?_erase, hu]

theorem hear_fate (c : Coordinator C) (ctx : C) (r : Report) (u : ThreadId) :
    Fate c (c.hear ctx r).2 u (.report ctx r) := by
  rcases hear_cases c ctx r with hhear | ⟨stop, d, hdecided, hhear⟩
  · rw [hhear]
    exact .kept rfl rfl
  · -- A decision touches neither steps nor places.
    have hsteps : d.steps = c.steps := by cases hdecided <;> rfl
    have htable : d.suspended = c.suspended := by cases hdecided <;> rfl
    have hclient : d.attached = c.attached := by cases hdecided <;> rfl
    by_cases hu : u = Context.thread ctx
    · subst hu
      have hstep := step_of_suspend d ctx r.file r.lineNumber stop
      rw [← hhear] at hstep
      cases hattached : d.attached with
      | true =>
        have hplace : (c.hear ctx r).2.suspended.get? (Context.thread ctx) =
            some ⟨ctx, r.file, r.lineNumber, stop, d.gates⟩ := by
          rw [hhear]
          exact suspended_suspend hattached
        exact .parked rfl (by rw [hhear, suspend_of_attached hattached]) hstep hplace
      | false =>
        refine .turnedAway rfl (hclient.symm.trans hattached) hstep ?_
        rw [hhear, suspend_of_detached hattached]
        exact congrArg (Table.get? · _) htable
    · obtain ⟨hstep, hplace⟩ := suspend_fate d ctx r.file r.lineNumber stop hu
      rw [hhear]
      rw [hsteps] at hstep
      rw [htable] at hplace
      exact .kept hstep hplace

omit [Context C] in
theorem resume_fate (c : Coordinator C) (t u : ThreadId) :
    (c.resume t).2.steps = c.steps ∧
      (c.resume t).2.suspended.get? u = if u = t then none else c.suspended.get? u := by
  cases hs : c.suspended.get? t with
  | none =>
    rw [resume_of_absent hs]
    refine ⟨rfl, ?_⟩
    split
    · rename_i hu
      rw [hu, hs]
    · rfl
  | some s =>
    rw [resume_of_waiting hs]
    exact ⟨rfl, Table.get?_erase _ _ _⟩

theorem step_fate {c : Coordinator C} {t : ThreadId} {x : Suspension C} (mode : StepMode)
    (hx : c.suspended.get? t = some x) (u : ThreadId) :
    (c.step t mode).2.steps.get? u =
        (if u = t then some ⟨mode, Context.callDepth x.context⟩ else c.steps.get? u) ∧
      (c.step t mode).2.suspended.get? u = if u = t then none else c.suspended.get? u := by
  let d := refresh { c with steps := c.steps.insert t ⟨mode, Context.callDepth x.context⟩ }
  have hrelease : c.step t mode = d.resume t := by simp only [step, hx, d]
  obtain ⟨hsteps, hplace⟩ := resume_fate d t u
  rw [hrelease, hsteps]
  exact ⟨Table.get?_insert _ _ _ _, hplace⟩

theorem after_fate (c : Coordinator C) (op : Operation C) (u : ThreadId) :
    Fate c (c.after op) u op := by
  cases op with
  | attach | setBreakOnUncaught | setBreakpoints | setFunctions | requestPause =>
    exact .kept rfl rfl
  | report ctx r => exact hear_fate c ctx r u
  | detach =>
    refine .cleared (Or.inl rfl) ?_ ?_ <;>
    · rw [after, detach, resumeAll_eq]
      rfl
  | resumeAll =>
    refine .cleared (Or.inr rfl) ?_ ?_ <;>
    · rw [after, resumeAll_eq]
      rfl
  | resume t =>
    obtain ⟨hsteps, hplace⟩ := resume_fate c t u
    by_cases hu : u = t
    · subst hu
      exact .resumed (congrArg (Table.get? · u) hsteps) (hplace.trans (if_pos rfl))
    · exact .kept (congrArg (Table.get? · u) hsteps) (hplace.trans (if_neg hu))
  | step t mode =>
    cases hs : c.suspended.get? t with
    | none =>
      have hnothing : c.after (.step t mode) = c := by simp only [after, step, hs]
      rw [hnothing]
      exact .kept rfl rfl
    | some s =>
      obtain ⟨hstep, hplace⟩ := step_fate mode hs u
      by_cases hu : u = t
      · subst hu
        exact .stepped hs (hstep.trans (if_pos rfl)) (hplace.trans (if_pos rfl))
      · exact .kept (hstep.trans (if_neg hu)) (hplace.trans (if_neg hu))
  | announce t e caught =>
    simp only [after, announce]
    split <;> exact .kept rfl rfl
  | exited t =>
    simp only [after, Coordinator.exited]
    split
    · by_cases hu : u = t
      · subst hu
        exact .exited (by simp [refresh, Table.get?_erase]) rfl
      · exact .kept (by simp [refresh, Table.get?_erase, hu]) rfl
    · exact .kept rfl rfl
  | output text isError =>
    simp only [after, output]
    split
    · exact .kept (by rw [notify_steps]) (by rw [notify_suspended])
    · exact .kept rfl rfl

/-- Only the end of the session takes the client away. -/
theorem attached_after {c : Coordinator C} {op : Operation C} (h : c.attached = true)
    (hop : op ≠ .detach) : (c.after op).attached = true := by
  have hsetup : (c.after op).attached = (op.configure c.setup).attached :=
    congrArg Setup.attached (after_setup c op)
  rw [hsetup]
  cases op with
  | detach => exact absurd rfl hop
  | attach => rfl
  | _ => exact h

/-! ## Waiting threads -/

theorem attached_of_waits {c : Coordinator C} {ctx : C} {r : Report}
    (h : (c.hear ctx r).1 = true) : c.attached = true := by
  rcases hear_cases c ctx r with hhear | ⟨stop, d, hdecided, hhear⟩
  · rw [hhear] at h
    contradiction
  · have hclient : d.attached = c.attached := by cases hdecided <;> rfl
    rw [← hclient]
    cases hattached : d.attached with
    | true => rfl
    | false =>
      rw [hhear, suspend_of_detached hattached] at h
      contradiction

structure Waits (c : Coordinator C) (u : ThreadId) : Prop where
  attached : c.attached = true
  step : c.steps.get? u = none

theorem after_waits {c : Coordinator C} (h : ∀ u s, c.suspended.get? u = some s → c.Waits u)
    (op : Operation C) (u : ThreadId) (s : Suspension C)
    (hs : (c.after op).suspended.get? u = some s) : (c.after op).Waits u := by
  by_cases hdetach : op = .detach
  · subst hdetach
    rw [after, detach, resumeAll_eq] at hs
    contradiction
  cases after_fate c op u with
  | kept hstep hplace =>
    have hwaits := h u s (hplace.symm.trans hs)
    exact ⟨attached_after hwaits.attached hdetach, hstep.trans hwaits.step⟩
  | exited hstep hplace =>
    exact ⟨attached_after (h u s (hplace.symm.trans hs)).attached hdetach, hstep⟩
  | parked _ hwaits hstep _ => exact ⟨attached_after (attached_of_waits hwaits) hdetach, hstep⟩
  | turnedAway _ _ hstep hplace =>
    exact ⟨attached_after (h u s (hplace.symm.trans hs)).attached hdetach, hstep⟩
  | cleared _ _ hplace | resumed _ hplace | stepped _ _ hplace =>
    rw [hplace] at hs
    contradiction

theorem run_waits (fold : Path.Folding) (ops : List (Operation C)) (u : ThreadId)
    (s : Suspension C) (hs : ((new fold : Coordinator C).run ops).suspended.get? u = some s) :
    ((new fold : Coordinator C).run ops).Waits u :=
  run_keeps (P := fun _ _ => True)
    (I := fun c : Coordinator C => ∀ u s, c.suspended.get? u = some s → c.Waits u)
    (fun _ op _ h => after_waits h op) (along_of_forall (fun _ _ => trivial) _ ops)
    (fun _ _ h => absurd h (by simp [new])) u s hs

theorem step_of_hear {c : Coordinator C} {ctx : C} {r : Report} (h : (c.hear ctx r).1 = true) :
    (c.hear ctx r).2.steps.get? (Context.thread ctx) = none := by
  rcases hear_cases c ctx r with hhear | ⟨stop, d, _, hhear⟩
  · rw [hhear] at h
    contradiction
  · rw [hhear]
    exact step_of_suspend d ctx r.file r.lineNumber stop

/-! ## A step in progress -/

/-- Thread `t` is running, with a step in progress, and a client is there. -/
structure Stepping (c : Coordinator C) (t : ThreadId) (s : Step) : Prop where
  attached : c.attached = true
  current : Current c
  step : c.steps.get? t = some s
  running : c.suspended.get? t = none

/-- The evaluator breaks down at a condition that the report asks for. -/
def BreaksAt (c : Coordinator C) (ctx : C) : Report → Prop
  | .line file line => Breaks ctx (c.breakpoints.check file line)
  | .entry function component _ _ => Breaks ctx (c.functions.check function component)
  | .halt _ _ _ => False

/-- An operation does not put an end to a step of thread `t`: the session goes on, the thread does
not exit and is not released with all others, no evaluator breaks down on it, and it does not stop
but for the step. -/
def Undisturbed (t : ThreadId) (c : Coordinator C) : Operation C → Prop
  | .detach | .resumeAll => False
  | .exited u => u ≠ t
  | .report ctx r => Context.thread ctx = t →
    (∀ reason, c.StopsFor ctx r reason → reason = .step) ∧ ¬c.BreaksAt ctx r
  | _ => True

section
variable {c : Coordinator C} {ctx : C} {s : Step} {file : String} {line : Nat}

/-- Where nothing else stops a stepping thread, what is due before a line is its step. -/
theorem Stepping.due_iff (h : c.Stepping (Context.thread ctx) s)
    (hop : Undisturbed (Context.thread ctx) c (.report ctx (.line file line))) {stop : Stop} :
    Due c ctx file line stop ↔ stop = { reason := .step } ∧ s.accepts (Context.callDepth ctx) := by
  obtain ⟨honly, hbreaks⟩ := hop rfl
  have hdue : ∀ stop, Due c ctx file line stop → stop.reason = .step := fun stop hstop =>
    honly _ ((stopsFor_line_iff h.current h.attached).mpr ⟨stop, hstop, rfl⟩)
  constructor
  · intro hstop
    cases hstop with
    | exception hpending => exact absurd (hdue _ (.exception hpending)) (by simp)
    | breakpoint hpending hfires => exact absurd (hdue _ (.breakpoint hpending hfires)) (by simp)
    | pause hpending hpasses hpause =>
      exact absurd (hdue _ (.pause hpending hpasses hpause)) (by simp)
    | step _ _ _ _ hstep haccepts =>
      rw [h.step, Option.some.injEq] at hstep
      exact ⟨rfl, hstep ▸ haccepts⟩
  · rintro ⟨rfl, haccepts⟩
    have hpending : c.pending.get? (Context.thread ctx) = none := by
      rw [Option.eq_none_iff_forall_ne_some]
      intro e he
      exact absurd (hdue _ (.exception he)) (by simp)
    have hpasses : Passes ctx (c.breakpoints.check file line) :=
      ⟨fun id hfires => absurd (hdue _ (.breakpoint hpending hfires)) (by simp), hbreaks⟩
    have hpauses : ¬(c.pauses.contains (Context.thread ctx) = true ∨
        c.pauses.contains anyThread = true) := fun hpause =>
      absurd (hdue _ (.pause hpending hpasses hpause)) (by simp)
    rw [not_or, Bool.not_eq_true, Bool.not_eq_true] at hpauses
    exact .step hpending hpasses hpauses.1 hpauses.2 h.step haccepts

theorem Stepping.passes (h : c.Stepping (Context.thread ctx) s)
    (hop : Undisturbed (Context.thread ctx) c (.report ctx (.line file line)))
    (houtside : s.Outside (Context.callDepth ctx)) :
    c.hear ctx (.line file line) = (false, c) := by
  rw [hear_line h.current h.attached]
  apply checkLine_of_not_due
  intro stop hdue
  have haccepts := ((h.due_iff hop).mp hdue).2
  rw [Step.accepts_eq_false_iff.mpr houtside] at haccepts
  contradiction

theorem Stepping.stops (h : c.Stepping (Context.thread ctx) s)
    (hop : Undisturbed (Context.thread ctx) c (.report ctx (.line file line)))
    (hinside : ¬s.Outside (Context.callDepth ctx)) :
    c.StopsFor ctx (.line file line) .step := by
  rw [← Step.accepts_eq_false_iff, Bool.not_eq_false] at hinside
  exact (stopsFor_line_iff h.current h.attached).mpr ⟨_, (h.due_iff hop).mpr ⟨rfl, hinside⟩, rfl⟩

end

theorem line_of_stopsFor_step {c : Coordinator C} {ctx : C} {r : Report}
    (h : c.StopsFor ctx r .step) : ∃ file line, r = .line file line := by
  obtain ⟨hwaits, s, hs, hreason⟩ := h
  have hattached := attached_of_waits hwaits
  cases r with
  | line file line => exact ⟨file, line, rfl⟩
  | entry function component file line =>
    by_cases hactive : c.active = true
    · have hfull : c.hear ctx (.entry function component file line) =
          c.checkEntry ctx function component file line := if_pos hactive
      rw [hfull] at hwaits hs
      unfold checkEntry at hwaits hs
      split at hs
      · rw [suspended_suspend hattached, Option.some.injEq] at hs
        rw [← hs] at hreason
        contradiction
      · rename_i hnone
        split at hwaits
        · exact absurd ‹_› (hnone _)
        · contradiction
    · have hgoes : c.hear ctx (.entry function component file line) = (false, c) := if_neg hactive
      rw [hgoes] at hwaits
      contradiction
  | halt file line label =>
    have hfull : c.hear ctx (.halt file line label) =
        c.suspend ctx file line { reason := .breakpoint, label := label } := if_pos hattached
    rw [hfull, suspended_suspend hattached, Option.some.injEq] at hs
    rw [← hs] at hreason
    contradiction

/-- An operation that lets the step be, and is not a report of the thread before a line inside it,
leaves the thread stepping. -/
theorem Stepping.after {c : Coordinator C} {t : ThreadId} {s : Step} (h : c.Stepping t s)
    {op : Operation C} (hop : Undisturbed t c op)
    (houtside : ∀ ctx file line, op = .report ctx (.line file line) → Context.thread ctx = t →
      s.Outside (Context.callDepth ctx)) : (c.after op).Stepping t s := by
  have hattached : (c.after op).attached = true := by
    apply attached_after h.attached
    rintro rfl
    exact hop
  have hcurrent := after_current h.current op
  cases after_fate c op t with
  | kept hstep hplace => exact ⟨hattached, hcurrent, hstep.trans h.step, hplace.trans h.running⟩
  | cleared hop' => rcases hop' with rfl | rfl <;> exact hop.elim
  | exited => exact absurd rfl hop
  | resumed hstep hplace => exact ⟨hattached, hcurrent, hstep.trans h.step, hplace⟩
  | stepped hwaited =>
    rw [h.running] at hwaited
    contradiction
  | @parked ctx r x hthread hwaits _ hplace =>
    subst hthread
    -- The thread stopped, so for its step, so before a line; but that line is outside the step.
    have hreason := (hop rfl).1 _ ⟨hwaits, x, hplace, rfl⟩
    obtain ⟨file, line, rfl⟩ := line_of_stopsFor_step ⟨hwaits, x, hplace, hreason⟩
    rw [h.passes hop (houtside ctx file line rfl rfl)] at hwaits
    contradiction
  | turnedAway _ hdetached =>
    rw [h.attached] at hdetached
    contradiction

/-- The thread's reports before lines are all outside the step. -/
def AllOutside (t : ThreadId) (s : Step) (ops : List (Operation C)) : Prop :=
  ∀ ctx file line, .report ctx (.line file line) ∈ ops → Context.thread ctx = t →
    s.Outside (Context.callDepth ctx)

theorem Stepping.run {c : Coordinator C} {t : ThreadId} {s : Step} (h : c.Stepping t s)
    {ops : List (Operation C)} (hops : Along (Undisturbed t) c ops)
    (houtside : AllOutside t s ops) : (c.run ops).Stepping t s := by
  induction ops generalizing c with
  | nil => exact h
  | cons op ops ih =>
    have hfirst := h.after hops.1 fun ctx file line hop =>
      houtside ctx file line (hop ▸ List.mem_cons_self)
    exact ih hfirst hops.2 fun ctx file line hmem =>
      houtside ctx file line (List.mem_cons_of_mem _ hmem)

theorem step_of_waiting {c : Coordinator C} {t : ThreadId} {x : Suspension C} (mode : StepMode)
    (hcurrent : Current c) (hattached : c.attached = true) (hx : c.suspended.get? t = some x) :
    (c.step t mode).2.Stepping t ⟨mode, Context.callDepth x.context⟩ := by
  obtain ⟨hstep, hplace⟩ := step_fate mode hx t
  have hclient : (c.after (.step t mode)).attached = true := attached_after hattached (by simp)
  exact {
    attached := hclient
    current := after_current hcurrent (.step t mode)
    step := hstep.trans (if_pos rfl)
    running := hplace.trans (if_pos rfl) }

theorem Current.run {c : Coordinator C} (h : Current c) (ops : List (Operation C)) :
    Current (c.run ops) :=
  run_keeps (I := Current) (P := fun _ _ => True) (fun _ op _ h => after_current h op)
    (along_of_forall (fun _ _ => trivial) _ _) h

/-! ## Without a step -/

theorem run_unstepped {c : Coordinator C} {t : ThreadId} (h : c.steps.get? t = none)
    {ops : List (Operation C)} (hops : ∀ mode, .step t mode ∉ ops) :
    (c.run ops).steps.get? t = none := by
  induction ops generalizing c with
  | nil => exact h
  | cons op ops ih =>
    have hfirst : (c.after op).steps.get? t = none := by
      cases after_fate c op t with
      | kept hstep => exact hstep.trans h
      | resumed hstep => exact hstep.trans h
      | stepped => exact absurd List.mem_cons_self (hops _)
      | cleared _ hstep | exited hstep | parked _ _ hstep | turnedAway _ _ hstep => exact hstep
    exact ih hfirst fun mode hmem => hops mode (List.mem_cons_of_mem _ hmem)

theorem not_stopsFor_step {c : Coordinator C} {ctx : C} {r : Report} (hcurrent : Current c)
    (h : c.steps.get? (Context.thread ctx) = none) : ¬c.StopsFor ctx r .step := by
  intro hstops
  obtain ⟨file, line, rfl⟩ := line_of_stopsFor_step hstops
  obtain ⟨stop, hdue, hreason⟩ :=
    (stopsFor_line_iff hcurrent (attached_of_waits hstops.1)).mp hstops
  cases hdue with
  | step _ _ _ _ hstep =>
    rw [h] at hstep
    contradiction
  | exception | breakpoint | pause => contradiction

/-! ## The course of a step -/

/-- In every state of a new coordinator no waiting thread has a step in progress, and a report that
makes a thread wait ends the thread's step. A thread released for a step keeps it, runs and passes
each line as long as its reports before lines are outside the step and nothing else puts an end to
it, whatever happens to other threads. At the first line that is not outside it stops for the step;
the step is gone then, and the thread does not stop for one again until another is asked for. -/
theorem step_stops_at_first_inside (fold : Path.Folding) (before : List (Operation C)) :
    let c := (new fold : Coordinator C).run before
    (∀ u, c.isSuspended u = true → c.steps.get? u = none) ∧
    (∀ ctx r, (c.hear ctx r).1 = true →
      (c.hear ctx r).2.steps.get? (Context.thread ctx) = none) ∧
    ∀ t mode, (c.step t mode).1 = true → ∃ x, c.suspended.get? t = some x ∧
      let s : Step := ⟨mode, Context.callDepth x.context⟩
      ∀ during, Along (Undisturbed t) (c.step t mode).2 during → AllOutside t s during →
        let d := (c.step t mode).2.run during
        d.steps.get? t = some s ∧ d.isSuspended t = false ∧
        ∀ ctx file line, Context.thread ctx = t →
          Undisturbed t d (.report ctx (.line file line)) →
          (s.Outside (Context.callDepth ctx) → d.atLine ctx file line = (false, d)) ∧
          (¬s.Outside (Context.callDepth ctx) →
            d.StopsFor ctx (.line file line) .step ∧
            ∀ later, (∀ mode, .step t mode ∉ later) →
              let e := (d.atLine ctx file line).2.run later
              e.steps.get? t = none ∧
              ∀ ctx r, Context.thread ctx = t → ¬e.StopsFor ctx r .step) := by
  intro c
  refine ⟨?_, fun ctx r => step_of_hear, ?_⟩
  · intro u hu
    obtain ⟨x, hx⟩ := Option.isSome_iff_exists.mp hu
    exact (run_waits fold before u x hx).step
  · intro t mode hsuccess
    cases hx : c.suspended.get? t with
    | none =>
      simp only [step, hx] at hsuccess
      contradiction
    | some x =>
      refine ⟨x, rfl, ?_⟩
      intro s during hduring houtside d
      have hstart := step_of_waiting mode (run_current fold before)
        (run_waits fold before t x hx).attached hx
      have hd : d.Stepping t s := hstart.run hduring houtside
      refine ⟨hd.step, by simp [isSuspended, Table.contains, hd.running], ?_⟩
      rintro ctx file line rfl hop
      refine ⟨hd.passes hop, ?_⟩
      intro hinside
      have hstops := hd.stops hop hinside
      refine ⟨hstops, ?_⟩
      intro later hlater e
      have hcurrent : Current e := (after_current hd.current (.report ctx (.line file line))).run later
      have he : e.steps.get? (Context.thread ctx) = none :=
        run_unstepped (step_of_hear hstops.1) hlater
      refine ⟨he, ?_⟩
      intro ctx' r hthread
      exact not_stopsFor_step hcurrent (hthread ▸ he)

def atDepth (id : ThreadId) (depth : Nat) : DescribedThread :=
  ⟨id, "thread", List.replicate depth ⟨"f", "a", 1, []⟩, []⟩

/-- A thread waits at depth one. -/
def waiting : List (Operation DescribedThread) :=
  [.attach false, .report (atDepth 10 1) (.halt "a" 1 none)]

/-- While it steps over a call, another thread stops and goes on. -/
def overCall : List (Operation DescribedThread) :=
  [.report (atDepth 10 2) (.line "a" 7), .report (atDepth 11 1) (.halt "b" 1 none),
    .report (atDepth 10 2) (.line "a" 8), .resume 11]

theorem step_stops_at_first_inside_overCall :
    let c := (new .exact : Coordinator DescribedThread).run waiting
    let d := (c.step 10 .over).2.run overCall
    (c.step 10 .over).1 = true ∧ Along (Undisturbed 10) (c.step 10 .over).2 overCall ∧
      AllOutside 10 ⟨.over, 1⟩ overCall ∧ d.steps.get? 10 = some ⟨.over, 1⟩ ∧
      d.StopsFor (atDepth 10 1) (.line "a" 2) .step ∧
      ((d.atLine (atDepth 10 1) "a" 2).2.run [.resume 10]).steps.get? 10 = none := by
  intro c d
  have hpasses : Along (Undisturbed 10) (c.step 10 .over).2 overCall := by
    refine ⟨fun _ => ⟨?_, ?_⟩, fun hthread => absurd hthread (by decide), fun _ => ⟨?_, ?_⟩,
      trivial, trivial⟩
    · intro reason hstops
      exact absurd hstops.1 (by decide)
    · rintro ⟨hit, text, hfound, -⟩
      contradiction
    · intro reason hstops
      exact absurd hstops.1 (by decide)
    · rintro ⟨hit, text, hfound, -⟩
      contradiction
  have houtside : AllOutside 10 ⟨.over, 1⟩ overCall := by
    intro ctx file line hmem _
    simp only [overCall, List.mem_cons, Operation.report.injEq, Report.line.injEq, reduceCtorEq,
      and_false, false_or, List.not_mem_nil, or_false] at hmem
    rcases hmem with ⟨rfl, -⟩ | ⟨rfl, -⟩ <;>
    · show 1 < 2
      decide
  obtain ⟨_, _, hstep⟩ := step_stops_at_first_inside .exact waiting
  obtain ⟨x, hx, hrun⟩ := hstep 10 .over rfl
  cases hx
  obtain ⟨hkept, _, hline⟩ := hrun overCall hpasses houtside
  have hlast : Undisturbed 10 d (.report (atDepth 10 1) (.line "a" 2)) := by
    refine fun _ => ⟨?_, ?_⟩
    · rintro reason ⟨_, y, hy, rfl⟩
      have hreason : ((d.hear (atDepth 10 1) (.line "a" 2)).2.suspended.get?
          (Context.thread (atDepth 10 1))).map (·.stop.reason) = some .step := by decide
      rw [hy] at hreason
      exact Option.some.inj hreason
    · rintro ⟨hit, text, hfound, -⟩
      contradiction
  obtain ⟨hstops, hlater⟩ := (hline (atDepth 10 1) "a" 2 rfl hlast).2 (show ¬1 < 1 by decide)
  exact ⟨rfl, hpasses, houtside, hkept, hstops, (hlater [.resume 10] (by simp)).1⟩

end Coordinator

end DebugAdapter
