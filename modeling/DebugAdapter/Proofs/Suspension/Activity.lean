import DebugAdapter.Proofs.Suspension.History

/-!
# The activity flag

The flag of a coordinator is kept by hand: every operation that touches what it sums up has to bring
it up to date. `after_current` says that none forgets to. With it, and as long as nothing is in
progress while no client is there (`AtRest`), a report may trust the flag: `atLine_eq_checkLine` and
`atEntry_eq_checkEntry` compare the early return with the decision that is always made.
-/

namespace DebugAdapter.Coordinator

variable {C : Type}

def Current (c : Coordinator C) : Prop := c.active = c.canStop

theorem isEmpty_eq_false_iff_verified {r : LineBreakpoints} (h : r.summary = .of r.all) :
    r.isEmpty = false ↔ ∃ b ∈ r.all, b.verified = true := by
  rw [← Bool.not_eq_true]
  simp [LineBreakpoints.isEmpty, LineBreakpoints.boundCount, h, LineBreakpoints.Summary.of]

/-- What the flag stands for: a client, and something that might stop a thread. -/
theorem canStop_iff {c : Coordinator C} (h : c.breakpoints.summary = .of c.breakpoints.all) :
    c.canStop = true ↔ c.attached = true ∧
      ((∃ b ∈ c.breakpoints.all, b.verified = true) ∨ c.functions.entries ≠ [] ∨
        c.breakOnUncaught = true ∨ (∃ t s, c.steps.get? t = some s) ∨
        (∃ t u, c.pauses.get? t = some u) ∨ ∃ t e, c.pending.get? t = some e) := by
  have hfunctions : c.functions.isEmpty = false ↔ c.functions.entries ≠ [] :=
    List.isEmpty_eq_false_iff
  simp only [canStop, Bool.and_eq_true, Bool.or_eq_true, Bool.not_eq_true',
    isEmpty_eq_false_iff_verified h, hfunctions, Table.isEmpty_eq_false_iff, or_assoc]

theorem current_refresh (c : Coordinator C) : Current c.refresh := rfl

theorem Current.refresh_eq {c : Coordinator C} (h : Current c) : c.refresh = c := by
  unfold refresh
  rw [← h]

theorem Current.notify {c : Coordinator C} (h : Current c) (n : Notification) :
    Current (c.notify n) := by
  unfold Coordinator.notify
  split
  · exact h
  · exact h

theorem Current.resume {c : Coordinator C} (h : Current c) (t : ThreadId) :
    Current (c.resume t).2 := by
  cases hs : c.suspended.get? t with
  | none =>
    rw [resume_of_absent hs]
    exact h
  | some s =>
    rw [resume_of_waiting hs]
    exact h

theorem current_resumeAll (c : Coordinator C) : Current c.resumeAll.2 := by
  rw [resumeAll_eq]
  exact current_refresh _

variable [Context C]

theorem current_suspend (c : Coordinator C) (ctx : C) (file : String) (line : Nat) (stop : Stop) :
    Current (c.suspend ctx file line stop).2 := by
  cases hattached : c.attached with
  | true =>
    rw [suspend_of_attached hattached]
    have hparked : Current (c.parked ctx file line stop) := rfl
    exact hparked.notify _
  | false =>
    rw [suspend_of_detached hattached]
    exact current_refresh _

theorem after_current {c : Coordinator C} (h : Current c) (op : Operation C) :
    Current (c.after op) := by
  cases op with
  | attach | setBreakOnUncaught | setBreakpoints | setFunctions | requestPause =>
    exact current_refresh _
  | detach => exact current_resumeAll _
  | resumeAll => exact current_resumeAll c
  | resume t => exact h.resume t
  | report ctx r =>
    rcases hear_cases c ctx r with hhear | ⟨stop, d, _, hhear⟩
    · simpa only [after, hhear] using h
    · simp only [after, hhear]
      exact current_suspend _ _ _ _ _
  | announce t e caught =>
    simp only [after, announce]
    split
    · exact h
    · exact current_refresh _
  | exited t =>
    simp only [after, exited]
    split
    · exact current_refresh _
    · exact h
  | output text isError =>
    simp only [after, output]
    split
    · exact h.notify _
    · exact h
  | step t mode =>
    simp only [after, step]
    split
    · exact (current_refresh _).resume t
    · exact h

theorem run_current (fold : Path.Folding) (ops : List (Operation C)) :
    Current ((new fold : Coordinator C).run ops) :=
  run_keeps (I := Current) (P := fun _ _ => True) (fun _ op _ h => after_current h op)
    (along_of_forall (fun _ _ => trivial) _ _) rfl

/-! ## Without a client -/

/-- While no client is there, no thread waits and nothing is in progress. -/
structure AtRest (c : Coordinator C) : Prop where
  suspended : c.attached = false → c.suspended = ∅
  steps : c.attached = false → c.steps = ∅
  pauses : c.attached = false → c.pauses = ∅
  pending : c.attached = false → c.pending = ∅

/-- A pause is asked for by a client that is there. -/
def Attended (c : Coordinator C) : Operation C → Prop
  | .requestPause _ => c.attached = true
  | _ => True

omit [Context C] in
theorem AtRest.of_attached {c : Coordinator C} (h : c.attached = true) : AtRest c := by
  have hfalse : c.attached ≠ false := by simp [h]
  exact ⟨fun hf => absurd hf hfalse, fun hf => absurd hf hfalse, fun hf => absurd hf hfalse,
    fun hf => absurd hf hfalse⟩

omit [Context C] in
theorem atRest_resumeAll (c : Coordinator C) : AtRest c.resumeAll.2 := by
  rw [resumeAll_eq]
  exact ⟨fun _ => rfl, fun _ => rfl, fun _ => rfl, fun _ => rfl⟩

/-- Without a client, whatever does not bring one keeps the peace. -/
theorem AtRest.hear {c : Coordinator C} (h : AtRest c) (hdetached : c.attached = false) (ctx : C)
    (r : Report) : AtRest (c.hear ctx r).2 := by
  rcases hear_cases c ctx r with hhear | ⟨stop, d, hdecided, hhear⟩
  · rw [hhear]
    exact h
  · have hd : d.attached = false := by cases hdecided <;> exact hdetached
    have hempty : d.suspended = ∅ ∧ d.steps = ∅ ∧ d.pauses = ∅ ∧ d.pending = ∅ := by
      cases hdecided <;>
        simp [refresh, h.suspended hdetached, h.steps hdetached, h.pauses hdetached,
          h.pending hdetached]
    obtain ⟨hsuspended, hsteps, hpauses, hpending⟩ := hempty
    rw [hhear, suspend_of_detached hd]
    refine ⟨fun _ => hsuspended, fun _ => ?_, fun _ => ?_, fun _ => hpending⟩
    · simp [satisfy, refresh, hsteps]
    · simp [satisfy, refresh, hpauses]

theorem after_atRest {c : Coordinator C} {op : Operation C} (hop : c.Attended op)
    (h : AtRest c) : AtRest (c.after op) := by
  have hsetup := congrArg Setup.attached (after_setup c op)
  -- With a client only its leaving matters, and that drops everything.
  cases hattached : c.attached with
  | true =>
    cases op with
    | detach => exact atRest_resumeAll _
    | _ => exact .of_attached (hsetup.trans (by simp [Operation.configure, setup, hattached]))
  | false =>
    have hsuspended := h.suspended hattached
    have hunstopped : c.stopsOnUncaught = false := by simp [stopsOnUncaught, hattached]
    cases op with
    | attach consoleOutput => exact .of_attached rfl
    | detach => exact atRest_resumeAll _
    | resumeAll => exact atRest_resumeAll c
    | requestPause t => exact absurd hop (by simp [Attended, hattached])
    | setBreakOnUncaught enabled => exact ⟨h.suspended, h.steps, h.pauses, h.pending⟩
    | setBreakpoints b => exact ⟨h.suspended, h.steps, h.pauses, h.pending⟩
    | setFunctions b => exact ⟨h.suspended, h.steps, h.pauses, h.pending⟩
    | report ctx r => exact h.hear hattached ctx r
    | announce t e caught => simpa [after, announce, hunstopped] using h
    | output text isError => simpa [after, output, hattached] using h
    | step t mode => simpa [after, step, hsuspended] using h
    | resume t =>
      rw [after, resume_of_absent (by simp [hsuspended])]
      exact h
    | exited t =>
      have hidle : (c.steps.contains t || c.pauses.contains t || c.pending.contains t) = false := by
        simp [h.steps hattached, h.pauses hattached, h.pending hattached]
      rw [after, exited, hidle]
      exact h

/-! ## The early return -/

omit [Context C] in
theorem check_eq_none_of_isEmpty {r : LineBreakpoints} (h : r.isEmpty = true) (file : String)
    (line : Nat) : r.check file line = none := by
  have hbound : r.summary.bound = [] := by
    simpa [LineBreakpoints.isEmpty, LineBreakpoints.boundCount] using h
  simp [LineBreakpoints.check, hbound]

omit [Context C] in
theorem functions_check_eq_none_of_isEmpty {r : FunctionBreakpoints} (h : r.isEmpty = true)
    (function : String) (component : Option String) : r.check function component = none := by
  have hentries : r.entries.isEmpty = true := h
  simp [FunctionBreakpoints.check, hentries]

/-- A client is there and nothing can stop a thread. -/
structure Idle (c : Coordinator C) : Prop where
  breakpoints : c.breakpoints.isEmpty = true
  functions : c.functions.isEmpty = true
  steps : c.steps = ∅
  pauses : c.pauses = ∅
  pending : c.pending = ∅

omit [Context C] in
theorem idle_of_canStop_eq_false {c : Coordinator C} (hattached : c.attached = true)
    (h : c.canStop = false) : Idle c := by
  simp only [canStop, hattached, Bool.true_and, Bool.or_eq_false_iff, Bool.not_eq_false'] at h
  obtain ⟨⟨⟨⟨⟨hbreakpoints, hfunctions⟩, _⟩, hsteps⟩, hpauses⟩, hpending⟩ := h
  exact ⟨hbreakpoints, hfunctions, Table.eq_empty_of_isEmpty hsteps,
    Table.eq_empty_of_isEmpty hpauses, Table.eq_empty_of_isEmpty hpending⟩

theorem Idle.decide?_eq_none {c : Coordinator C} (h : Idle c) (ctx : C) (file : String)
    (line : Nat) : c.decide? ctx file line = none := by
  simp [decide?, consumePause?, fires?, check_eq_none_of_isEmpty h.breakpoints, h.steps, h.pauses,
    h.pending]

/-- Without a client a decision to stop comes to nothing. -/
theorem AtRest.suspend_eq {c : Coordinator C} (hrest : AtRest c) (hcurrent : Current c)
    (hdetached : c.attached = false) (ctx : C) (file : String) (line : Nat) (stop : Stop) :
    c.suspend ctx file line stop = (false, c) := by
  have hsatisfy : c.satisfy (Context.thread ctx) = c := by
    have hsteps : c.steps.erase (Context.thread ctx) = c.steps := by simp [hrest.steps hdetached]
    have hpauses : c.pauses.erase (Context.thread ctx) = c.pauses := by
      simp [hrest.pauses hdetached]
    rw [satisfy, hsteps, hpauses]
    exact hcurrent.refresh_eq
  rw [suspend_of_detached hdetached, hsatisfy]

omit [Context C] in
theorem Decided.eq_of_detached {c d : Coordinator C} (hdecided : Decided c d) (hrest : AtRest c)
    (hcurrent : Current c) (hdetached : c.attached = false) : d = c := by
  cases hdecided with
  | nothing => rfl
  | pause target =>
    have hpauses : c.pauses.erase target = c.pauses := by simp [hrest.pauses hdetached]
    rw [hpauses]
    exact hcurrent.refresh_eq
  | exception t =>
    have hpending : c.pending.erase t = c.pending := by simp [hrest.pending hdetached]
    rw [hpending]
    exact hcurrent.refresh_eq

theorem checkLine_of_inactive {c : Coordinator C} (hcurrent : Current c) (hrest : AtRest c)
    (hinactive : c.active = false) (ctx : C) (file : String) (line : Nat) :
    c.checkLine ctx file line = (false, c) := by
  cases hattached : c.attached with
  | true =>
    have hidle := idle_of_canStop_eq_false hattached (hcurrent.symm.trans hinactive)
    simp only [checkLine, hidle.decide?_eq_none]
  | false =>
    rcases checkLine_cases c ctx file line with h | ⟨stop, d, hdecided, h⟩
    · exact h
    · rw [hdecided.eq_of_detached hrest hcurrent hattached] at h
      rw [h]
      exact hrest.suspend_eq hcurrent hattached ctx file line stop

theorem checkEntry_of_inactive {c : Coordinator C} (hcurrent : Current c) (hrest : AtRest c)
    (hinactive : c.active = false) (ctx : C) (function : String) (component : Option String)
    (file : String) (line : Nat) :
    c.checkEntry ctx function component file line = (false, c) := by
  cases hattached : c.attached with
  | true =>
    have hidle := idle_of_canStop_eq_false hattached (hcurrent.symm.trans hinactive)
    simp [checkEntry, functions_check_eq_none_of_isEmpty hidle.functions, fires?]
  | false =>
    rcases checkEntry_cases c ctx function component file line with h | ⟨stop, h⟩
    · exact h
    · rw [h]
      exact hrest.suspend_eq hcurrent hattached ctx file line stop

theorem atLine_eq_checkLine {c : Coordinator C} (hcurrent : Current c) (hrest : AtRest c) (ctx : C)
    (file : String) (line : Nat) : c.atLine ctx file line = c.checkLine ctx file line := by
  cases hactive : c.active with
  | true => simp only [atLine, hactive, if_true]
  | false =>
    rw [checkLine_of_inactive hcurrent hrest hactive]
    simp [atLine, hactive]

theorem atEntry_eq_checkEntry {c : Coordinator C} (hcurrent : Current c) (hrest : AtRest c)
    (ctx : C) (function : String) (component : Option String) (file : String) (line : Nat) :
    c.atEntry ctx function component file line =
      c.checkEntry ctx function component file line := by
  cases hactive : c.active with
  | true => simp only [atEntry, hactive, if_true]
  | false =>
    rw [checkEntry_of_inactive hcurrent hrest hactive]
    simp [atEntry, hactive]

end DebugAdapter.Coordinator
