import DebugAdapter.Proofs.Debugger.History
import DebugAdapter.Proofs.Suspension.Stops

/-!
# Announced exceptions

What has been announced for a thread stays until the thread reports or exits, or everything is let go.
Before the next line that the thread comes to, it is stopped at.
-/

namespace DebugAdapter

variable {C : Type} [Context C]

/-- The thread that an operation comes from. -/
def Operation.reporter? : Operation C → Option ThreadId
  | .report ctx _ => some (Context.thread ctx)
  | .announce t _ _ | .exited t => some t
  | _ => none

/-- The operation lets everything go. -/
def Operation.dismisses : Operation C → Bool
  | .detach | .resumeAll => true
  | _ => false

namespace Coordinator

section
variable {c d : Coordinator C} {ctx : C} {t : ThreadId}

omit [Context C] in
theorem notify_pending (c : Coordinator C) (n : Notification) : (c.notify n).pending = c.pending := by
  unfold notify
  split <;> rfl

theorem suspend_pending (c : Coordinator C) (ctx : C) (file : String) (line : Nat) (stop : Stop) :
    (c.suspend ctx file line stop).2.pending = c.pending := by
  cases hattached : c.attached with
  | true =>
    rw [suspend_of_attached hattached, notify_pending]
    rfl
  | false =>
    rw [suspend_of_detached hattached]
    rfl

omit [Context C] in
theorem resume_pending (c : Coordinator C) (t : ThreadId) : (c.resume t).2.pending = c.pending := by
  cases hs : c.suspended.get? t with
  | none => rw [resume_of_absent hs]
  | some s =>
    rw [resume_of_waiting hs]
    rfl

omit [Context C] in
theorem usedUp_pending (c : Coordinator C) {u : ThreadId} (hu : t ≠ u) (reason : StopReason) :
    (c.usedUp u reason).pending.get? t = c.pending.get? t := by
  cases reason with
  | exception => simp [usedUp, refresh, Table.get?_erase, hu]
  | pause =>
    simp only [usedUp]
    split <;> rfl
  | breakpoint | functionBreakpoint | step => rfl

theorem hear_pending (c : Coordinator C) {ctx : C} (hother : t ≠ Context.thread ctx) (r : Report) :
    (c.hear ctx r).2.pending.get? t = c.pending.get? t := by
  cases r with
  | line file line =>
    simp only [hear, atLine]
    split
    · unfold checkLine
      cases hdecide : c.decide? ctx file line with
      | none => rfl
      | some decision =>
        obtain ⟨stop, d⟩ := decision
        have hd := hdecide.symm.trans (due_of_decide? hdecide).decide?_eq
        cases hd
        simp only [suspend_pending]
        exact usedUp_pending c hother stop.reason
    · rfl
  | entry function component file line =>
    simp only [hear, atEntry]
    split
    · rcases checkEntry_cases c ctx function component file line with hpasses | ⟨stop, hstops⟩
      · rw [hpasses]
      · rw [hstops, suspend_pending]
    · rfl
  | halt file line label =>
    simp only [hear, atBreak]
    split
    · rw [suspend_pending]
    · rfl

/-- What has been announced for a thread is nobody else's business, unless everything is let go. -/
theorem pending_after (c : Coordinator C) (op : Operation C) (hother : op.reporter? ≠ some t)
    (hstays : op.dismisses = false) : (c.after op).pending.get? t = c.pending.get? t := by
  cases op with
  | attach | setBreakOnUncaught | setBreakpoints | setFunctions | requestPause => rfl
  | detach | resumeAll => contradiction
  | report ctx r =>
    apply hear_pending
    intro ht
    exact hother (congrArg some ht.symm)
  | announce u e caught =>
    have hu : t ≠ u := fun ht => hother (congrArg some ht.symm)
    simp only [after, announce]
    split
    · rfl
    · simp [refresh, Table.get?_insert, hu]
  | exited u =>
    have hu : t ≠ u := fun ht => hother (congrArg some ht.symm)
    simp only [after, exited]
    split
    · simp [refresh, Table.get?_erase, hu]
    · rfl
  | output text isError =>
    simp only [after, output]
    split
    · rw [notify_pending]
    · rfl
  | step u mode =>
    simp only [after, step]
    split
    · rw [resume_pending]
      rfl
    · rfl
  | resume u => rw [after, resume_pending]

/-- Before the next line the thread stops at what has been announced. -/
theorem suspended_of_pending {file : String} {line : Nat} {e : Exception} (hcurrent : Current c)
    (hrest : AtRest c) (h : c.pending.get? (Context.thread ctx) = some e) :
    (c.hear ctx (.line file line)).2.suspended.get? (Context.thread ctx) =
      some ⟨ctx, file, line, { reason := .exception, exception := some e }, c.gates⟩ := by
  have hattached : c.attached = true := by
    cases hattached : c.attached with
    | true => rfl
    | false =>
      rw [hrest.pending hattached] at h
      contradiction
  have hdue : Due c ctx file line { reason := .exception, exception := some e } := .exception h
  rw [hear_line hcurrent hattached, hdue.checkLine_eq hattached, notify_suspended]
  simp [parked, usedUp, refresh, Table.get?_insert]

end

end Coordinator

namespace Debugger

/-- The thread that an event comes from. -/
def Event.reporter? : Event C → Option ThreadId
  | .report ctx _ => some (Context.thread ctx)
  | .announce t _ _ | .exited t => some t
  | _ => none

/-- The event lets everything go. -/
def Event.dismisses : Event C → Bool
  | .detach => true
  | .resume t => t = Coordinator.anyThread ∨ t = Coordinator.allThreads
  | _ => false

omit [Context C] in
theorem pending_of_unmoved {d d' : Debugger C} (h : Unmoved d d') (t : ThreadId) :
    d'.coordinator.pending.get? t = d.coordinator.pending.get? t := by rw [h.1]

theorem pending_after (d : Debugger C) {e : Event C} {t : ThreadId}
    (hother : e.reporter? ≠ some t) (hstays : e.dismisses = false) :
    (d.after e).coordinator.pending.get? t = d.coordinator.pending.get? t := by
  cases e with
  | stackTrace u start levels => exact pending_of_unmoved (stackTrace_unmoved d u start levels) t
  | scopes frame => exact pending_of_unmoved (scopes_unmoved d frame) t
  | evaluate frame expression => exact pending_of_unmoved (evaluate_unmoved d frame expression) t
  | children | reclaim => rfl
  | attach a =>
    simp only [after, attach]
    split
    · rfl
    · split <;> rfl
  | detach => contradiction
  | setBreakpoints | setFunctionBreakpoints | setExceptionBreakpoints =>
    simp only [after, setBreakpoints, setFunctionBreakpoints, setExceptionBreakpoints]
    split <;> rfl
  | pause p u =>
    simp only [after, pause]
    split
    · rfl
    · split <;> rfl
  | resume u =>
    have hone : ¬(u = Coordinator.anyThread ∨ u = Coordinator.allThreads) := of_decide_eq_false hstays
    simp only [after, resume, if_neg hone]
    rw [Coordinator.resume_pending]
  | step u mode => exact Coordinator.pending_after _ (.step u mode) hother rfl
  | report ctx r => exact Coordinator.pending_after _ (.report ctx r) hother rfl
  | announce u e caught => exact Coordinator.pending_after _ (.announce u e caught) hother rfl
  | exited u => exact Coordinator.pending_after _ (.exited u) hother rfl
  | output text isError => exact Coordinator.pending_after _ (.output text isError) hother rfl

end Debugger

end DebugAdapter
