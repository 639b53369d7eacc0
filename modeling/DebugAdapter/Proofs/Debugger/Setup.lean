import DebugAdapter.Proofs.Breakpoint.Lines
import DebugAdapter.Proofs.Debugger.Refusals

/-!
# The setup of a debugger

A session and what its client has asked for are changed by few events, and `arrange` says how. So a
debugger without a client keeps its breakpoints, and nothing that its threads report makes them wait
(`Rested.hear_eq`).
-/

namespace DebugAdapter.Debugger

variable {C : Type}

/-! ## Options -/

theorem listScopes_options (d : Debugger C) (frame : Int) (scopes : List Scope) :
    (d.listScopes frame scopes).2.options = d.options := by
  induction scopes generalizing d with
  | nil => rfl
  | cons s rest ih => exact ih _

theorem listException_options (d : Debugger C) (frame : Int) (t : ThreadId) :
    (d.listException frame t).2.options = d.options := by
  unfold listException
  split
  · rfl
  · rename_i e _
    change (d.exceptionValue t e).2.options = d.options
    unfold exceptionValue
    split <;> rfl

theorem scopes_options (d : Debugger C) (frame : Int) : (d.scopes frame).2.options = d.options := by
  unfold scopes
  split
  · rfl
  · rename_i known _
    rw [listScopes_options]
    split
    · exact listException_options d frame known.thread
    · rfl

variable [Context C]

theorem after_options (d : Debugger C) (e : Event C) : (d.after e).options = d.options := by
  cases e with
  | scopes frame => exact scopes_options d frame
  | attach a =>
    simp only [after, attach]
    split
    · rfl
    · split <;> rfl
  | setBreakpoints | setFunctionBreakpoints | setExceptionBreakpoints =>
    simp only [after, setBreakpoints, setFunctionBreakpoints, setExceptionBreakpoints]
    split <;> rfl
  | stackTrace t start levels =>
    simp only [after, stackTrace]
    split <;> rfl
  | evaluate frame expression =>
    simp only [after, evaluate]
    repeat' split
    all_goals rfl
  | resume t =>
    simp only [after, resume]
    split <;> rfl
  | pause p t =>
    simp only [after, pause]
    split
    · rfl
    · split <;> rfl
  | detach | children | reclaim | step | report | announce | exited | output => rfl

theorem through_options (d : Debugger C) (hs : List (Happening C)) :
    (d.through hs).options = d.options := by
  induction hs generalizing d with
  | nil => rfl
  | cons e hs ih =>
    have hstep : (d.undergo e).options = d.options := by
      cases e with
      | event e =>
        rw [undergo]
        split
        · rfl
        · exact after_options d e
      | passTo | takeOver => rfl
    exact (ih _).trans hstep

/-! ## Sessions and setups -/

/-- The session and the setup after an event. -/
def arrange (d : Debugger C) : Event C → Option Path.Mapper × Setup
  | .attach a =>
    match (d.attach a).1 with
    | .ok _ => (some ⟨a.transforms, d.options.fold⟩,
        (Operation.attach a.consoleOutput : Operation C).configure d.coordinator.setup)
    | .error _ => (d.session, d.coordinator.setup)
  | .detach => (none, (Operation.detach : Operation C).configure d.coordinator.setup)
  | .setBreakpoints p path requested =>
    (d.session, { d.coordinator.setup with
      breakpoints :=
        match d.session with
        | none => d.coordinator.breakpoints
        | some mapper =>
          let file := mapper.toDebuggee path
          d.coordinator.breakpoints.after (.replace file requested (p.executableLines file)) })
  | .setFunctionBreakpoints requested =>
    (d.session, { d.coordinator.setup with
      functions :=
        if d.session.isSome then (d.coordinator.functions.replace requested).2
        else d.coordinator.functions })
  | .setExceptionBreakpoints filters =>
    (d.session, { d.coordinator.setup with
      breakOnUncaught :=
        if d.session.isSome then filters.contains uncaughtFilter
        else d.coordinator.breakOnUncaught })
  | _ => (d.session, d.coordinator.setup)

theorem after_arranged (d : Debugger C) (e : Event C) :
    ((d.after e).session, (d.after e).coordinator.setup) = d.arrange e := by
  have hunmoved : ∀ {d' : Debugger C}, Unmoved d d' →
      (d'.session, d'.coordinator.setup) = (d.session, d.coordinator.setup) := by
    rintro d' ⟨hcoordinator, hsession⟩
    rw [hcoordinator, hsession]
  cases e with
  | stackTrace t start levels => exact hunmoved (stackTrace_unmoved d t start levels)
  | scopes frame => exact hunmoved (scopes_unmoved d frame)
  | evaluate frame expression => exact hunmoved (evaluate_unmoved d frame expression)
  | children | reclaim => rfl
  | attach a =>
    simp only [after, arrange, attach]
    split
    · rfl
    · split <;> rfl
  | detach => exact congrArg (none, ·) (Coordinator.after_setup d.coordinator .detach)
  | setBreakpoints | setFunctionBreakpoints | setExceptionBreakpoints =>
    simp only [after, arrange, setBreakpoints, setFunctionBreakpoints, setExceptionBreakpoints]
    split
    · rename_i hsession
      rw [hsession]
      rfl
    · rename_i mapper hsession
      rw [hsession]
      rfl
  | resume t =>
    simp only [after, arrange, resume]
    split
    · exact congrArg (d.session, ·) (Coordinator.after_setup d.coordinator .resumeAll)
    · exact congrArg (d.session, ·) (Coordinator.resume_setup d.coordinator t)
  | step t mode => exact congrArg (d.session, ·) (Coordinator.after_setup d.coordinator (.step t mode))
  | pause p t =>
    simp only [after, arrange, pause]
    split
    · rfl
    · split <;> rfl
  | report ctx r =>
    exact congrArg (d.session, ·) (Coordinator.after_setup d.coordinator (.report ctx r))
  | announce t e caught =>
    exact congrArg (d.session, ·) (Coordinator.after_setup d.coordinator (.announce t e caught))
  | exited t => exact congrArg (d.session, ·) (Coordinator.after_setup d.coordinator (.exited t))
  | output text isError =>
    exact congrArg (d.session, ·) (Coordinator.after_setup d.coordinator (.output text isError))

theorem after_session (d : Debugger C) (e : Event C) : (d.after e).session = (d.arrange e).1 :=
  congrArg Prod.fst (after_arranged d e)

theorem after_setup (d : Debugger C) (e : Event C) :
    (d.after e).coordinator.setup = (d.arrange e).2 :=
  congrArg Prod.snd (after_arranged d e)

/-! ## Without a client -/

/-- Without a session nobody has asked for anything. -/
structure Rested (d : Debugger C) : Prop where
  settled : Settled d
  unasked : d.session = none → d.coordinator.breakOnUncaught = false ∧
    d.coordinator.consoleOutput = false ∧ d.coordinator.receiver = none

theorem rested_new (o : Options) : Rested (new o : Debugger C) :=
  ⟨settled_run o [], fun _ => ⟨rfl, rfl, rfl⟩⟩

namespace Rested
variable {d : Debugger C}

omit [Context C] in
theorem attached (h : Rested d) (hnone : d.session = none) : d.coordinator.attached = false := by
  rw [← h.settled.session, hnone]
  rfl

/-- Without a session, only an attach that is granted changes the setup. -/
theorem arrange_eq (h : Rested d) (hnone : d.session = none) {e : Event C}
    (he : ∀ a, e = .attach a → d.outcome e ≠ .ok ()) :
    d.arrange e = (none, d.coordinator.setup) := by
  obtain ⟨huncaught, hconsole, hreceiver⟩ := h.unasked hnone
  cases e with
  | attach a =>
    have hrefused : (d.attach a).1 ≠ .ok () := he a rfl
    simp only [arrange]
    split
    · exact absurd ‹_› hrefused
    · rw [hnone]
  | detach =>
    have hattached := h.attached hnone
    simp only [arrange, Operation.configure, Coordinator.setup, huncaught, hconsole, hreceiver,
      hattached]
  | setBreakpoints | setFunctionBreakpoints | setExceptionBreakpoints =>
    simp only [arrange, hnone]
    rfl
  | _ => exact congrArg (·, d.coordinator.setup) hnone

theorem after (h : Rested d) (e : Event C) : Rested (d.after e) := by
  refine ⟨settled_after h.settled e, ?_⟩
  intro hnone
  rw [after_session] at hnone
  have hsetup := after_setup d e
  by_cases hleft : e = .detach
  · subst hleft
    exact ⟨congrArg Setup.breakOnUncaught hsetup, congrArg Setup.consoleOutput hsetup,
      congrArg Setup.receiver hsetup⟩
  · have hbefore : d.session = none := by
      cases e with
      | detach => contradiction
      | attach a =>
        simp only [arrange] at hnone
        split at hnone
        · contradiction
        · exact hnone
      | _ => exact hnone
    have hrefused : ∀ a, e = .attach a → d.outcome e ≠ .ok () := by
      rintro a rfl hgranted
      change (d.attach a).1 = .ok () at hgranted
      simp only [arrange, hgranted] at hnone
      contradiction
    rw [h.arrange_eq hbefore hrefused] at hsetup
    obtain ⟨huncaught, hconsole, hreceiver⟩ := h.unasked hbefore
    exact ⟨(congrArg Setup.breakOnUncaught hsetup).trans huncaught,
      (congrArg Setup.consoleOutput hsetup).trans hconsole,
      (congrArg Setup.receiver hsetup).trans hreceiver⟩

omit [Context C] in
/-- What the outside takes over, and what time it is, does not matter. -/
theorem handedOver (h : Rested d) (outbox : List Delivery) (released : List (Suspension C))
    (inspector : Inspector) :
    Rested { d with coordinator := { d.coordinator with outbox, released }, inspector } where
  settled :=
    ⟨h.settled.session, h.settled.current, ⟨h.settled.rest.suspended, h.settled.rest.steps,
      h.settled.rest.pauses, h.settled.rest.pending⟩, h.settled.summary⟩
  unasked := h.unasked

theorem undergo (h : Rested d) (e : Happening C) : Rested (d.undergo e) := by
  cases e with
  | event e =>
    rw [Debugger.undergo]
    split
    · exact h
    · exact h.after e
  | passTo time => exact h.handedOver _ _ _
  | takeOver => exact h.handedOver _ _ _

/-- Without a session no report makes a thread wait, nor does anything come of it. -/
theorem hear_eq (h : Rested d) (hnone : d.session = none) (ctx : C) (r : Report) :
    d.coordinator.hear ctx r = (false, d.coordinator) := by
  have hdetached := h.attached hnone
  rcases Coordinator.hear_cases d.coordinator ctx r with hhear | ⟨stop, c, hdecided, hhear⟩
  · exact hhear
  · rw [hdecided.eq_of_detached h.settled.rest h.settled.current hdetached] at hhear
    rw [hhear]
    exact h.settled.rest.suspend_eq h.settled.current hdetached _ _ _ _

end Rested

theorem rested_through (o : Options) (hs : List (Happening C)) :
    Rested ((new o : Debugger C).through hs) := by
  unfold through
  generalize hnew : (new o : Debugger C) = d
  have hd : Rested d := hnew ▸ rested_new o
  clear hnew
  induction hs generalizing d with
  | nil => exact hd
  | cons e hs ih => exact ih _ (hd.undergo e)

end DebugAdapter.Debugger
