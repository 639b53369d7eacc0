import DebugAdapter.Proofs.Debugger.History
import DebugAdapter.Proofs.Suspension.Stepping

/-!
# What happens to a debugger

Besides requests and reports, time passes and the outside takes over what the coordinator has ready.
A thread that waits is blocked, so of its reports nothing is heard (`undergo`).

What matters to the frames and values that a client knows of a thread is whether the thread is
released. If it is, it leaves its place and the client's frames of it are forgotten; otherwise it
stays where it is or begins to wait, and what is known of it is kept (`turn_undergo`,
`shed_undergo`).
-/

namespace DebugAdapter

variable {C : Type}

inductive Debugger.Happening (C : Type) where
  | event (e : Debugger.Event C)
  /-- It is so late now, in milliseconds. -/
  | passTo (time : Nat)
  /-- Notifications are sent, and released threads go on. -/
  | takeOver

/-- The client has the thread released. -/
def Debugger.Happening.releases : Debugger.Happening C → ThreadId → Bool
  | .event .detach, _ => true
  | .event (.resume u), t => u == t || u == Coordinator.anyThread || u == Coordinator.allThreads
  | .event (.step u _), t => u == t
  | _, _ => false

/-- The inspector has a part in it. -/
def Debugger.Happening.inspects : Debugger.Happening C → Bool
  | .event (.scopes _) | .event (.children _ _ _ _ _) | .event (.evaluate _ _)
  | .event (.reclaim _) | .event .detach | .passTo _ => true
  | _ => false

theorem Debugger.releases_resume {u t : ThreadId}
    (h : ¬(u = Coordinator.anyThread ∨ u = Coordinator.allThreads)) :
    (Happening.event (.resume u) : Happening C).releases t = (u == t) := by
  rw [not_or] at h
  simp [Happening.releases, beq_eq_false_iff_ne.mpr h.1, beq_eq_false_iff_ne.mpr h.2]

variable [Context C]

namespace Debugger

/-- A report of a thread that waits. -/
def blocked (d : Debugger C) : Event C → Bool
  | .report ctx _ => d.coordinator.isSuspended (Context.thread ctx)
  | _ => false

def undergo (d : Debugger C) : Happening C → Debugger C
  | .event e => if d.blocked e then d else d.after e
  | .passTo time => d.passTo time
  | .takeOver => { d with coordinator := d.coordinator.takeOutbox.2.takeReleased.2 }

def through (d : Debugger C) (hs : List (Happening C)) : Debugger C := hs.foldl undergo d

end Debugger

/-! ## Places -/

namespace Coordinator

/-- What becomes of the place of a thread that is released or not. -/
inductive Turn (c d : Coordinator C) (t : ThreadId) : Bool → Prop where
  | left (hplace : d.suspended.get? t = none) (hgates : c.gates ≤ d.gates) : Turn c d t true
  | kept (hplace : d.suspended.get? t = c.suspended.get? t) (hgates : c.gates ≤ d.gates) :
    Turn c d t false
  | parked {s : Suspension C} (hfree : c.suspended.get? t = none)
    (hplace : d.suspended.get? t = some s) (hgate : s.gate = c.gates)
    (hgates : d.gates = c.gates + 1) : Turn c d t false

omit [Context C] in
theorem Turn.of_eq {c d : Coordinator C} {t : ThreadId} (htable : d.suspended = c.suspended)
    (hgates : d.gates = c.gates) : Turn c d t false :=
  .kept (congrArg (Table.get? · t) htable) (Nat.le_of_eq hgates.symm)

section
variable {c d : Coordinator C} {t : ThreadId} {s : Suspension C} {released : Bool}

omit [Context C] in
theorem Turn.gates_le (h : Turn c d t released) : c.gates ≤ d.gates := by
  cases h with
  | left _ hgates | kept _ hgates => exact hgates
  | parked _ _ _ hgates => omega

omit [Context C] in
theorem Turn.stays (h : Turn c d t false) (hs : c.suspended.get? t = some s) :
    d.suspended.get? t = some s := by
  cases h with
  | kept hplace => exact hplace.trans hs
  | parked hfree =>
    rw [hs] at hfree
    contradiction

omit [Context C] in
/-- A thread that waits has not been released. It has waited before, or it has just come. -/
theorem Turn.of_waiting (h : Turn c d t released) (hs : d.suspended.get? t = some s) :
    released = false ∧
      (c.suspended.get? t = some s ∨ s.gate = c.gates ∧ d.gates = c.gates + 1) := by
  cases h with
  | left hplace =>
    rw [hplace] at hs
    contradiction
  | kept hplace => exact ⟨rfl, Or.inl (hplace.symm.trans hs)⟩
  | parked _ hplace hgate hgates =>
    rw [hplace] at hs
    cases hs
    exact ⟨rfl, Or.inr ⟨hgate, hgates⟩⟩

end

omit [Context C] in
theorem notify_gates (c : Coordinator C) (n : Notification) : (c.notify n).gates = c.gates := by
  unfold notify
  split <;> rfl

theorem turn_suspend (c : Coordinator C) {ctx : C} {file : String} {line : Nat} {stop : Stop}
    (hfree : c.suspended.get? (Context.thread ctx) = none) (t : ThreadId) :
    Turn c (c.suspend ctx file line stop).2 t false := by
  cases hattached : c.attached with
  | true =>
    have hgates : (c.suspend ctx file line stop).2.gates = c.gates + 1 := by
      rw [suspend_of_attached hattached, notify_gates]
      rfl
    by_cases ht : t = Context.thread ctx
    · subst ht
      exact .parked hfree (suspended_suspend hattached) rfl hgates
    · exact .kept (suspend_fate c ctx file line stop ht).2 (by omega)
  | false =>
    rw [suspend_of_detached hattached]
    exact .of_eq rfl rfl

theorem turn_hear (c : Coordinator C) {ctx : C} (r : Report)
    (hfree : c.suspended.get? (Context.thread ctx) = none) (t : ThreadId) :
    Turn c (c.hear ctx r).2 t false := by
  rcases hear_cases c ctx r with hhear | ⟨stop, d, hdecided, hhear⟩
  · rw [hhear]
    exact .of_eq rfl rfl
  · have htable : d.suspended = c.suspended := by cases hdecided <;> rfl
    have hgates : d.gates = c.gates := by cases hdecided <;> rfl
    have hturn : Turn d (c.hear ctx r).2 t false := by
      rw [hhear]
      exact turn_suspend d (htable ▸ hfree) t
    cases hturn with
    | kept hplace hlater => exact .kept (htable ▸ hplace) (hgates ▸ hlater)
    | parked hfree hplace hgate hlater =>
      exact .parked (htable ▸ hfree) hplace (hgates ▸ hgate) (hgates ▸ hlater)

omit [Context C] in
theorem resume_gates (c : Coordinator C) (t : ThreadId) : (c.resume t).2.gates = c.gates := by
  cases hs : c.suspended.get? t with
  | none => rw [resume_of_absent hs]
  | some s =>
    rw [resume_of_waiting hs]
    rfl

omit [Context C] in
/-- Of all threads, one leaves its place. -/
theorem Turn.of_one {c d : Coordinator C} {t u : ThreadId}
    (hplace : d.suspended.get? u = if u = t then none else c.suspended.get? u)
    (hgates : d.gates = c.gates) : Turn c d u (t == u) := by
  by_cases hu : u = t
  · rw [hu, beq_self_eq_true]
    exact .left (hu ▸ hplace.trans (if_pos hu)) (Nat.le_of_eq hgates.symm)
  · rw [beq_eq_false_iff_ne.mpr (Ne.symm hu)]
    exact .kept (hplace.trans (if_neg hu)) (Nat.le_of_eq hgates.symm)

omit [Context C] in
theorem turn_resume (c : Coordinator C) (t u : ThreadId) : Turn c (c.resume t).2 u (t == u) :=
  .of_one (resume_fate c t u).2 (resume_gates c t)

theorem turn_step (c : Coordinator C) (t u : ThreadId) (mode : StepMode) :
    Turn c (c.step t mode).2 u (t == u) := by
  cases hs : c.suspended.get? t with
  | none =>
    have hplace : c.suspended.get? u = if u = t then none else c.suspended.get? u := by
      split
      · rename_i hu
        rw [hu, hs]
      · rfl
    simp only [step, hs]
    exact .of_one hplace rfl
  | some s =>
    refine .of_one (step_fate mode hs u).2 ?_
    simp only [step, hs]
    exact resume_gates _ t

end Coordinator

namespace Debugger

open Coordinator (Turn)

theorem undergo_of_not_blocked {d : Debugger C} {e : Event C} (h : d.blocked e = false) :
    d.undergo (.event e) = d.after e :=
  if_neg (Bool.eq_false_iff.mp h)

/-- Whatever else happens is the same with any inspector. -/
theorem undergo_with_inspector (d : Debugger C) (s : Inspector) {e : Happening C}
    (he : e.inspects = false) :
    { d with inspector := s }.undergo e = { d.undergo e with inspector := s } := by
  cases e with
  | passTo time => contradiction
  | takeOver => rfl
  | event e =>
    by_cases hblocked : d.blocked e = true
    · have hblocked' : { d with inspector := s }.blocked e = true := hblocked
      cases e with
      | report ctx r => rw [undergo, undergo, if_pos hblocked, if_pos hblocked']
      | _ => contradiction
    rw [Bool.not_eq_true] at hblocked
    have hblocked' : { d with inspector := s }.blocked e = false := hblocked
    rw [undergo_of_not_blocked hblocked, undergo_of_not_blocked hblocked']
    cases e with
    | scopes | children | evaluate | reclaim | detach => contradiction
    | report | announce | exited | output | step => rfl
    | stackTrace t start levels =>
      simp only [after, stackTrace]
      split <;> rfl
    | attach a =>
      simp only [after, attach]
      split
      · rfl
      · split <;> rfl
    | setBreakpoints | setFunctionBreakpoints | setExceptionBreakpoints =>
      simp only [after, setBreakpoints, setFunctionBreakpoints, setExceptionBreakpoints]
      split <;> rfl
    | pause p t =>
      simp only [after, pause]
      split
      · rfl
      · split <;> rfl
    | resume t =>
      simp only [after, resume]
      split <;> rfl

theorem undergo_inspector {d : Debugger C} {e : Happening C} (he : e.inspects = false) :
    (d.undergo e).inspector = d.inspector := by
  have hsame := congrArg Debugger.inspector (undergo_with_inspector d d.inspector he)
  exact hsame

omit [Context C] in
theorem turn_of_unmoved {d d' : Debugger C} (h : Unmoved d d') (t : ThreadId) :
    Turn d.coordinator d'.coordinator t false :=
  .of_eq (congrArg Coordinator.suspended h.1) (congrArg Coordinator.gates h.1)

theorem turn_undergo (d : Debugger C) (h : Happening C) (t : ThreadId) :
    Turn d.coordinator (d.undergo h).coordinator t (h.releases t) := by
  cases h with
  | passTo | takeOver => exact .of_eq rfl rfl
  | event e =>
    by_cases hblocked : d.blocked e = true
    · cases e with
      | report ctx r =>
        rw [undergo, if_pos hblocked]
        exact .of_eq rfl rfl
      | _ => contradiction
    rw [Bool.not_eq_true] at hblocked
    rw [undergo_of_not_blocked hblocked]
    cases e with
    | stackTrace u start levels => exact turn_of_unmoved (stackTrace_unmoved d u start levels) t
    | scopes frame => exact turn_of_unmoved (scopes_unmoved d frame) t
    | evaluate frame expression => exact turn_of_unmoved (evaluate_unmoved d frame expression) t
    | children | reclaim => exact .of_eq rfl rfl
    | attach a =>
      simp only [after, attach]
      split
      · exact .of_eq rfl rfl
      · split <;> exact .of_eq rfl rfl
    | setBreakpoints | setFunctionBreakpoints | setExceptionBreakpoints =>
      simp only [after, setBreakpoints, setFunctionBreakpoints, setExceptionBreakpoints]
      split <;> exact .of_eq rfl rfl
    | pause p u =>
      simp only [after, pause]
      split
      · exact .of_eq rfl rfl
      · split <;> exact .of_eq rfl rfl
    | announce u e caught =>
      simp only [after, Coordinator.after, Coordinator.announce]
      split <;> exact .of_eq rfl rfl
    | exited u =>
      simp only [after, Coordinator.after, Coordinator.exited]
      split <;> exact .of_eq rfl rfl
    | output text isError =>
      simp only [after, Coordinator.after, Coordinator.output]
      split
      · exact .of_eq (Coordinator.notify_suspended _ _) (Coordinator.notify_gates _ _)
      · exact .of_eq rfl rfl
    | report ctx r =>
      have hfree : d.coordinator.suspended.get? (Context.thread ctx) = none :=
        Option.not_isSome_iff_eq_none.mp (Bool.eq_false_iff.mp hblocked)
      exact Coordinator.turn_hear _ r hfree t
    | detach =>
      simp only [after, detach, Coordinator.detach, Coordinator.resumeAll_eq]
      exact .left rfl (Nat.le_refl _)
    | resume u =>
      simp only [after, resume]
      split
      · rename_i hall
        have hreleases : (Happening.event (.resume u) : Happening C).releases t = true := by
          rcases hall with rfl | rfl <;> simp [Happening.releases]
        rw [hreleases, Coordinator.resumeAll_eq]
        exact .left rfl (Nat.le_refl _)
      · rename_i hone
        rw [releases_resume hone]
        exact Coordinator.turn_resume _ u t
    | step u mode => exact Coordinator.turn_step _ u t mode

end Debugger

/-! ## What is known of a thread -/

namespace KnownFrames

/-- What is known of the threads in `gone` is forgotten. What is known of the others is kept, and
exceptions may be added to it. -/
structure Shed (gone : ThreadId → Bool) (k k' : KnownFrames) : Prop where
  lastId : k'.lastId = k.lastId
  frames : ∀ id, k'.frames.get? id = (k.frames.get? id).filter fun f => !gone f.thread
  byPosition : ∀ p, k'.byPosition.get? p = (k.byPosition.get? p).filter fun _ => !gone p.1
  exceptions : ∀ t v, gone t = false → k.exceptions.get? t = some v →
    k'.exceptions.get? t = some v

/-- Only exceptions are added. -/
structure Keeps (k k' : KnownFrames) : Prop where
  lastId : k'.lastId = k.lastId
  frames : k'.frames = k.frames
  byPosition : k'.byPosition = k.byPosition
  exceptions : ∀ t v, k.exceptions.get? t = some v → k'.exceptions.get? t = some v

variable {k k' : KnownFrames} {gone : ThreadId → Bool}

theorem Keeps.refl (k : KnownFrames) : Keeps k k := ⟨rfl, rfl, rfl, fun _ _ => id⟩

theorem Keeps.shed (h : Keeps k k') (hgone : ∀ t, gone t = false) : Shed gone k k' where
  lastId := h.lastId
  frames _ := h.frames ▸ (optionFilter_eq_self fun f _ => by simp [hgone]).symm
  byPosition _ := h.byPosition ▸ (optionFilter_eq_self fun _ _ => by simp [hgone]).symm
  exceptions t v _ := h.exceptions t v

theorem shed_clear (k : KnownFrames) (hgone : ∀ t, gone t = true) : Shed gone k k.clear where
  lastId := rfl
  frames := by simp [clear, new, hgone]
  byPosition := by simp [clear, new, hgone]
  exceptions t _ ht := by simp [hgone] at ht

theorem shed_forgetThread (k : KnownFrames) {u : ThreadId} (hgone : ∀ t, gone t = (u == t)) :
    Shed gone k (k.forgetThread u) where
  lastId := rfl
  frames id := by
    simp only [forgetThread, Table.get?_filter, hgone, bne, Bool.beq_comm]
  byPosition p := by
    simp only [forgetThread, Table.get?_filter, hgone, bne, Bool.beq_comm]
  exceptions t v ht hv := by
    have hother : t ≠ u := by
      rintro rfl
      simp [hgone] at ht
    simp [forgetThread, Table.get?_erase, hother, hv]

end KnownFrames

namespace Debugger

open KnownFrames (Shed Keeps)

omit [Context C] in
theorem listScopes_frames (d : Debugger C) (frame : Int) (scopes : List Scope) :
    (d.listScopes frame scopes).2.frames = d.frames := by
  induction scopes generalizing d with
  | nil => rfl
  | cons s rest ih => exact ih _

omit [Context C] in
theorem exceptionValue_keeps (d : Debugger C) (t : ThreadId) (e : Exception) :
    Keeps d.frames (d.exceptionValue t e).2.frames := by
  unfold exceptionValue
  split
  · exact .refl _
  · rename_i hnone
    refine ⟨rfl, rfl, rfl, ?_⟩
    intro u v hv
    rw [Table.get?_insert]
    split
    · rename_i hu
      rw [hu, hnone] at hv
      contradiction
    · exact hv

omit [Context C] in
theorem listException_keeps (d : Debugger C) (frame : Int) (t : ThreadId) :
    Keeps d.frames (d.listException frame t).2.frames := by
  unfold listException
  split
  · exact .refl _
  · exact exceptionValue_keeps d t _

omit [Context C] in
theorem scopes_keeps (d : Debugger C) (frame : Int) :
    Keeps d.frames (d.scopes frame).2.frames := by
  unfold scopes
  split
  · exact .refl _
  · rename_i known _
    rw [listScopes_frames]
    split
    · exact listException_keeps d frame known.thread
    · exact .refl _

/-- Whatever happens, unless it lists a stack, the client's frames are kept but for those of the
threads that are released. -/
theorem shed_undergo (d : Debugger C) {h : Happening C}
    (hlists : ∀ t start levels, h ≠ .event (.stackTrace t start levels)) :
    Shed h.releases d.frames (d.undergo h).frames := by
  cases h with
  | passTo | takeOver => exact (Keeps.refl _).shed fun _ => rfl
  | event e =>
    by_cases hblocked : d.blocked e = true
    · cases e with
      | report ctx r =>
        rw [undergo, if_pos hblocked]
        exact (Keeps.refl _).shed fun _ => rfl
      | _ => contradiction
    rw [Bool.not_eq_true] at hblocked
    rw [undergo_of_not_blocked hblocked]
    cases e with
    | stackTrace t start levels => exact absurd rfl (hlists t start levels)
    | scopes frame => exact (scopes_keeps d frame).shed fun _ => rfl
    | evaluate frame expression =>
      have hsame : (d.evaluate frame expression).2.frames = d.frames := by
        unfold evaluate
        repeat' split
        all_goals rfl
      rw [after, hsame]
      exact (Keeps.refl _).shed fun _ => rfl
    | attach a =>
      simp only [after, attach]
      split
      · exact (Keeps.refl _).shed fun _ => rfl
      · split <;> exact (Keeps.refl _).shed fun _ => rfl
    | setBreakpoints | setFunctionBreakpoints | setExceptionBreakpoints =>
      simp only [after, setBreakpoints, setFunctionBreakpoints, setExceptionBreakpoints]
      split <;> exact (Keeps.refl _).shed fun _ => rfl
    | pause p u =>
      simp only [after, pause]
      split
      · exact (Keeps.refl _).shed fun _ => rfl
      · split <;> exact (Keeps.refl _).shed fun _ => rfl
    | children | reclaim | report | announce | exited | output =>
      exact (Keeps.refl _).shed fun _ => rfl
    | detach => exact KnownFrames.shed_clear _ fun _ => rfl
    | resume u =>
      simp only [after, resume]
      split
      · rename_i hall
        refine KnownFrames.shed_clear _ fun t => ?_
        rcases hall with rfl | rfl <;> simp [Happening.releases]
      · rename_i hone
        exact KnownFrames.shed_forgetThread _ fun t => releases_resume hone
    | step u mode => exact KnownFrames.shed_forgetThread _ fun t => rfl

end Debugger

end DebugAdapter
