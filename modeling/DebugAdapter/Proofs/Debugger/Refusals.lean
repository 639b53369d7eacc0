import DebugAdapter.Proofs.Debugger.Frames

/-!
# Requests that are refused

Most requests find out whether they are refused before they change anything. Continuing and stepping
do not: they forget what the client knows of the thread first. Nothing is lost by it, since only
threads that wait are known of (`Acquainted`), and a thread that waits is not refused.
-/

namespace DebugAdapter

variable {C : Type} [Context C]

theorem KnownFrames.forgetThread_eq_self {k : KnownFrames} {t : ThreadId}
    (hframes : ∀ id f, k.frames.get? id = some f → f.thread ≠ t)
    (hplaces : ∀ p id, k.byPosition.get? p = some id → p.1 ≠ t)
    (hexceptions : k.exceptions.get? t = none) : k.forgetThread t = k := by
  have h1 : k.frames.filter (fun _ f => f.thread != t) = k.frames :=
    Table.filter_eq_self fun id f hf => bne_iff_ne.mpr (hframes id f hf)
  have h2 : k.byPosition.filter (fun p _ => p.1 != t) = k.byPosition :=
    Table.filter_eq_self fun p id hp => bne_iff_ne.mpr (hplaces p id hp)
  rw [KnownFrames.forgetThread, h1, h2, Table.erase_eq_self hexceptions]

namespace Debugger

/-! ## Who is known of -/

/-- The client knows of a thread only while the thread waits. -/
structure Acquainted (d : Debugger C) : Prop where
  frames : ∀ id f, d.frames.frames.get? id = some f →
    ∃ s, d.coordinator.suspended.get? f.thread = some s
  places : ∀ p id, d.frames.byPosition.get? p = some id →
    ∃ s, d.coordinator.suspended.get? p.1 = some s
  exceptions : ∀ t v, d.frames.exceptions.get? t = some v →
    ∃ s, d.coordinator.suspended.get? t = some s

omit [Context C] in
theorem exceptions_of_scopes {d : Debugger C} {frame : Int} {t : ThreadId} {v : Value}
    (hv : (d.scopes frame).2.frames.exceptions.get? t = some v) :
    d.frames.exceptions.get? t = some v ∨ ∃ s, d.coordinator.suspended.get? t = some s := by
  unfold scopes at hv
  split at hv
  · exact Or.inl hv
  · rename_i known _
    rw [listScopes_frames] at hv
    split at hv
    · unfold listException at hv
      split at hv
      · exact Or.inl hv
      · rename_i e he
        change (d.exceptionValue known.thread e).2.frames.exceptions.get? t = some v at hv
        unfold exceptionValue at hv
        split at hv
        · exact Or.inl hv
        · rw [Table.get?_insert] at hv
          split at hv
          · rename_i ht
            obtain ⟨s, hs, _⟩ := Option.bind_eq_some_iff.mp he
            exact Or.inr ⟨s, ht ▸ hs⟩
          · exact Or.inl hv
    · exact Or.inl hv

/-- An exception that is shown after something has happened was shown before, or its thread waited;
and the thread has not been released. -/
theorem exceptions_of_undergo {d : Debugger C} {e : Happening C} {t : ThreadId} {v : Value}
    (hv : (d.undergo e).frames.exceptions.get? t = some v) :
    e.releases t = false ∧ (d.frames.exceptions.get? t = some v ∨
      ∃ s, d.coordinator.suspended.get? t = some s) := by
  cases e with
  | passTo | takeOver => exact ⟨rfl, Or.inl hv⟩
  | event e =>
    by_cases hblocked : d.blocked e = true
    · cases e with
      | report ctx r =>
        rw [undergo, if_pos hblocked] at hv
        exact ⟨rfl, Or.inl hv⟩
      | _ => contradiction
    rw [Bool.not_eq_true] at hblocked
    rw [undergo_of_not_blocked hblocked] at hv
    cases e with
    | scopes frame => exact ⟨rfl, exceptions_of_scopes hv⟩
    | detach => contradiction
    -- A thread that goes on takes along what is shown of it.
    | resume u =>
      simp only [after, resume] at hv
      split at hv
      · contradiction
      · rename_i hone
        simp only [KnownFrames.forgetThread, Table.get?_erase] at hv
        split at hv
        · contradiction
        · rename_i ht
          rw [releases_resume hone]
          exact ⟨beq_eq_false_iff_ne.mpr (Ne.symm ht), Or.inl hv⟩
    | step u mode =>
      simp only [after, step, KnownFrames.forgetThread, Table.get?_erase] at hv
      split at hv
      · contradiction
      · rename_i ht
        exact ⟨beq_eq_false_iff_ne.mpr (Ne.symm ht), Or.inl hv⟩
    | stackTrace u start levels =>
      refine ⟨rfl, Or.inl ?_⟩
      cases hs : d.coordinator.suspended.get? u with
      | none =>
        simp only [after, stackTrace, hs] at hv
        exact hv
      | some s =>
        rw [after, stackTrace_frames hs, exceptions_insertAll] at hv
        exact hv
    | evaluate frame expression =>
      have hsame : (d.evaluate frame expression).2.frames = d.frames := by
        unfold evaluate
        repeat' split
        all_goals rfl
      rw [after, hsame] at hv
      exact ⟨rfl, Or.inl hv⟩
    | attach a =>
      simp only [after, attach] at hv
      split at hv
      · exact ⟨rfl, Or.inl hv⟩
      · split at hv <;> exact ⟨rfl, Or.inl hv⟩
    | setBreakpoints | setFunctionBreakpoints | setExceptionBreakpoints =>
      simp only [after, setBreakpoints, setFunctionBreakpoints, setExceptionBreakpoints] at hv
      split at hv <;> exact ⟨rfl, Or.inl hv⟩
    | pause p u =>
      simp only [after, pause] at hv
      split at hv
      · exact ⟨rfl, Or.inl hv⟩
      · split at hv <;> exact ⟨rfl, Or.inl hv⟩
    | children | reclaim | report | announce | exited | output => exact ⟨rfl, Or.inl hv⟩

theorem exceptions_wait {d : Debugger C}
    (h : ∀ t v, d.frames.exceptions.get? t = some v →
      ∃ s, d.coordinator.suspended.get? t = some s) (e : Happening C) {t : ThreadId} {v : Value}
    (hv : (d.undergo e).frames.exceptions.get? t = some v) :
    ∃ s, (d.undergo e).coordinator.suspended.get? t = some s := by
  obtain ⟨hreleases, hbefore⟩ := exceptions_of_undergo hv
  have hwaited : ∃ s, d.coordinator.suspended.get? t = some s := by
    rcases hbefore with hold | hwaits
    · exact h t v hold
    · exact hwaits
  obtain ⟨s, hs⟩ := hwaited
  have hturn := turn_undergo d e t
  rw [hreleases] at hturn
  exact ⟨s, hturn.stays hs⟩

theorem acquainted_through (o : Options) (hs : List (Happening C)) :
    Acquainted ((new o : Debugger C).through hs) := by
  have hframed := framed_through (C := C) o hs
  refine ⟨?_, ?_, ?_⟩
  · intro id f hf
    obtain ⟨s, hs, _⟩ := hframed.found id f hf
    exact ⟨s, hs⟩
  · intro p id hp
    obtain ⟨s, f, hs, _, rfl⟩ := hframed.placed p id hp
    exact ⟨s, hs⟩
  · clear hframed
    have hnew : ∀ t v, (new o : Debugger C).frames.exceptions.get? t = some v →
        ∃ s, (new o : Debugger C).coordinator.suspended.get? t = some s := by
      intro t v hv
      contradiction
    unfold through
    generalize new o = d at hnew
    induction hs generalizing d with
    | nil => exact hnew
    | cons e hs ih => exact ih _ fun t v hv => exceptions_wait hnew e hv

omit [Context C] in
theorem Acquainted.forgetThread {d : Debugger C} (h : Acquainted d) {t : ThreadId}
    (ht : d.coordinator.suspended.get? t = none) : d.frames.forgetThread t = d.frames := by
  refine KnownFrames.forgetThread_eq_self ?_ ?_ ?_
  · rintro id f hf rfl
    obtain ⟨s, hs⟩ := h.frames id f hf
    rw [hs] at ht
    contradiction
  · rintro p id hp rfl
    obtain ⟨s, hs⟩ := h.places p id hp
    rw [hs] at ht
    contradiction
  · rw [Option.eq_none_iff_forall_ne_some]
    intro v hv
    obtain ⟨s, hs⟩ := h.exceptions t v hv
    rw [hs] at ht
    contradiction

/-! ## Refusals -/

/-- Whether something that is asked for is done, or why not. -/
def outcome (d : Debugger C) : Event C → Except RequestError Unit
  | .attach a => (d.attach a).1
  | .setBreakpoints p path requested => (d.setBreakpoints p path requested).1.map fun _ => ()
  | .setFunctionBreakpoints requested => (d.setFunctionBreakpoints requested).1.map fun _ => ()
  | .setExceptionBreakpoints filters => (d.setExceptionBreakpoints filters).1
  | .evaluate frame expression => (d.evaluate frame expression).1.map fun _ => ()
  | .resume t => (d.resume t).1.map fun _ => ()
  | .step t mode => (d.step t mode).1
  | .pause p t => (d.pause p t).1
  | _ => .ok ()

omit [Context C] in
theorem resume_of_refused {d : Debugger C} (h : Acquainted d) {t : ThreadId} {err : RequestError}
    (hrefused : (d.resume t).1 = .error err) : (d.resume t).2 = d := by
  simp only [resume] at hrefused ⊢
  split at hrefused
  · contradiction
  · rename_i hone
    rw [if_neg hone]
    cases hs : d.coordinator.suspended.get? t with
    | none => rw [Coordinator.resume_of_absent hs, h.forgetThread hs]
    | some s =>
      rw [Coordinator.resume_of_waiting hs] at hrefused
      contradiction

theorem step_of_refused {d : Debugger C} (h : Acquainted d) {t : ThreadId} {mode : StepMode}
    {err : RequestError} (hrefused : (d.step t mode).1 = .error err) : (d.step t mode).2 = d := by
  simp only [step] at hrefused ⊢
  cases hs : d.coordinator.suspended.get? t with
  | none =>
    simp only [Coordinator.step, hs, h.forgetThread hs]
  | some s =>
    -- The entry is found again after the step has been noted.
    have hwaits : (d.coordinator.step t mode).1 = true := by
      simp only [Coordinator.step, hs]
      rw [Coordinator.resume_of_waiting (s := s) (by exact hs)]
    rw [hwaits] at hrefused
    contradiction

theorem evaluate_of_refused {d : Debugger C} {frame : Option Int} {expression : String}
    {err : RequestError} (hrefused : (d.evaluate frame expression).1 = .error err) :
    (d.evaluate frame expression).2 = d := by
  cases frame with
  | none => rfl
  | some id =>
    cases hknown : d.frames.get? id with
    | none => rw [evaluate_of_unknown hknown]
    | some known =>
      cases hs : d.coordinator.suspended.get? known.thread with
      | none => simp only [evaluate, hknown, hs]
      | some s =>
        simp only [evaluate, hknown, hs] at hrefused ⊢
        split at hrefused
        · rfl
        · rfl
        · contradiction

theorem after_of_refused {d : Debugger C} (h : Acquainted d) {e : Event C} {err : RequestError}
    (hrefused : d.outcome e = .error err) : d.after e = d := by
  have hmap : ∀ {α : Type} {x : Except RequestError α}, x.map (fun _ => ()) = .error err →
      x = .error err := by
    intro α x hx
    cases x with
    | error err' =>
      cases hx
      rfl
    | ok a => contradiction
  cases e with
  | resume t => exact resume_of_refused h (hmap hrefused)
  | step t mode => exact step_of_refused h hrefused
  | evaluate frame expression => exact evaluate_of_refused (hmap hrefused)
  | attach a =>
    simp only [outcome, after, attach] at hrefused ⊢
    split at hrefused
    · rfl
    · split at hrefused
      · rename_i hsecret
        rw [if_pos hsecret]
      · contradiction
  | setBreakpoints | setFunctionBreakpoints | setExceptionBreakpoints =>
    simp only [outcome, after, setBreakpoints, setFunctionBreakpoints, setExceptionBreakpoints]
      at hrefused ⊢
    split at hrefused
    · rfl
    · contradiction
  | pause p t =>
    simp only [outcome, after, pause] at hrefused ⊢
    split at hrefused
    · rfl
    · split at hrefused
      · contradiction
      · rename_i hunknown
        rw [if_neg hunknown]
  | detach | stackTrace | scopes | children | reclaim | report | announce | exited | output =>
    contradiction

end Debugger

end DebugAdapter
