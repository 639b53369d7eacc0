import DebugAdapter.Proofs.Suspension.Activity
import DebugAdapter.Suspension.Described

/-!
# Why a thread stops before a line

`Due` ranks the reasons to stop: an announced exception, a breakpoint, a pause, a step. A report
before a line stops the thread for the stop that is due and for no other, and what a stop uses up
depends on its reason alone (`Spent`). Conditions are evaluated at most once; an evaluator that
breaks down keeps the thread going.
-/

namespace DebugAdapter.Coordinator

variable {C : Type} [Context C]

/-- A condition has the value true where the thread stands. -/
def Holds (ctx : C) (condition : String) : Prop :=
  ∃ v, (Context.evaluate ctx 0 condition 0).1 = .ok v ∧ v.truth = .ok true

/-- What was looked up fires, without a condition or with one that holds. -/
def Fires (ctx : C) (found : Option Hit) (id : Nat) : Prop :=
  ∃ hit, found = some hit ∧ hit.id = id ∧ ∀ condition, hit.condition = some condition →
    Holds ctx condition

/-- The evaluator breaks down at the condition of what was looked up. -/
def Breaks (ctx : C) (found : Option Hit) : Prop :=
  ∃ hit condition, found = some hit ∧ hit.condition = some condition ∧
    (Context.evaluate ctx 0 condition 0).1 = .error .crashed

theorem holds?_eq_some_true_iff {ctx : C} {condition : String} :
    holds? ctx condition = some true ↔ Holds ctx condition := by
  unfold holds? Holds
  split
  · rename_i v hv
    cases htruth : v.truth with
    | ok b => simp [hv, Except.toOption, htruth]
    | error e => simp [hv, Except.toOption, htruth]
  · rename_i message hv
    simp [hv]
  · rename_i hv
    simp [hv]

theorem holds?_eq_none_iff {ctx : C} {condition : String} :
    holds? ctx condition = none ↔ (Context.evaluate ctx 0 condition 0).1 = .error .crashed := by
  unfold holds?
  split <;> simp [*]

theorem fires?_eq_some_some_iff {ctx : C} {found : Option Hit} {id : Nat} :
    fires? ctx found = some (some id) ↔ Fires ctx found id := by
  match found with
  | none => simp [fires?, Fires]
  | some ⟨n, none⟩ => simp [fires?, Fires]
  | some ⟨n, some condition⟩ =>
    simp only [fires?, Fires, Option.map_eq_some_iff, Option.some.injEq, exists_eq_left',
      forall_eq', ← holds?_eq_some_true_iff]
    constructor
    · rintro ⟨b, hb, hid⟩
      cases b
      · simp at hid
      · exact ⟨by simpa using hid, hb⟩
    · rintro ⟨rfl, hholds⟩
      exact ⟨true, hholds, rfl⟩

theorem fires?_eq_none_iff {ctx : C} {found : Option Hit} :
    fires? ctx found = none ↔ Breaks ctx found := by
  match found with
  | none => simp [fires?, Breaks]
  | some ⟨n, none⟩ => simp [fires?, Breaks]
  | some ⟨n, some condition⟩ => simp [fires?, Breaks, holds?_eq_none_iff]

/-- No breakpoint stops the thread, and looking for one does not break the evaluator. -/
def Passes (ctx : C) (found : Option Hit) : Prop := (∀ id, ¬Fires ctx found id) ∧ ¬Breaks ctx found

theorem fires?_eq_some_none_iff {ctx : C} {found : Option Hit} :
    fires? ctx found = some none ↔ Passes ctx found := by
  rw [Passes, ← fires?_eq_none_iff]
  simp only [← fires?_eq_some_some_iff]
  cases fires? ctx found with
  | none => simp
  | some id? => cases id? <;> simp

/-! ## The stop that is due -/

/-- The first reason that applies to a thread before a line. -/
inductive Due (c : Coordinator C) (ctx : C) (file : String) (line : Nat) : Stop → Prop where
  | exception {e : Exception} (h : c.pending.get? (Context.thread ctx) = some e) :
    Due c ctx file line { reason := .exception, exception := some e }
  | breakpoint {id : Nat} (hpending : c.pending.get? (Context.thread ctx) = none)
    (h : Fires ctx (c.breakpoints.check file line) id) :
    Due c ctx file line { reason := .breakpoint, breakpoint := some id }
  | pause (hpending : c.pending.get? (Context.thread ctx) = none)
    (hpasses : Passes ctx (c.breakpoints.check file line))
    (h : c.pauses.contains (Context.thread ctx) = true ∨ c.pauses.contains anyThread = true) :
    Due c ctx file line { reason := .pause }
  | step {s : Step} (hpending : c.pending.get? (Context.thread ctx) = none)
    (hpasses : Passes ctx (c.breakpoints.check file line))
    (hown : c.pauses.contains (Context.thread ctx) = false)
    (hany : c.pauses.contains anyThread = false)
    (hstep : c.steps.get? (Context.thread ctx) = some s)
    (h : s.accepts (Context.callDepth ctx) = true) :
    Due c ctx file line { reason := .step }

/-- What a decision has used up already when the thread is made to wait. -/
def usedUp (c : Coordinator C) (t : ThreadId) : StopReason → Coordinator C
  | .exception => { c with pending := c.pending.erase t }.refresh
  | .pause =>
    if c.pauses.contains t then { c with pauses := c.pauses.erase t }.refresh
    else { c with pauses := c.pauses.erase anyThread }.refresh
  | .breakpoint | .functionBreakpoint | .step => c

section
variable {c d : Coordinator C} {ctx : C} {file : String} {line : Nat} {stop : Stop}

theorem Due.decide?_eq (h : Due c ctx file line stop) :
    c.decide? ctx file line = some (stop, c.usedUp (Context.thread ctx) stop.reason) := by
  cases h with
  | exception h => simp [decide?, h, usedUp]
  | breakpoint hpending h =>
    rw [← fires?_eq_some_some_iff] at h
    simp [decide?, hpending, h, usedUp]
  | pause hpending hpasses h =>
    rw [← fires?_eq_some_none_iff] at hpasses
    cases hown : c.pauses.contains (Context.thread ctx) with
    | true => simp [decide?, hpending, hpasses, consumePause?, hown, usedUp]
    | false =>
      have hany : c.pauses.contains anyThread = true := by simpa [hown] using h
      simp [decide?, hpending, hpasses, consumePause?, hown, hany, usedUp]
  | step hpending hpasses hown hany hstep h =>
    rw [← fires?_eq_some_none_iff] at hpasses
    simp [decide?, hpending, hpasses, consumePause?, hown, hany, hstep, h, usedUp]

theorem due_of_decide? (h : c.decide? ctx file line = some (stop, d)) :
    Due c ctx file line stop := by
  simp only [decide?] at h
  split at h
  · rename_i e hpending
    cases h
    exact .exception hpending
  · rename_i hpending
    split at h
    · contradiction
    · rename_i id hfires
      cases h
      exact .breakpoint hpending (fires?_eq_some_some_iff.mp hfires)
    · rename_i hfires
      have hpasses := fires?_eq_some_none_iff.mp hfires
      -- A pause goes before the step, the thread's own before the one for any thread.
      unfold consumePause? at h
      cases hown : c.pauses.contains (Context.thread ctx) <;>
        cases hany : c.pauses.contains anyThread <;> simp [hown, hany] at h
      · split at h
        · rename_i s hstep
          simp only [Option.ite_none_right_eq_some, Option.some.injEq, Prod.mk.injEq] at h
          obtain ⟨haccepts, rfl, rfl⟩ := h
          exact .step hpending hpasses hown hany hstep haccepts
        · contradiction
      all_goals
        obtain ⟨rfl, rfl⟩ := h
        exact .pause hpending hpasses (by simp [hown, hany])

/-- At most one stop is due. -/
theorem Due.unique {other : Stop} (h : Due c ctx file line stop)
    (hother : Due c ctx file line other) : stop = other := by
  have heq := h.decide?_eq.symm.trans hother.decide?_eq
  rw [Option.some.injEq, Prod.mk.injEq] at heq
  exact heq.1

/-! ## What a stop uses up -/

/-- A stop for a reason has used up the step and the pause of its thread; the announced exception
goes only when it is what the thread stops at, and the pause for any thread only in place of a pause
of its own. -/
structure Spent (c d : Coordinator C) (t : ThreadId) (reason : StopReason) : Prop where
  step : d.steps.get? t = none
  pause : d.pauses.get? t = none
  pending : d.pending.get? t = if reason = .exception then none else c.pending.get? t
  anyPause : d.pauses.get? anyThread =
    if reason = .pause ∧ c.pauses.contains t = false then none else c.pauses.get? anyThread

/-- What is kept for a thread is what it was. The pause for any thread belongs to none. -/
structure Untouched (c d : Coordinator C) (u : ThreadId) : Prop where
  step : d.steps.get? u = c.steps.get? u
  pause : u ≠ anyThread → d.pauses.get? u = c.pauses.get? u
  pending : d.pending.get? u = c.pending.get? u
  suspended : d.suspended.get? u = c.suspended.get? u

omit [Context C] in
theorem Untouched.refl (c : Coordinator C) (u : ThreadId) : Untouched c c u :=
  ⟨rfl, fun _ => rfl, rfl, rfl⟩

omit [Context C] in
theorem usedUp_setup (c : Coordinator C) (t : ThreadId) (reason : StopReason) :
    (c.usedUp t reason).setup = c.setup := by
  cases reason with
  | pause =>
    simp only [usedUp]
    split <;> rfl
  | exception | breakpoint | functionBreakpoint | step => rfl

theorem Due.checkLine_eq (h : Due c ctx file line stop) (hattached : c.attached = true) :
    c.checkLine ctx file line =
      (true, ((c.usedUp (Context.thread ctx) stop.reason).parked ctx file line stop).notify
        (stop.notification (Context.thread ctx))) := by
  have husedUp : (c.usedUp (Context.thread ctx) stop.reason).attached = true :=
    (congrArg Setup.attached (usedUp_setup c _ _)).trans hattached
  simp only [checkLine, h.decide?_eq, suspend_of_attached husedUp]

theorem checkLine_of_not_due (h : ∀ stop, ¬Due c ctx file line stop) :
    c.checkLine ctx file line = (false, c) := by
  cases hdecide : c.decide? ctx file line with
  | none => simp only [checkLine, hdecide]
  | some decision => exact absurd (due_of_decide? hdecide) (h decision.1)

theorem spent_parked (c : Coordinator C) (hthread : Context.thread ctx ≠ anyThread) :
    Spent c ((c.usedUp (Context.thread ctx) stop.reason).parked ctx file line stop)
      (Context.thread ctx) stop.reason := by
  have hany : anyThread ≠ Context.thread ctx := hthread.symm
  cases hreason : stop.reason with
  | exception | breakpoint | functionBreakpoint | step =>
    constructor <;> simp [parked, satisfy, refresh, usedUp, Table.get?_erase, hany]
  | pause =>
    cases hown : c.pauses.contains (Context.thread ctx) <;> constructor <;>
      simp [parked, satisfy, refresh, usedUp, Table.get?_erase, hany, hown]

theorem untouched_parked (c : Coordinator C) {u : ThreadId} (hu : u ≠ Context.thread ctx) :
    Untouched c ((c.usedUp (Context.thread ctx) stop.reason).parked ctx file line stop) u := by
  cases hreason : stop.reason with
  | exception | breakpoint | functionBreakpoint | step =>
    constructor <;> simp [parked, satisfy, refresh, usedUp, Table.get?_erase, Table.get?_insert, hu]
  | pause =>
    cases hown : c.pauses.contains (Context.thread ctx) <;> constructor <;>
      simp +contextual [parked, satisfy, refresh, usedUp, Table.get?_erase, Table.get?_insert, hu,
        hown]

end

omit [Context C] in
theorem Spent.notify {c d : Coordinator C} {t : ThreadId} {reason : StopReason}
    (h : Spent c d t reason) (n : Notification) : Spent c (d.notify n) t reason := by
  unfold Coordinator.notify
  split
  · exact ⟨h.step, h.pause, h.pending, h.anyPause⟩
  · exact h

omit [Context C] in
theorem Untouched.notify {c d : Coordinator C} {u : ThreadId} (h : Untouched c d u)
    (n : Notification) : Untouched c (d.notify n) u := by
  unfold Coordinator.notify
  split
  · exact ⟨h.step, h.pause, h.pending, h.suspended⟩
  · exact h

omit [Context C] in
theorem notify_suspended (c : Coordinator C) (n : Notification) :
    (c.notify n).suspended = c.suspended := by
  unfold notify
  split <;> rfl

/-! ## The report before a line -/

/-- While a client is there, a thread stops before a line for the first reason that applies and for
no other, also where the evaluator breaks down. The stop spends what its reason says; a thread that
goes on spends nothing; and nothing that is kept for other threads is touched. -/
theorem atLine_first_reason (fold : Path.Folding) (ops : List (Operation C)) (ctx : C)
    (file : String) (line : Nat)
    (hattached : ((new fold : Coordinator C).run ops).attached = true)
    (hthread : Context.thread ctx ≠ anyThread) :
    let c := (new fold : Coordinator C).run ops
    let r := c.atLine ctx file line
    (∀ stop, Due c ctx file line stop ↔ r.1 = true ∧
      ∃ gate, r.2.suspended.get? (Context.thread ctx) = some ⟨ctx, file, line, stop, gate⟩) ∧
    ((∀ stop, ¬Due c ctx file line stop) → r = (false, c)) ∧
    (∀ stop, Due c ctx file line stop → Spent c r.2 (Context.thread ctx) stop.reason) ∧
    r.2.setup = c.setup ∧ ∀ u, u ≠ Context.thread ctx → Untouched c r.2 u := by
  intro c r
  have hr : r = c.checkLine ctx file line :=
    atLine_eq_checkLine (run_current fold ops) (.of_attached hattached) ctx file line
  rcases Classical.em (∃ stop, Due c ctx file line stop) with ⟨stop, hdue⟩ | hnone
  · have hstopped := hr.trans (hdue.checkLine_eq hattached)
    have hentry : r.2.suspended.get? (Context.thread ctx) =
        some ⟨ctx, file, line, stop, (c.usedUp (Context.thread ctx) stop.reason).gates⟩ := by
      rw [hstopped, notify_suspended]
      simp [parked, Table.get?_insert]
    refine ⟨fun other => ⟨?_, ?_⟩, fun h => absurd hdue (h stop), ?_, ?_, ?_⟩
    · intro hother
      cases hdue.unique hother
      exact ⟨congrArg Prod.fst hstopped, _, hentry⟩
    · rintro ⟨_, gate, hgate⟩
      have hsame := Option.some.inj (hentry.symm.trans hgate)
      cases congrArg Suspension.stop hsame
      exact hdue
    · intro other hother
      cases hdue.unique hother
      rw [hstopped]
      exact (spent_parked c hthread).notify _
    · rw [hstopped, notify_setup]
      exact usedUp_setup c _ _
    · intro u hu
      rw [hstopped]
      exact (untouched_parked c hu).notify _
  · have hgoes : r = (false, c) := hr.trans (checkLine_of_not_due fun stop h => hnone ⟨stop, h⟩)
    refine ⟨fun stop => ⟨fun h => absurd ⟨stop, h⟩ hnone, ?_⟩, fun _ => hgoes,
      fun stop h => absurd ⟨stop, h⟩ hnone, ?_, ?_⟩
    · rintro ⟨htrue, _⟩
      rw [hgoes] at htrue
      contradiction
    · rw [hgoes]
    · intro u _
      rw [hgoes]
      exact .refl c u

/-- A thread has a step in progress and is told to stop, alone and with all others; an exception of
another thread is announced. -/
def stepAndPauses : List (Operation DescribedThread) :=
  let ten : DescribedThread := ⟨10, "ten", [], []⟩
  [.attach false, .setBreakOnUncaught true, .report ten (.halt "a" 1 none), .step 10 .into,
    .requestPause 10, .requestPause 1, .announce 11 ⟨"E", "m", none, "", none⟩ false]

theorem atLine_first_reason_stepAndPauses :
    let ten : DescribedThread := ⟨10, "ten", [], []⟩
    let c := (new .exact : Coordinator DescribedThread).run stepAndPauses
    let r := c.atLine ten "a" 2
    c.attached = true ∧ Context.thread ten ≠ anyThread ∧ c.steps.contains 10 = true ∧
      Due c ten "a" 2 { reason := .pause } ∧ Spent c r.2 10 .pause ∧
      r.2.pauses.get? anyThread = some () ∧ Untouched c r.2 11 := by
  intro ten c r
  obtain ⟨hdue, _, hspent, _, huntouched⟩ :=
    atLine_first_reason .exact stepAndPauses ten "a" 2 rfl (by decide)
  have hpause : Due c ten "a" 2 { reason := .pause } := (hdue _).mpr ⟨rfl, 1, rfl⟩
  exact ⟨rfl, by decide, rfl, hpause, hspent _ hpause, (hspent _ hpause).anyPause,
    huntouched 11 (by decide)⟩

end DebugAdapter.Coordinator
