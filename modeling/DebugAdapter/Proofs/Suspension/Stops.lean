import DebugAdapter.Proofs.Suspension.Decision

/-!
# Reports that stop their thread

A report stops its thread for a reason if the thread has to wait and stands in the table for that
reason. While a client is there, `stopsFor_line_iff` reads this off the stop that is due before a
line, and `hear_entry_iff` off what fires on a function entry.
-/

namespace DebugAdapter.Coordinator

variable {C : Type} [Context C]

def StopsFor (c : Coordinator C) (ctx : C) (r : Report) (reason : StopReason) : Prop :=
  (c.hear ctx r).1 = true ∧ ∃ s, (c.hear ctx r).2.suspended.get? (Context.thread ctx) = some s ∧
    s.stop.reason = reason

/-- There is no condition, or it holds for the thread where it stands. -/
def Applies (ctx : C) (condition : Option String) : Prop :=
  ∀ text, condition = some text → Holds ctx text

theorem exists_fires_iff {ctx : C} {found : Option Hit} :
    (∃ id, Fires ctx found id) ↔ ∃ hit, found = some hit ∧ Applies ctx hit.condition := by
  constructor
  · rintro ⟨_, hit, hfound, rfl, happlies⟩
    exact ⟨hit, hfound, happlies⟩
  · rintro ⟨hit, hfound, happlies⟩
    exact ⟨hit.id, hit, hfound, rfl, happlies⟩

/-- A thread for which the expression `x` has the given truth value. -/
def deciding (value : Bool) : DescribedThread :=
  ⟨10, "ten", [], [⟨"x", none, .value (.mk (.first 1 0) none (.bool value))⟩]⟩

/-- What happens only where some element satisfies `P` happens exactly there, if it happens at all
where one does. -/
theorem iff_exists_mem_iff {α : Type} {xs : List α} {P : α → Prop} {S : Prop}
    (h : S → ∃ x ∈ xs, P x) : (S ↔ ∃ x ∈ xs, P x) ↔ S ∨ ∀ x ∈ xs, ¬P x := by
  constructor
  · intro hsame
    by_cases hS : S
    · exact Or.inl hS
    · exact Or.inr fun x hx hP => hS (hsame.mpr ⟨x, hx, hP⟩)
  · rintro (hS | hnone)
    · exact ⟨h, fun _ => hS⟩
    · exact ⟨h, fun ⟨x, hx, hP⟩ => absurd hP (hnone x hx)⟩

section
variable {c : Coordinator C} {ctx : C} {file : String} {line : Nat} {stop : Stop}
  {reason : StopReason}

theorem suspended_suspend (h : c.attached = true) :
    (c.suspend ctx file line stop).2.suspended.get? (Context.thread ctx) =
      some ⟨ctx, file, line, stop, c.gates⟩ := by
  rw [suspend_of_attached h, notify_suspended]
  simp [parked, Table.get?_insert]

theorem hear_line (hcurrent : Current c) (hattached : c.attached = true) :
    c.hear ctx (.line file line) = c.checkLine ctx file line :=
  atLine_eq_checkLine hcurrent (.of_attached hattached) ctx file line

theorem stopsFor_line_iff (hcurrent : Current c) (hattached : c.attached = true) :
    c.StopsFor ctx (.line file line) reason ↔
      ∃ stop, Due c ctx file line stop ∧ stop.reason = reason := by
  rw [StopsFor, hear_line hcurrent hattached]
  constructor
  · rintro ⟨hwaits, s, hs, hreason⟩
    cases hdecide : c.decide? ctx file line with
    | none =>
      simp only [checkLine, hdecide] at hwaits
      contradiction
    | some decision =>
      obtain ⟨stop, d⟩ := decision
      have hd : d.attached = true := by
        cases decide?_decided hdecide <;> exact hattached
      refine ⟨stop, due_of_decide? hdecide, ?_⟩
      simp only [checkLine, hdecide, suspended_suspend hd, Option.some.injEq] at hs
      rw [← hreason, ← hs]
  · rintro ⟨stop, hdue, rfl⟩
    have husedUp : (c.usedUp (Context.thread ctx) stop.reason).attached = true :=
      (congrArg Setup.attached (usedUp_setup c _ _)).trans hattached
    simp only [checkLine, hdue.decide?_eq]
    refine ⟨?_, _, suspended_suspend husedUp, rfl⟩
    rw [suspend_of_attached husedUp]

/-- A report on a function entry stops the thread exactly if the breakpoint looked up fires. -/
theorem hear_entry_iff (hcurrent : Current c) (hattached : c.attached = true) {function : String}
    {component : Option String} :
    (c.hear ctx (.entry function component file line)).1 = true ↔
      ∃ id, Fires ctx (c.functions.check function component) id := by
  have hfull : c.hear ctx (.entry function component file line) =
      c.checkEntry ctx function component file line :=
    atEntry_eq_checkEntry hcurrent (.of_attached hattached) ctx function component file line
  simp only [hfull, ← fires?_eq_some_some_iff]
  unfold checkEntry
  split
  · rename_i id hfires
    simp [hfires, suspend_of_attached hattached]
  · rename_i hother
    simp only [Bool.false_eq_true, false_iff, not_exists]
    exact hother

end

end DebugAdapter.Coordinator
