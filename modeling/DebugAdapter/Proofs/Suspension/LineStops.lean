import DebugAdapter.Proofs.Breakpoint.Lines
import DebugAdapter.Proofs.Suspension.Stops

/-!
# Stops at line breakpoints

Several breakpoints may stand on one line. Only the first bound one is asked: a thread stops if that
one has no condition or its condition holds, and goes on otherwise, also where a later breakpoint of
the line has no condition at all (`unconditional_passed_over`).
-/

namespace DebugAdapter.Coordinator

variable {C : Type} [Context C]

/-- Line breakpoints change as their registry does, one change at a time. -/
def Registered (c : Coordinator C) : Operation C → Prop
  | .setBreakpoints b => ∃ change, b = c.breakpoints.after change
  | _ => True

theorem registered_run (fold : Path.Folding) {ops : List (Operation C)}
    (hops : Along Registered (new fold) ops) :
    ∃ cs, ((new fold : Coordinator C).run ops).breakpoints = (LineBreakpoints.new fold).run cs := by
  refine run_keeps (P := Registered)
    (I := fun c : Coordinator C => ∃ cs, c.breakpoints = (LineBreakpoints.new fold).run cs)
    ?_ hops ⟨[], rfl⟩
  rintro c op hop ⟨cs, hcs⟩
  have hsetup : (c.after op).breakpoints = (op.configure c.setup).breakpoints :=
    congrArg Setup.breakpoints (after_setup c op)
  rw [hsetup]
  cases op with
  | setBreakpoints b =>
    obtain ⟨change, rfl⟩ := hop
    refine ⟨cs ++ [change], ?_⟩
    rw [LineBreakpoints.run, List.foldl_append]
    exact congrArg (LineBreakpoints.after · change) hcs
  | _ => exact ⟨cs, hcs⟩

/-- The bound breakpoints on a line, in the order of their registration. -/
def breakpointsAt (c : Coordinator C) (file : String) (line : Nat) : List Breakpoint :=
  c.breakpoints.all.filter (·.covers (Path.canonical c.breakpoints.fold file) line)

omit [Context C] in
theorem check_eq_head? {c : Coordinator C} (h : c.breakpoints.summary = .of c.breakpoints.all)
    (file : String) (line : Nat) :
    c.breakpoints.check file line = (c.breakpointsAt file line).head?.map Breakpoint.hit := by
  rw [LineBreakpoints.check_eq_find h, breakpointsAt, List.head?_filter]

theorem stopsFor_breakpoint_iff {c : Coordinator C} {ctx : C} {file : String} {line : Nat}
    (hcurrent : Current c) (hattached : c.attached = true)
    (hpending : c.pending.get? (Context.thread ctx) = none) :
    c.StopsFor ctx (.line file line) .breakpoint ↔
      ∃ id, Fires ctx (c.breakpoints.check file line) id := by
  rw [stopsFor_line_iff hcurrent hattached]
  constructor
  · rintro ⟨stop, hdue, hreason⟩
    cases hdue with
    | breakpoint _ hfires => exact ⟨_, hfires⟩
    | exception | pause | step => contradiction
  · rintro ⟨id, hfires⟩
    exact ⟨_, .breakpoint hpending hfires, rfl⟩

/-- While a client is there and no exception is announced for a thread, whatever changes the
registry has been through: the thread stops for a breakpoint before a line exactly if the first
bound breakpoint on the line applies. So "some bound breakpoint on the line applies" is the same as
stopping exactly where the first one applies or none does. -/
theorem stops_for_first_breakpoint (fold : Path.Folding) (ops : List (Operation C)) (ctx : C)
    (file : String) (line : Nat) (hops : Along Registered (new fold) ops)
    (hattached : ((new fold : Coordinator C).run ops).attached = true)
    (hpending : ((new fold : Coordinator C).run ops).pending.get? (Context.thread ctx) = none) :
    let c := (new fold : Coordinator C).run ops
    let stops := c.StopsFor ctx (.line file line) .breakpoint
    let here := c.breakpointsAt file line
    (stops ↔ ∃ b, here.head? = some b ∧ Applies ctx b.condition) ∧
    ((stops ↔ ∃ b ∈ here, Applies ctx b.condition) ↔
      (∃ b, here.head? = some b ∧ Applies ctx b.condition) ∨
        ∀ b ∈ here, ¬Applies ctx b.condition) := by
  intro c stops here
  obtain ⟨cs, hcs⟩ := registered_run fold hops
  have hrecorded := LineBreakpoints.recorded_run (.new fold) cs
  rw [← hcs] at hrecorded
  have hfires : stops ↔ ∃ id, Fires ctx (c.breakpoints.check file line) id :=
    stopsFor_breakpoint_iff (run_current fold ops) hattached hpending
  have hfirst : stops ↔ ∃ b, here.head? = some b ∧ Applies ctx b.condition := by
    rw [hfires, exists_fires_iff, check_eq_head? hrecorded.summary]
    constructor
    · rintro ⟨hit, hhit, happlies⟩
      obtain ⟨b, hb, rfl⟩ := Option.map_eq_some_iff.mp hhit
      exact ⟨b, hb, happlies⟩
    · rintro ⟨b, hb, happlies⟩
      exact ⟨b.hit, Option.map_eq_some_iff.mpr ⟨b, hb, rfl⟩, happlies⟩
  have hsome : stops → ∃ b ∈ here, Applies ctx b.condition := by
    intro hstops
    obtain ⟨b, hb, happlies⟩ := hfirst.mp hstops
    exact ⟨b, List.mem_of_mem_head? hb, happlies⟩
  refine ⟨hfirst, ?_⟩
  rw [iff_exists_mem_iff hsome, hfirst]

/-- Two breakpoints on one line, of which the first has a condition. -/
def conditionFirst : List (Operation DescribedThread) :=
  let requested : List Breakpoint.Request := [⟨10, some "x"⟩, ⟨10, none⟩]
  [.attach false, .setBreakpoints ((LineBreakpoints.new .exact).after (.replace "/a" requested [10]))]

theorem stops_for_first_breakpoint_conditionFirst :
    let c := (new .exact : Coordinator DescribedThread).run conditionFirst
    Along Registered (new .exact) conditionFirst ∧ c.attached = true ∧
      c.pending.get? (Context.thread (deciding true)) = none ∧
      (c.breakpointsAt "/a" 10).length = 2 ∧
      c.StopsFor (deciding true) (.line "/a" 10) .breakpoint := by
  intro c
  have hops : Along Registered (new .exact : Coordinator DescribedThread) conditionFirst :=
    ⟨trivial, ⟨_, rfl⟩, trivial⟩
  obtain ⟨hfirst, _⟩ := stops_for_first_breakpoint .exact conditionFirst (deciding true) "/a" 10
    hops rfl rfl
  have happlies : Applies (deciding true) (some "x") := by
    rintro _ ⟨⟩
    exact ⟨_, rfl, rfl⟩
  exact ⟨hops, rfl, rfl, rfl, hfirst.mpr ⟨_, rfl, happlies⟩⟩

/-- The first breakpoint of the line does not apply; the second, which has no condition, is not
asked. -/
theorem unconditional_passed_over :
    let c := (new .exact : Coordinator DescribedThread).run conditionFirst
    c.attached = true ∧ c.pending.get? (Context.thread (deciding false)) = none ∧
      (∃ b ∈ c.breakpointsAt "/a" 10, b.condition = none) ∧
      ¬(c.StopsFor (deciding false) (.line "/a" 10) .breakpoint ↔
        ∃ b ∈ c.breakpointsAt "/a" 10, Applies (deciding false) b.condition) := by
  intro c
  have hsecond : ∃ b ∈ c.breakpointsAt "/a" 10, b.condition = none :=
    ⟨⟨2, "/a", 10, none, true⟩, by decide, rfl⟩
  refine ⟨rfl, rfl, hsecond, ?_⟩
  intro hsame
  obtain ⟨b, hb, hnone⟩ := hsecond
  have hstops := hsame.mpr ⟨b, hb, by simp [hnone, Applies]⟩
  have hgoes : (c.hear (deciding false) (.line "/a" 10)).1 = false := rfl
  exact Bool.false_ne_true (hgoes.symm.trans hstops.1)

end DebugAdapter.Coordinator
