import DebugAdapter.Debugger.Requests
import DebugAdapter.Proofs.Breakpoint.Lines
import DebugAdapter.Proofs.Script.Runs
import DebugAdapter.Script.Host

/-!
# The lines that a script reports

A script reports from lines of its own statements only. This is clear for what is written in its
blocks; the bodies of functions are reached through values, so `OfProgram` also keeps that every
function that is alive has been defined by a statement of the script.

Breakpoints are verified by the same lines, so one that is not verified is never passed.
-/

namespace DebugAdapter.Script

/-- The function is defined by a statement of the program. -/
def Program.Defines (p : Program) (d : FunctionDef) : Prop :=
  Stmt.Within p.body (.func d.line d.name d.params d.body) ∧ d.file = p.file

/-- What is to be done next is part of the program, and so is a function on its way to a caller. -/
def Point.OfProgram (p : Program) : Point → Prop
  | .reported s => Stmt.Within p.body s
  | .turning line test body => Stmt.Within p.body (.loop line test body)
  | .raised line _ => ∃ s, Stmt.Within p.body s ∧ s.line = line
  | .returning v => ∀ d, ShapeCarries v.shape d → p.Defines d
  | .next | .unwinding _ | .ended => True

theorem Point.ofProgram_iff {p : Program} {point : Point} {s : Stmt}
    (h : point.executes? = some s) : point.OfProgram p ↔ Stmt.Within p.body s := by
  cases point with
  | reported | turning =>
    cases h
    exact Iff.rfl
  | next | raised | returning | unwinding | ended => contradiction

namespace Execution

/-- All that an execution still has to do is part of the program, and so is every function that is
alive. -/
structure OfProgram (p : Program) (x : Execution) : Prop where
  program : x.program = p
  tasks : ∀ task ∈ x.tasks, Stmt.Within p.body task.stmt
  point : x.point.OfProgram p
  functions : ∀ d, Carries x.stack.values d → p.Defines d

section
variable {p : Program} {x y : Execution} {a : Option Action}

theorem ofProgram_start (id : ThreadId) (name : String) (p : Program) :
    OfProgram p (start id name p) where
  program := rfl
  tasks := by
    intro task htask
    obtain ⟨s, hs, rfl⟩ := List.mem_map.mp htask
    exact .here hs
  point := trivial
  functions := fun _ hd => absurd hd not_carries_nil

namespace OfProgram

theorem defines (h : OfProgram p x) {i : Nat} {d : FunctionDef}
    (hd : Sees (x.stack.lookup i) d) : p.Defines d := by
  obtain ⟨name, v, hv, hd⟩ := hd
  exact h.functions d (carries_of_mem (Stack.mem_values_of_lookup hv) hd)

theorem gives (h : OfProgram p x) {s : Stmt} (hs : Stmt.Within p.body s) {v : Value}
    (hv : Gives x s v) {d : FunctionDef} (hd : ShapeCarries v.shape d) : p.Defines d := by
  rcases hv d hd with hd | hd
  · exact h.defines hd
  · cases s with
    | func line name params body =>
      cases hd
      exact ⟨hs, congrArg Program.file h.program⟩
    | _ => contradiction

theorem assign (h : OfProgram p x) {name : String} {v : Value}
    (hv : ∀ d, ShapeCarries v.shape d → p.Defines d) : OfProgram p (x.assign name v) := by
  refine ⟨h.program, h.tasks, h.point, ?_⟩
  intro d hd
  obtain ⟨w, hw, hcarries⟩ := carries_iff.mp hd
  rcases Stack.mem_values_assign hw with rfl | hw
  · exact hv d hcarries
  · exact h.functions d (carries_of_mem hw hcarries)

theorem executed (h : OfProgram p x) {s : Stmt} (hs : Stmt.Within p.body s)
    (hstep : Executed x s a y) : OfProgram p y := by
  cases hstep with
  | printed text made | slept millis made => exact ⟨h.program, h.tasks, h.point, h.functions⟩
  | halted label => exact h
  | assigned name v made hv =>
    have hmade : OfProgram p { x with made } := ⟨h.program, h.tasks, h.point, h.functions⟩
    exact hmade.assign fun d hd => h.gives hs hv hd
  | entered tasks made htasks =>
    refine ⟨h.program, ?_, h.point, h.functions⟩
    intro task htask
    rcases List.mem_append.mp htask with htask | htask
    · rcases (htasks task htask).2 with heq | hinner
      · exact heq ▸ hs
      · exact .inner hs hinner
    · exact h.tasks task htask
  | called d frame made hcall hd hframe hargs =>
    -- The body comes from a value, which carries functions of the program only.
    have hdefines := h.defines hd
    refine ⟨h.program, ?_, h.point, ?_⟩
    · intro task htask
      rcases List.mem_append.mp htask with htask | htask
      · obtain ⟨t, ht, rfl⟩ := List.mem_map.mp htask
        exact .inner hdefines.1 ht
      · rcases List.mem_cons.mp htask with rfl | htask
        · exact hs
        · exact h.tasks task htask
    · intro d' hd'
      rw [Stack.values_setLine, Stack.values_push] at hd'
      rcases carries_append_iff.mp hd' with hd' | hd'
      · exact h.functions d' (carries_append_iff.mpr (Or.inl hd'))
      · rcases carries_append_iff.mp hd' with hd' | hd'
        · exact h.defines (hargs d' hd')
        · exact h.functions d' (carries_append_iff.mpr (Or.inr hd'))
  | returned v made hv =>
    exact ⟨h.program, h.tasks, fun d hd => h.gives hs hv hd, h.functions⟩

theorem rest (h : OfProgram p x) {task : Task} {rest : List Task} (htasks : x.tasks = task :: rest)
    {stack : Stack} (hstack : stack.values ⊆ x.stack.values) {point : Point}
    (hpoint : point.OfProgram p) (made : Nat) :
    OfProgram p { x with stack, tasks := rest, point, made } where
  program := h.program
  tasks := fun t ht => h.tasks t (htasks ▸ List.mem_cons_of_mem task ht)
  point := hpoint
  functions := fun d hd => h.functions d (hd.mono hstack)

theorem step (h : OfProgram p x) {stops : Bool} (hstep : Stepped x stops a y) :
    OfProgram p y := by
  cases hstep with
  | reported task rest point hpoint htasks hcaller hp =>
    have hstack : (x.stack.setLine task.stmt.line).values ⊆ x.stack.values := by
      rw [Stack.values_setLine]
      exact List.Subset.refl _
    have hpoint : point.OfProgram p := by
      rw [Point.ofProgram_iff hp]
      exact h.tasks task (htasks ▸ List.mem_cons_self ..)
    exact h.rest htasks hstack hpoint x.made
  | executed s a y hs hexecuted =>
    have hnext : OfProgram p { x with point := .next } := ⟨h.program, h.tasks, trivial, h.functions⟩
    exact hnext.executed ((Point.ofProgram_iff hs).mp h.point) hexecuted
  | failed s f hs hexecute =>
    refine ⟨h.program, h.tasks, ?_, h.functions⟩
    cases stops with
    | true => exact ⟨s, (Point.ofProgram_iff hs).mp h.point, rfl⟩
    | false => trivial
  | again line e hpoint => exact ⟨h.program, h.tasks, trivial, h.functions⟩
  | left caller rest v made hpoint htasks =>
    have hnext : Point.OfProgram p .next := trivial
    have hleft : OfProgram p { x with stack := x.stack.pop, tasks := rest, point := .next, made } :=
      h.rest htasks (Stack.values_pop_subset _) hnext made
    have hv : ∀ d, ShapeCarries v.shape d → p.Defines d := by
      rcases hpoint with hpoint | ⟨-, hplain⟩
      · have hreturning := h.point
        rw [hpoint] at hreturning
        exact hreturning
      · exact fun d hd => absurd hd hplain.not_carries
    cases caller with
    | assignCall line name c => exact hleft.assign hv
    | _ => exact hleft
  | dropped task rest hpoint htasks hcaller =>
    exact h.rest htasks (List.Subset.refl _) h.point x.made
  | unwound e caller rest hpoint htasks =>
    exact h.rest htasks (Stack.values_pop_subset _) h.point x.made
  | finished hpoint htasks | uncaught e hpoint htasks =>
    exact ⟨h.program, h.tasks, trivial, fun d hd =>
      h.functions d (hd.mono (Stack.values_pop_subset _))⟩
  | ended hpoint => exact h

theorem after (h : OfProgram p x) (answers : List Bool) : OfProgram p (x.after answers) :=
  after_keeps (fun x stops hx => hx.step (stepped x stops)) h answers

/-- A report comes from the line of a statement, or from that of a function. -/
theorem report (h : OfProgram p x) {r : Report} (hr : x.report? = some r) :
    r.file = p.file ∧ ∃ s, Stmt.Within p.body s ∧ s.line = r.lineNumber := by
  have hstep := stepped x false
  unfold report? at hr
  have hfile : x.program.file = p.file := congrArg Program.file h.program
  generalize x.action? = a at hr hstep
  generalize x.proceed false = y at hstep
  cases hstep with
  | reported task rest point hpoint htasks hcaller hp =>
    cases hr
    exact ⟨hfile, task.stmt, h.tasks task (htasks ▸ List.mem_cons_self ..), rfl⟩
  | executed s a y hs hexecuted =>
    have hwithin := (Point.ofProgram_iff hs).mp h.point
    cases hexecuted with
    | printed | slept | assigned | entered | returned => contradiction
    | halted label =>
      cases hr
      exact ⟨hfile, s, hwithin, rfl⟩
    | called d frame made hcall hd hframe hargs =>
      cases hr
      have hdefines := h.defines hd
      exact ⟨hdefines.2, _, hdefines.1, rfl⟩
  | again line e hpoint =>
    cases hr
    have hraised := h.point
    rw [hpoint] at hraised
    exact ⟨hfile, hraised⟩
  | failed | left | dropped | unwound | finished | uncaught | ended => contradiction

end OfProgram

/-- A statement is executed right behind the report of its line. -/
theorem Stepped.reports {stops : Bool} (h : Stepped x stops a y) {s : Stmt}
    (hs : y.point.executes? = some s) : a = some (.line x.program.file s.line) := by
  cases h with
  | reported task rest point hpoint htasks hcaller hp =>
    obtain rfl := Option.some.inj (hp.symm.trans hs)
    rfl
  | executed t a y ht hexecuted => cases hexecuted <;> contradiction
  | failed t f ht hexecute => cases stops <;> contradiction
  | left caller rest v made hpoint htasks => cases caller <;> contradiction
  | dropped task rest hpoint htasks hcaller =>
    rcases hpoint with ⟨v, hpoint⟩ | ⟨e, hpoint⟩
    · rw [hpoint] at hs
      contradiction
    · rw [hpoint] at hs
      contradiction
  | unwound e caller rest hpoint htasks =>
    rw [hpoint] at hs
    contradiction
  | ended hpoint =>
    rw [hpoint] at hs
    contradiction
  | again | finished | uncaught => contradiction

theorem reported_of_executes (id : ThreadId) (name : String) (p : Program) (answers : List Bool)
    {s : Stmt} (hs : ((start id name p).after answers).point.executes? = some s) :
    ∃ before stops, answers = before ++ [stops] ∧
      ((start id name p).after before).report? = some (.line p.file s.line) := by
  rcases List.eq_nil_or_concat' answers with rfl | ⟨before, stops, rfl⟩
  · contradiction
  · refine ⟨before, stops, rfl, ?_⟩
    have hx := (ofProgram_start id name p).after before
    rw [after_append] at hs
    have haction := (stepped _ stops).reports hs
    rw [report?, haction, hx.program]
    rfl

end

/-- Every line that a run of a script reports is one of its executable lines, and the file is the
script's. So a breakpoint that a client gets back unverified, for a script that is loaded, is on a
line that no run of it ever reports; and one that is verified is on the line of a statement, which
is reported whenever the statement is about to be executed. -/
theorem reports_executable_lines (p : Program) :
    (∀ id name answers, ∀ x ∈ (start id name p).track answers, ∀ r, x.report? = some r →
      r.file = p.file ∧ r.lineNumber ∈ p.executableLines) ∧
    ∀ (h : Host) (m : Path.Mapper) (path : String) (requested : List Breakpoint.Request),
      h.debugger.session = some m → h.programs.get? (m.toDebuggee path) = some p →
      ∃ made d, h.debugger.setBreakpoints h.debuggee path requested = (.ok made, d) ∧
        made.map (·.line) = requested.map (·.line) ∧ ∀ b ∈ made,
          (b.verified = false → ∀ id name answers, ∀ x ∈ (start id name p).track answers,
            ∀ r, x.report? = some r → r.lineNumber ≠ b.line) ∧
          (b.verified = true → ∃ s, Stmt.Within p.body s ∧ s.line = b.line ∧
            ∀ id name answers, ((start id name p).after answers).point.executes? = some s →
              ∃ before stops, answers = before ++ [stops] ∧
                ((start id name p).after before).report? = some (.line p.file b.line)) := by
  have hreports : ∀ id name answers, ∀ x ∈ (start id name p).track answers, ∀ r,
      x.report? = some r → r.file = p.file ∧ r.lineNumber ∈ p.executableLines := by
    intro id name answers x hx r hr
    obtain ⟨before, stops, behind, -, rfl⟩ := exists_of_mem_track hx
    obtain ⟨hfile, hline⟩ := ((ofProgram_start id name p).after before).report hr
    exact ⟨hfile, mem_executableLines_iff.mpr hline⟩
  refine ⟨hreports, ?_⟩
  intro h m path requested hsession hloaded
  have hlines : h.debuggee.executableLines (m.toDebuggee path) = p.executableLines := by
    simp only [Host.debuggee, hloaded, Option.elim_some]
  have hrows := LineBreakpoints.created_rows
    (Path.canonical h.debugger.coordinator.breakpoints.fold (m.toDebuggee path))
    p.executableLines h.debugger.coordinator.breakpoints.nextId requested
  refine ⟨LineBreakpoints.created (Path.canonical h.debugger.coordinator.breakpoints.fold
    (m.toDebuggee path)) p.executableLines h.debugger.coordinator.breakpoints.nextId requested,
    (h.debugger.setBreakpoints h.debuggee path requested).2, ?_, ?_, ?_⟩
  · simp only [Debugger.setBreakpoints, hsession, hlines]
    rfl
  · have hmap := congrArg (List.map fun row : String × Nat × Option String × Bool => row.2.1) hrows
    rwa [List.map_map, List.map_map] at hmap
  · intro b hb
    have hverified : b.verified = decide (b.line ∈ p.executableLines) := by
      have hrow := List.mem_map_of_mem (f := fun b : Breakpoint =>
        (b.file, b.line, b.condition, b.verified)) hb
      rw [hrows] at hrow
      obtain ⟨q, -, hq⟩ := List.mem_map.mp hrow
      simp only [Prod.mk.injEq] at hq
      rw [← hq.2.2.2, ← hq.2.1]
    refine ⟨?_, ?_⟩
    · intro hnot id name answers x hx r hr hline
      have hmem := (hreports id name answers x hx r hr).2
      rw [hverified, decide_eq_false_iff_not] at hnot
      exact hnot (hline ▸ hmem)
    · intro hyes
      rw [hverified, decide_eq_true_iff] at hyes
      obtain ⟨s, hs, hline⟩ := mem_executableLines_iff.mp hyes
      exact ⟨s, hs, hline, fun id name answers hexecutes =>
        hline ▸ reported_of_executes id name p answers hexecutes⟩

/-- A function that is made by another one and called by the script, with breakpoints on its only
statement and on the line that closes it. -/
theorem reports_executable_lines_closure :
    let file := "/srv/nested.demo"
    let source := "func outer(n)\n  func inner()\n    print n\n  end\n  return inner\nend\n" ++
      "let f = call outer(1)\ncall f()\n"
    let o : Options := ⟨true, some "secret", 50, none⟩
    let attached := ((Debugger.new o : Debugger Execution).attach ⟨some "secret", [], false⟩).2
    ∃ p h made d, Program.ofText file source = .ok p ∧
      { Host.new o with debugger := attached }.load file source = .ok h ∧
      h.debugger.setBreakpoints h.debuggee file [⟨3, none⟩, ⟨4, none⟩] = (.ok made, d) ∧
      made.map (fun b => (b.line, b.verified)) = [(3, true), (4, false)] ∧
      ((start 10 "main" p).track (List.replicate 12 false)).filterMap
        (fun x => x.report?.map Report.lineNumber) = [1, 7, 1, 2, 5, 8, 2, 3] ∧
      (∀ n ∈ [1, 7, 1, 2, 5, 8, 2, 3], n ∈ p.executableLines) ∧
      ∀ id name answers, ∀ x ∈ (start id name p).track answers, ∀ r, x.report? = some r →
        r.lineNumber ≠ 4 := by
  intro file source o attached
  have hrun : (Program.ofText file source).toOption.any (fun p =>
      ((start 10 "main" p).track (List.replicate 12 false)).filterMap
        (fun x => x.report?.map Report.lineNumber) = [1, 7, 1, 2, 5, 8, 2, 3] ∧
      4 ∉ Stmt.blockLines p.body) = true := by
    decide +kernel
  cases hp : Program.ofText file source with
  | error e =>
    rw [hp] at hrun
    contradiction
  | ok p =>
    rw [hp] at hrun
    obtain ⟨hreported, hclosing⟩ := of_decide_eq_true hrun
    let h : Host := { Host.new o with
      debugger := attached
      programs := (∅ : Table String Program).insert (Path.canonical o.fold file) p }
    have hload : { Host.new o with debugger := attached }.load file source = .ok h :=
      Host.load_of_ofText hp _
    have hloaded : h.programs.get? (Path.Mapper.toDebuggee ⟨[], o.fold⟩ file) = some p := by
      change ((∅ : Table String Program).insert (Path.canonical o.fold file) p).get?
        (Path.canonical o.fold file) = some p
      rw [Table.get?_insert, if_pos rfl]
    obtain ⟨hlines, hbreakpoints⟩ := reports_executable_lines p
    obtain ⟨made, d, hset, hmade, hall⟩ := hbreakpoints h ⟨[], o.fold⟩ file
      [⟨3, none⟩, ⟨4, none⟩] rfl hloaded
    have hreport : ∀ n ∈ [1, 7, 1, 2, 5, 8, 2, 3],
        ∃ x ∈ (start 10 "main" p).track (List.replicate 12 false), ∃ r, x.report? = some r ∧
          r.lineNumber = n := by
      intro n hn
      rw [← hreported] at hn
      obtain ⟨x, hx, hr⟩ := List.mem_filterMap.mp hn
      obtain ⟨r, hr, hline⟩ := Option.map_eq_some_iff.mp hr
      exact ⟨x, hx, r, hr, hline⟩
    obtain ⟨b, c, rfl⟩ : ∃ b c, made = [b, c] :=
      List.length_eq_two.mp (by simpa using congrArg List.length hmade)
    obtain ⟨hb, hc⟩ : b.line = 3 ∧ c.line = 4 := by simpa using hmade
    -- The first is verified, or its line would not have been reported; the second is on no statement.
    have hverified : b.verified = true := by
      cases hb' : b.verified with
      | true => rfl
      | false =>
        obtain ⟨x, hx, r, hr, hline⟩ := hreport 3 (by decide)
        exact absurd (hline.trans hb.symm) ((hall b (by simp)).1 hb' 10 "main" _ x hx r hr)
    have hunverified : c.verified = false := by
      cases hc' : c.verified with
      | false => rfl
      | true =>
        obtain ⟨s, hs, hline, _⟩ := (hall c (by simp)).2 hc'
        have hmem := Stmt.line_mem_lines hs
        rw [hline, hc] at hmem
        exact absurd hmem hclosing
    refine ⟨p, h, [b, c], d, rfl, hload, hset, ?_, hreported, ?_, ?_⟩
    · simp [hb, hc, hverified, hunverified]
    · intro n hn
      obtain ⟨x, hx, r, hr, rfl⟩ := hreport n hn
      exact (hlines 10 "main" _ x hx r hr).2
    · intro id name answers x hx r hr
      exact hc ▸ (hall c (by simp)).1 hunverified id name answers x hx r hr

end Execution

end DebugAdapter.Script
