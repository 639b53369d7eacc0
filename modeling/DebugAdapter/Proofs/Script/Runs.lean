import DebugAdapter.Proofs.Script.Functions
import DebugAdapter.Proofs.Suspension.History
import DebugAdapter.Script.Turn

/-!
# Runs of a script

A run is what the steps of an execution come to, one after the other. All that it is ever told is what
its announcements of exceptions are answered.

`stepped` says once what a step can do, with `executed` for the statements. Everything that holds along
the runs follows from it by induction on the answers.
-/

namespace DebugAdapter.Script

/-- The report to the debugger that is made by an action. -/
def Action.report? : Action → Option Report
  | .line file n => some (.line file n)
  | .entry function component file n => some (.entry function component file n)
  | .halt file n label => some (.halt file n label)
  | .announce .. | .output .. | .sleep .. | .finish => none

/-- The statement whose line has been reported and that is executed next. A loop is executed with
every test of its condition. -/
def Point.executes? : Point → Option Stmt
  | .reported s => some s
  | .turning line test body => some (.loop line test body)
  | .next | .raised .. | .returning _ | .unwinding _ | .ended => none

namespace Task

def stmt : Task → Stmt
  | .statement s | .leave s => s
  | .again line test body => .loop line test body

/-- The statement that waits for the end of a call. -/
def caller? : Task → Option Stmt
  | .leave caller => some caller
  | .statement _ | .again .. => none

theorem eq_leave {task : Task} {caller : Stmt} (h : task.caller? = some caller) :
    task = .leave caller := by
  cases task with
  | leave s => exact congrArg leave (Option.some.inj h)
  | statement | again => contradiction

end Task

namespace Execution

/-- What can be seen of the next step. -/
def action? (x : Execution) : Option Action := x.step.1

/-- The report to the debugger that the next step makes. -/
def report? (x : Execution) : Option Report := x.action?.bind Action.report?

/-- The execution after its next step. If the step announces an exception, the answer says whether it
is to be stopped at. -/
def proceed (x : Execution) (stops : Bool) : Execution :=
  match x.step with
  | (some (.announce line e), y) => if stops then y.stopAtException line e else y
  | (_, y) => y

/-- The execution after some steps, given by what announcements are answered at each. -/
def after (x : Execution) (answers : List Bool) : Execution := answers.foldl proceed x

/-- Where the execution stands before each of these steps. -/
def track (x : Execution) : List Bool → List Execution
  | [] => []
  | stops :: answers => x :: (x.proceed stops).track answers

theorem after_append (x : Execution) (as bs : List Bool) :
    x.after (as ++ bs) = (x.after as).after bs := List.foldl_append

theorem track_append (x : Execution) (as bs : List Bool) :
    x.track (as ++ bs) = x.track as ++ (x.after as).track bs := by
  induction as generalizing x with
  | nil => rfl
  | cons a as ih => exact congrArg (x :: ·) (ih _)

theorem length_track (x : Execution) (answers : List Bool) :
    (x.track answers).length = answers.length := by
  induction answers generalizing x with
  | nil => rfl
  | cons stops answers ih => exact congrArg (· + 1) (ih _)

/-- The places of a track are those that the execution comes through. -/
theorem exists_of_mem_track {x y : Execution} {answers : List Bool} (h : y ∈ x.track answers) :
    ∃ before stops behind, answers = before ++ stops :: behind ∧ y = x.after before := by
  induction answers generalizing x with
  | nil => contradiction
  | cons stops answers ih =>
    rcases List.mem_cons.mp h with rfl | h
    · exact ⟨[], stops, answers, rfl, rfl⟩
    · obtain ⟨before, b, behind, rfl, rfl⟩ := ih h
      exact ⟨stops :: before, b, behind, rfl, rfl⟩

theorem after_keeps {I : Execution → Prop} (step : ∀ x stops, I x → I (x.proceed stops))
    {x : Execution} (hx : I x) (answers : List Bool) : I (x.after answers) := by
  induction answers generalizing x with
  | nil => exact hx
  | cons stops answers ih => exact ih (step x stops hx)

/-! ## What a statement does -/

/-- The function that a statement of a file defines. -/
def definition? (file : String) : Stmt → Option FunctionDef
  | .func line name params body => some ⟨name, params, body, file, line⟩
  | _ => none

/-- A value that a statement can come by carries only functions that are seen from the innermost
frame, or the one that the statement defines. -/
def Gives (x : Execution) (s : Stmt) (v : Value) : Prop :=
  ∀ d, ShapeCarries v.shape d →
    Sees (x.stack.lookup 0) d ∨ definition? x.program.file s = some d

/-- What executing a statement comes to if it does not fail. -/
inductive Executed (x : Execution) (s : Stmt) : Option Action → Execution → Prop where
  | printed (text : String) (made : Nat) :
    Executed x s (some (.output text false)) { x with made }
  | slept (millis made : Nat) : Executed x s (some (.sleep millis)) { x with made }
  | halted (label : Option String) :
    Executed x s (some (.halt x.program.file s.line label)) x
  | assigned (name : String) (v : Value) (made : Nat) (hv : Gives x s v) :
    Executed x s none ({ x with made }.assign name v)
  /-- A block is entered, behind which a loop is tested again. -/
  | entered (tasks : List Task) (made : Nat)
    (htasks : ∀ task ∈ tasks, task.caller? = none ∧ (task.stmt = s ∨ task.stmt ∈ s.inner)) :
    Executed x s none { x with tasks := tasks ++ x.tasks, made }
  | called (d : FunctionDef) (frame : Frame) (made : Nat)
    (hcall : (∃ n c, s = .call n c) ∨ ∃ n name c, s = .assignCall n name c)
    (hd : Sees (x.stack.lookup 0) d) (hframe : frame.function = d.name ∧ frame.file = d.file)
    (hargs : ∀ d', Carries frame.values d' → Sees (x.stack.lookup 0) d') :
    Executed x s (some (.entry d.name (Path.stem? d.file) d.file d.line))
      { x with
        stack := (x.stack.push frame).setLine d.line
        tasks := d.body.map .statement ++ .leave s :: x.tasks
        made }
  | returned (v : Value) (made : Nat) (hv : Gives x s v) :
    Executed x s none { x with point := .returning v, made }

section
variable {x y : Execution} {s : Stmt} {a : Option Action}

theorem gives_of_plain {v : Value} (h : Plain v.shape) : Gives x s v :=
  fun _ hv => absurd hv h.not_carries

theorem evaluate_ok {e : Expr} {v : Value} (h : x.evaluate e = .ok (v, y)) :
    Gives x s v ∧ ∃ made, y = { x with made } := by
  unfold evaluate at h
  split at h
  · rename_i heval
    cases h
    exact ⟨fun d hd => Or.inl (eval_carries heval hd), _, rfl⟩
  · contradiction

theorem evaluateAll_ok {es : List Expr} {vs : List Value} (h : x.evaluateAll es = .ok (vs, y)) :
    (∀ d, Carries vs d → Sees (x.stack.lookup 0) d) ∧ ∃ made, y = { x with made } := by
  unfold evaluateAll at h
  split at h
  · rename_i heval
    cases h
    exact ⟨fun d hd => evalAll_carries heval hd, _, rfl⟩
  · contradiction

theorem foldl_allocate (ps : List String) (vs : List Value) (x : Execution)
    (hvs : ∀ v ∈ vs, Plain v.shape) : ∃ texts made,
      ps.foldl (fun (vs, x) p =>
        let (v, x) := allocate x (.text p)
        (vs ++ [v], x)) (vs, x) = (texts, { x with made }) ∧ ∀ v ∈ texts, Plain v.shape := by
  induction ps generalizing vs x with
  | nil => exact ⟨vs, x.made, rfl, hvs⟩
  | cons p ps ih =>
    obtain ⟨texts, made, hfold, htexts⟩ :=
      ih (vs ++ [(x.allocate (.text p)).1]) (x.allocate (.text p)).2 (by
        intro v hv
        rcases List.mem_append.mp hv with hv | hv
        · exact hvs v hv
        · rw [List.mem_singleton.mp hv]
          exact ⟨nofun, rfl⟩)
    exact ⟨texts, made, hfold, htexts⟩

theorem makeFunction_eq (x : Execution) (d : FunctionDef) : ∃ v made,
    x.makeFunction d = (v, { x with made }) ∧ ∀ d', ShapeCarries v.shape d' → d' = d := by
  obtain ⟨params, made, hfold, hparams⟩ := foldl_allocate d.params []
    ((x.allocate (.text d.name)).2.allocate (.int d.line)).2 (fun _ hv => absurd hv List.not_mem_nil)
  let shown (r : List Value × Execution) : Value × Execution :=
    let (list, x') := r.2.allocate (.array r.1)
    x'.allocate (.function d [("name", (x.allocate (.text d.name)).1),
      ("line", ((x.allocate (.text d.name)).2.allocate (.int d.line)).1), ("parameters", list)])
  have heq : x.makeFunction d = shown (params, { x with made }) := congrArg shown hfold
  refine ⟨_, _, heq, ?_⟩
  rintro d' (⟨fields, hd⟩ | hd)
  · cases hd
    rfl
  · -- A function is shown by two plain values and a list of plain ones.
    have hname : Plain (.text d.name) := ⟨nofun, rfl⟩
    have hline : Plain (.int d.line) := ⟨nofun, rfl⟩
    exfalso
    rcases carries_cons_iff.mp hd with hd | hd
    · exact hname.not_carries hd
    · rcases carries_cons_iff.mp hd with hd | hd
      · exact hline.not_carries hd
      · rcases carries_cons_iff.mp hd with (⟨fields, hd⟩ | hd) | hd
        · contradiction
        · obtain ⟨v, hv, hd⟩ := carries_iff.mp hd
          exact (hparams v hv).not_carries hd
        · exact not_carries_nil hd

theorem function_ok {name : String} {d : FunctionDef} (h : x.function name = .ok d) :
    Sees (x.stack.lookup 0) d := by
  unfold function at h
  split at h
  · rename_i fields hshape
    cases h
    obtain ⟨v, hv, hd⟩ := Option.map_eq_some_iff.mp hshape
    exact ⟨name, v, hv, Or.inl ⟨_, hd⟩⟩
  · contradiction
  · contradiction

theorem call_ok {c : Call} (hs : (∃ n c, s = .call n c) ∨ ∃ n name c, s = .assignCall n name c)
    (h : x.call c s = .ok (a, y)) : Executed x s a y := by
  obtain ⟨d, hd, h⟩ := ok_of_bind h
  split at h
  · contradiction
  · obtain ⟨⟨args, z⟩, hargs, h⟩ := ok_of_bind h
    obtain ⟨hcarries, made, rfl⟩ := evaluateAll_ok hargs
    cases h
    refine .called d _ _ hs (function_ok hd) ⟨rfl, rfl⟩ ?_
    intro d' hd'
    obtain ⟨v, hv, hd'⟩ := carries_iff.mp hd'
    obtain ⟨param, hparam, rfl⟩ := List.mem_map.mp hv
    exact hcarries d' (carries_of_mem (List.of_mem_zip hparam).2 hd')

theorem turn_ok {line : Nat} {test : Expr} {body : List Stmt}
    (h : x.turn line test body = .ok (a, y)) : Executed x (.loop line test body) a y := by
  obtain ⟨⟨v, z⟩, hv, h⟩ := ok_of_bind h
  obtain ⟨-, made, rfl⟩ := evaluate_ok (s := .loop line test body) hv
  simp only at h
  split at h
  · cases h
    refine (congrArg (Executed x _ none) ?_).mp
      (Executed.entered (body.map .statement ++ [.again line test body]) made ?_)
    · simp [enterBlock]
    · intro task htask
      rcases List.mem_append.mp htask with htask | htask
      · obtain ⟨t, ht, rfl⟩ := List.mem_map.mp htask
        exact ⟨rfl, Or.inr ht⟩
      · rw [List.mem_singleton.mp htask]
        exact ⟨rfl, Or.inl rfl⟩
  · cases h
    exact .entered [] made (fun _ htask => absurd htask List.not_mem_nil)

theorem execute_ok (h : x.execute s = .ok (a, y)) : Executed x s a y := by
  cases s with
  | func line name params body =>
    obtain ⟨v, made, heq, hv⟩ := makeFunction_eq x ⟨name, params, body, x.program.file, line⟩
    rw [execute, heq] at h
    cases h
    apply Executed.assigned
    intro d hd
    rw [hv d hd]
    exact Or.inr rfl
  | branch line test yes no =>
    obtain ⟨⟨v, z⟩, hv, h⟩ := ok_of_bind h
    obtain ⟨-, made, rfl⟩ := evaluate_ok (s := .branch line test yes no) hv
    cases h
    apply Executed.entered
    intro task htask
    obtain ⟨t, ht, rfl⟩ := List.mem_map.mp htask
    refine ⟨rfl, Or.inr ?_⟩
    split at ht
    · exact List.mem_append_left _ ht
    · exact List.mem_append_right _ ht
  | loop line test body => exact turn_ok h
  | assign line name value =>
    obtain ⟨⟨v, z⟩, hv, h⟩ := ok_of_bind h
    obtain ⟨hgives, made, rfl⟩ := evaluate_ok hv
    cases h
    exact .assigned name v made hgives
  | assignCall line name c => exact call_ok (Or.inr ⟨line, name, c, rfl⟩) h
  | call line c => exact call_ok (Or.inl ⟨line, c, rfl⟩) h
  | print line value =>
    obtain ⟨⟨v, z⟩, hv, h⟩ := ok_of_bind h
    obtain ⟨-, made, rfl⟩ := evaluate_ok (s := .print line value) hv
    cases h
    exact .printed _ made
  | ret line value =>
    cases value with
    | none =>
      cases h
      exact .returned _ _ (gives_of_plain ⟨nofun, rfl⟩)
    | some value =>
      obtain ⟨⟨v, z⟩, hv, h⟩ := ok_of_bind h
      obtain ⟨hgives, made, rfl⟩ := evaluate_ok hv
      cases h
      exact .returned v made hgives
  | throw line typeName message =>
    cases message with
    | none => contradiction
    | some message =>
      obtain ⟨⟨v, z⟩, -, h⟩ := ok_of_bind h
      contradiction
  | halt line label =>
    cases h
    exact .halted label
  | sleep line millis =>
    obtain ⟨⟨v, z⟩, hv, h⟩ := ok_of_bind h
    obtain ⟨-, made, rfl⟩ := evaluate_ok (s := .sleep line millis) hv
    simp only at h
    split at h
    · split at h
      · cases h
        exact .slept _ made
      · contradiction
    · contradiction

end

/-! ## What a step does -/

/-- What a step comes to. -/
inductive Stepped (x : Execution) (stops : Bool) : Option Action → Execution → Prop where
  | reported (task : Task) (rest : List Task) (p : Point) (hpoint : x.point = .next)
    (htasks : x.tasks = task :: rest) (hcaller : task.caller? = none)
    (hp : p.executes? = some task.stmt) :
    Stepped x stops (some (.line x.program.file task.stmt.line))
      { x with stack := x.stack.setLine task.stmt.line, tasks := rest, point := p }
  | executed (s : Stmt) (a : Option Action) (y : Execution) (hs : x.point.executes? = some s)
    (h : Executed { x with point := .next } s a y) : Stepped x stops a y
  | failed (s : Stmt) (f : Fault) (hs : x.point.executes? = some s)
    (h : { x with point := .next }.execute s = .error f) :
    Stepped x stops (some (.announce s.line (x.exception f)))
      { x with
        point := if stops then .raised s.line (x.exception f) else .unwinding (x.exception f) }
  | again (line : Nat) (e : Exception) (hpoint : x.point = .raised line e) :
    Stepped x stops (some (.line x.program.file line)) { x with point := .unwinding e }
  /-- A call is left for its caller, which takes the value. -/
  | left (caller : Stmt) (rest : List Task) (v : Value) (made : Nat)
    (hpoint : x.point = .returning v ∨ x.point = .next ∧ Plain v.shape)
    (htasks : x.tasks = .leave caller :: rest) :
    Stepped x stops none ({ x with tasks := rest, made }.leaveCall caller v)
  /-- What a return or an exception jumps over is dropped. -/
  | dropped (task : Task) (rest : List Task)
    (hpoint : (∃ v, x.point = .returning v) ∨ ∃ e, x.point = .unwinding e)
    (htasks : x.tasks = task :: rest) (hcaller : task.caller? = none) :
    Stepped x stops none { x with tasks := rest }
  | unwound (e : Exception) (caller : Stmt) (rest : List Task) (hpoint : x.point = .unwinding e)
    (htasks : x.tasks = .leave caller :: rest) :
    Stepped x stops none { x with stack := x.stack.pop, tasks := rest }
  | finished (hpoint : x.point = .next ∨ ∃ v, x.point = .returning v) (htasks : x.tasks = []) :
    Stepped x stops none x.finish
  | uncaught (e : Exception) (hpoint : x.point = .unwinding e) (htasks : x.tasks = []) :
    Stepped x stops
      (some (.output ("Uncaught " ++ e.typeName ++ ": " ++ e.message ++ "\n") true)) x.finish
  | ended (hpoint : x.point = .ended) : Stepped x stops (some .finish) x

theorem step_of_executes {x : Execution} {s : Stmt} (h : x.point.executes? = some s) :
    x.step = { x with point := .next }.settle s.line ({ x with point := .next }.execute s) := by
  obtain ⟨id, name, program, stack, tasks, point, made⟩ := x
  cases point with
  | reported | turning =>
    cases h
    rfl
  | next | raised | returning | unwinding | ended => contradiction

theorem proceed_of_executes {x y : Execution} {s : Stmt} {a : Option Action}
    (hs : x.point.executes? = some s) (h : { x with point := .next }.execute s = .ok (a, y))
    (stops : Bool) : x.proceed stops = y := by
  rw [proceed, step_of_executes hs, h, settle]
  -- A statement that does not fail announces nothing.
  cases execute_ok h <;> rfl

theorem executes_stepped {x : Execution} {s : Stmt} (stops : Bool)
    (hs : x.point.executes? = some s) : Stepped x stops x.action? (x.proceed stops) := by
  have hstep := step_of_executes hs
  cases hexecute : { x with point := .next }.execute s with
  | error f =>
    have hfailed : Stepped x stops _ _ := .failed s f hs hexecute
    rw [action?, proceed, hstep, hexecute]
    cases stops with
    | true => exact hfailed
    | false => exact hfailed
  | ok r =>
    obtain ⟨a, y⟩ := r
    rw [proceed_of_executes hs hexecute, action?, hstep, hexecute]
    exact .executed s a y hs (execute_ok hexecute)

/-- All that a step can do. -/
theorem stepped (x : Execution) (stops : Bool) : Stepped x stops x.action? (x.proceed stops) := by
  obtain ⟨id, name, program, stack, tasks, point, made⟩ := x
  cases point with
  | next =>
    cases tasks with
    | nil => exact .finished (Or.inl rfl) rfl
    | cons task rest =>
      cases task with
      | statement s => exact .reported (.statement s) rest (.reported s) rfl rfl rfl rfl
      | again line test body =>
        exact .reported (.again line test body) rest (.turning line test body) rfl rfl rfl rfl
      | leave caller => exact .left caller rest _ _ (Or.inr ⟨rfl, nofun, rfl⟩) rfl
  | reported s => exact executes_stepped stops rfl
  | turning line test body => exact executes_stepped stops rfl
  | raised line e => exact .again line e rfl
  | returning v =>
    cases tasks with
    | nil => exact .finished (Or.inr ⟨v, rfl⟩) rfl
    | cons task rest =>
      cases task with
      | statement | again => exact .dropped _ rest (Or.inl ⟨v, rfl⟩) rfl rfl
      | leave caller => exact .left caller rest v made (Or.inl rfl) rfl
  | unwinding e =>
    cases tasks with
    | nil => exact .uncaught e rfl rfl
    | cons task rest =>
      cases task with
      | statement | again => exact .dropped _ rest (Or.inr ⟨e, rfl⟩) rfl rfl
      | leave caller => exact .unwound e caller rest rfl rfl
  | ended => exact .ended rfl

/-! ## Exceptions and the end -/

/-- The next step executes a statement, and this fails. -/
def Fails (x : Execution) (s : Stmt) (f : Fault) : Prop :=
  x.point.executes? = some s ∧ { x with point := .next }.execute s = .error f

section
variable {x : Execution} {line : Nat} {e : Exception} {s : Stmt} {f : Fault}

theorem announces_iff : x.action? = some (.announce line e) ↔
    ∃ s f, x.Fails s f ∧ s.line = line ∧ x.exception f = e := by
  constructor
  · intro h
    have hstep := stepped x false
    rw [h] at hstep
    generalize x.proceed false = y at hstep
    cases hstep with
    | executed s a y hs hexecuted => cases hexecuted
    | failed s f hs hfails => exact ⟨s, f, ⟨hs, hfails⟩, rfl, rfl⟩
  · rintro ⟨s, f, ⟨hs, hfails⟩, rfl, rfl⟩
    rw [action?, step_of_executes hs, hfails]
    rfl

theorem Fails.proceed (h : x.Fails s f) (stops : Bool) :
    x.proceed stops =
      { x with
        point := if stops then .raised s.line (x.exception f) else .unwinding (x.exception f) } := by
  rw [Execution.proceed, step_of_executes h.1, h.2]
  cases stops <;> rfl

theorem action?_of_ended (h : x.point = .ended) : x.action? = some .finish := by
  rw [action?, step, h]

theorem proceed_of_ended (h : x.point = .ended) (stops : Bool) : x.proceed stops = x := by
  rw [proceed, step, h]

end

end Execution

end DebugAdapter.Script
