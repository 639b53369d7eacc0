import DebugAdapter.Proofs.Script.ReportedLines

/-!
# The frames of a running script

The frame stack through a run. At a report the innermost frame is where the report comes from, and
every other frame stands at the call that it waits for (`Framed`). A statement gives the stack back
as it has found it, however it ends (`Busy`): only its own frame has seen changes, of its line and its
variables.
-/

namespace DebugAdapter.Script

/-- The statement calls a function. -/
def Stmt.IsCall (s : Stmt) : Prop := (∃ n c, s = .call n c) ∨ ∃ n name c, s = .assignCall n name c

/-- The line that the innermost frame stands at, as far as the point tells it. -/
def Point.line? : Point → Option Nat
  | .reported s => some s.line
  | .turning n _ _ | .raised n _ => some n
  | .next | .returning _ | .unwinding _ | .ended => none

theorem Point.line?_of_executes {point : Point} {s : Stmt} (h : point.executes? = some s) :
    point.line? = some s.line := by
  cases point with
  | reported | turning =>
    cases h
    rfl
  | next | raised | returning | unwinding | ended => contradiction

namespace Frame

/-- The allocations of a frame's scopes. -/
def identities (f : Frame) : Option (Identity × Identity) :=
  f.own.map fun own => (own.locals.identity, own.args.identity)

/-- The same frame at another time: it may stand at another line, and its variables may have changed. -/
structure Same (f g : Frame) : Prop where
  function : g.function = f.function
  file : g.file = f.file
  identities : g.identities = f.identities

theorem Same.refl (f : Frame) : Same f f := ⟨rfl, rfl, rfl⟩

theorem Same.trans {f g h : Frame} (hfg : Same f g) (hgh : Same g h) : Same f h :=
  ⟨hgh.function.trans hfg.function, hgh.file.trans hfg.file, hgh.identities.trans hfg.identities⟩

end Frame

namespace Stack
variable {s : Stack} {f : Frame} {outer : List Frame}

theorem frames_setLine (h : s.frames = f :: outer) (n : Nat) :
    (s.setLine n).frames = { f with line := n } :: outer := by
  simp only [setLine, h]

theorem frames_pop (h : s.frames = f :: outer) : s.pop.frames = outer := by
  simp only [pop, h, List.tail_cons]

/-- An assignment is seen by the innermost frame alone. -/
theorem frames_assign (h : s.frames = f :: outer) (name : String) (v : Value) :
    ∃ g, (s.assign name v).frames = g :: outer ∧ Frame.Same f g ∧ g.line = f.line := by
  obtain ⟨frames, globals⟩ := s
  obtain ⟨function, file, line, own⟩ := f
  cases h
  cases own with
  | none => exact ⟨_, rfl, .refl _, rfl⟩
  | some own =>
    refine ⟨_, rfl, ⟨rfl, rfl, ?_⟩, rfl⟩
    simp only [Frame.identities, Option.map_some]
    split <;> rfl

/-- The innermost frame is the same one, and those below are as they were. -/
def Touched (s t : Stack) : Prop :=
  ∀ f outer, s.frames = f :: outer → ∃ g, t.frames = g :: outer ∧ Frame.Same f g

theorem touched_of_frames_eq {s t : Stack} (h : t.frames = s.frames) : Touched s t :=
  fun f _ hf => ⟨f, h.trans hf, .refl f⟩

theorem touched_assign (s : Stack) (name : String) (v : Value) : Touched s (s.assign name v) := by
  intro f outer hf
  obtain ⟨g, hg, hsame, -⟩ := frames_assign hf name v
  exact ⟨g, hg, hsame⟩

theorem touched_setLine (s : Stack) (n : Nat) : Touched s (s.setLine n) :=
  fun _ _ hf => ⟨_, frames_setLine hf n, rfl, rfl, rfl⟩

end Stack

namespace Execution

/-- The statements whose calls are not over, innermost first. -/
def callers (x : Execution) : List Stmt := x.tasks.filterMap Task.caller?

theorem filterMap_caller?_append {new : List Task} (h : ∀ task ∈ new, task.caller? = none)
    (tasks : List Task) :
    (new ++ tasks).filterMap Task.caller? = tasks.filterMap Task.caller? := by
  rw [List.filterMap_append, List.filterMap_eq_nil_iff.mpr h, List.nil_append]

theorem filterMap_caller?_body (body : List Stmt) (s : Stmt) (tasks : List Task) :
    (body.map Task.statement ++ .leave s :: tasks).filterMap Task.caller? =
      s :: tasks.filterMap Task.caller? := by
  rw [filterMap_caller?_append]
  · rfl
  · intro task htask
    obtain ⟨t, -, rfl⟩ := List.mem_map.mp htask
    rfl

/-- A run that is not over: its frames are those of the script's file, and each but the innermost one
stands at the call that it waits for. -/
structure Framed (x : Execution) (f : Frame) (outer : List Frame) : Prop where
  frames : x.stack.frames = f :: outer
  files : ∀ g ∈ f :: outer, g.file = x.program.file
  waiting : outer.map (·.line) = x.callers.map Stmt.line
  calls : ∀ s ∈ x.callers, s.IsCall
  line : ∀ n, x.point.line? = some n → f.line = n
  running : x.point ≠ .ended

/-- A run that is over. -/
structure Over (x : Execution) : Prop where
  point : x.point = .ended
  tasks : x.tasks = []
  frames : x.stack.frames = []

section
variable {p : Program} {x y : Execution} {f : Frame} {outer : List Frame} {a : Option Action}
  {task : Task} {rest : List Task}

theorem framed_start (id : ThreadId) (name : String) (p : Program) :
    Framed (start id name p) ⟨mainFrame, p.file, 0, none⟩ [] where
  frames := rfl
  files := fun g hg => by rw [List.mem_singleton.mp hg]; rfl
  waiting := by
    have hnone : (start id name p).callers = [] := by
      apply List.filterMap_eq_nil_iff.mpr
      intro task htask
      obtain ⟨s, -, rfl⟩ := List.mem_map.mp htask
      rfl
    rw [hnone]
    rfl
  calls := by
    intro s hs
    obtain ⟨task, htask, hcaller⟩ := List.mem_filterMap.mp hs
    obtain ⟨t, -, rfl⟩ := List.mem_map.mp htask
    contradiction
  line := nofun
  running := nofun

namespace Framed

/-- The same stack up to the innermost frame, and the same calls. -/
theorem update (h : Framed x f outer) {y : Execution} {g : Frame}
    (hprogram : y.program = x.program) (hframes : y.stack.frames = g :: outer)
    (hfile : g.file = f.file) (hcallers : y.callers = x.callers)
    (hline : ∀ n, y.point.line? = some n → g.line = n) (hrunning : y.point ≠ .ended) :
    Framed y g outer where
  frames := hframes
  files := by
    intro k hk
    rw [hprogram]
    rcases List.mem_cons.mp hk with rfl | hk
    · exact hfile.trans (h.files f (List.mem_cons_self ..))
    · exact h.files k (List.mem_cons_of_mem _ hk)
  waiting := hcallers ▸ h.waiting
  calls := hcallers ▸ h.calls
  line := hline
  running := hrunning

theorem line_of_executes (h : Framed x f outer) {s : Stmt} (hs : x.point.executes? = some s) :
    f.line = s.line := h.line s.line (Point.line?_of_executes hs)

theorem callers_eq (htasks : x.tasks = task :: rest) (hcaller : task.caller? = none) :
    x.callers = rest.filterMap Task.caller? := by
  rw [callers, htasks, List.filterMap_cons_none hcaller]

theorem executed (h : Framed x f outer) (hx : x.point = .next) (hprogram : OfProgram p x) {s : Stmt}
    (hline : f.line = s.line) (hstep : Executed x s a y) :
    ∃ g out, Framed y g out ∧ ∀ r, a.bind Action.report? = some r → g.line = r.lineNumber := by
  cases hstep with
  | printed text made | slept millis made =>
    exact ⟨f, outer, h.update rfl h.frames rfl rfl h.line h.running, nofun⟩
  | halted label =>
    refine ⟨f, outer, h, ?_⟩
    rintro r ⟨⟩
    exact hline
  | assigned name v made hv =>
    obtain ⟨g, hframes, hsame, hg⟩ := Stack.frames_assign h.frames name v
    exact ⟨g, outer,
      h.update rfl hframes hsame.file rfl (fun n hn => hg.trans (h.line n hn)) h.running, nofun⟩
  | entered tasks made htasks =>
    have hcallers := filterMap_caller?_append (fun task htask => (htasks task htask).1) x.tasks
    exact ⟨f, outer, h.update rfl h.frames rfl hcallers h.line h.running, nofun⟩
  | called d frame made hcall hd hframe hargs =>
    have hcallers : (d.body.map Task.statement ++ .leave s :: x.tasks).filterMap Task.caller? =
        s :: x.callers := filterMap_caller?_body d.body s x.tasks
    refine ⟨{ frame with line := d.line }, f :: outer, ⟨?_, ?_, ?_, ?_, ?_, h.running⟩, ?_⟩
    · exact Stack.frames_setLine (congrArg _ h.frames) _
    · intro g hg
      rcases List.mem_cons.mp hg with rfl | hg
      · exact hframe.2.trans ((hprogram.defines hd).2.trans
          (congrArg Program.file hprogram.program).symm)
      · exact h.files g hg
    · rw [callers, hcallers, List.map_cons, List.map_cons, hline, h.waiting]
    · intro t ht
      rw [callers, hcallers] at ht
      rcases List.mem_cons.mp ht with rfl | ht
      · exact hcall
      · exact h.calls t ht
    · intro n hn
      rw [hx] at hn
      contradiction
    · rintro r ⟨⟩
      rfl
  | returned v made hv => exact ⟨f, outer, h.update rfl h.frames rfl rfl nofun nofun, nofun⟩

theorem pop (h : Framed x f outer) {s : Stmt} {rest : List Task} (htasks : x.tasks = .leave s :: rest)
    {y : Execution} (hprogram : y.program = x.program) (hframes : y.stack.frames = outer)
    (hrest : y.tasks = rest) (hline : y.point.line? = none) (hrunning : y.point ≠ .ended) :
    ∃ g out, Framed y g out := by
  have hcallers : x.callers = s :: y.callers := by
    rw [callers, htasks, callers, hrest]
    rfl
  have hwaiting := h.waiting
  rw [hcallers] at hwaiting
  cases outer with
  | nil => contradiction
  | cons g out =>
    -- The frame below stands at the call that has been left, and is the innermost one now.
    refine ⟨g, out, hframes, ?_, (List.cons.inj hwaiting).2, ?_, ?_, hrunning⟩
    · intro k hk
      rw [hprogram]
      exact h.files k (List.mem_cons_of_mem _ hk)
    · intro t ht
      exact h.calls t (hcallers ▸ List.mem_cons_of_mem _ ht)
    · intro n hn
      rw [hline] at hn
      contradiction

theorem finish (h : Framed x f outer) (htasks : x.tasks = []) : Over x.finish := by
  have hwaiting := h.waiting
  rw [callers, htasks] at hwaiting
  have houter : outer = [] := List.map_eq_nil_iff.mp hwaiting
  exact ⟨rfl, htasks, (Stack.frames_pop h.frames).trans houter⟩

theorem step (h : Framed x f outer) (hprogram : OfProgram p x) {stops : Bool}
    (hstep : Stepped x stops a y) :
    (Over y ∧ a.bind Action.report? = none) ∨
      ∃ g out, Framed y g out ∧ ∀ r, a.bind Action.report? = some r → g.line = r.lineNumber := by
  cases hstep with
  | reported task rest point hpoint htasks hcaller hp =>
    refine Or.inr ⟨{ f with line := task.stmt.line }, outer, ?_, ?_⟩
    · refine h.update rfl (Stack.frames_setLine h.frames _) rfl
        (callers_eq htasks hcaller).symm ?_ ?_
      · intro n hn
        rw [Point.line?_of_executes hp] at hn
        exact Option.some.inj hn
      · rintro rfl
        contradiction
    · rintro r ⟨⟩
      rfl
  | executed s a y hs hexecuted =>
    have hnext : Framed { x with point := .next } f outer :=
      h.update rfl h.frames rfl rfl nofun nofun
    exact Or.inr (hnext.executed rfl
      ⟨hprogram.program, hprogram.tasks, trivial, hprogram.functions⟩ (h.line_of_executes hs) hexecuted)
  | failed s e hs hexecute =>
    refine Or.inr ⟨f, outer, h.update rfl h.frames rfl rfl ?_ ?_, nofun⟩
    · cases stops with
      | true =>
        rintro n ⟨⟩
        exact h.line_of_executes hs
      | false => nofun
    · cases stops <;> nofun
  | again line e hpoint =>
    refine Or.inr ⟨f, outer, h.update rfl h.frames rfl rfl nofun nofun, ?_⟩
    rintro r ⟨⟩
    exact h.line line (congrArg Point.line? hpoint)
  | left caller rest v made hpoint htasks =>
    obtain ⟨g, out, hframed⟩ := h.pop
      (y := { x with stack := x.stack.pop, tasks := rest, point := .next, made }) htasks rfl
      (Stack.frames_pop h.frames) rfl rfl nofun
    right
    cases caller with
    | assignCall line name c =>
      obtain ⟨k, hframes, hsame, hk⟩ := Stack.frames_assign hframed.frames name v
      exact ⟨k, out, hframed.update rfl hframes hsame.file rfl nofun nofun, nofun⟩
    | _ => exact ⟨g, out, hframed, nofun⟩
  | dropped task rest hpoint htasks hcaller =>
    exact Or.inr ⟨f, outer, h.update rfl h.frames rfl (callers_eq htasks hcaller).symm h.line h.running,
      nofun⟩
  | unwound e caller rest hpoint htasks =>
    obtain ⟨g, out, hframed⟩ := h.pop (y := { x with stack := x.stack.pop, tasks := rest }) htasks rfl
      (Stack.frames_pop h.frames) rfl (congrArg Point.line? hpoint) h.running
    exact Or.inr ⟨g, out, hframed, nofun⟩
  | finished hpoint htasks | uncaught e hpoint htasks => exact Or.inl ⟨h.finish htasks, rfl⟩
  | ended hpoint => exact absurd hpoint h.running

end Framed

theorem Over.report?_eq_none (h : Over x) : x.report? = none := by
  rw [report?, action?_of_ended h.point]
  rfl

theorem Over.step (h : Over x) {stops : Bool} (hstep : Stepped x stops a y) : y = x := by
  have hpoint := h.point
  cases hstep with
  | ended => rfl
  | executed s a y hs | failed s f hs =>
    rw [hpoint] at hs
    contradiction
  | reported _ _ _ hnot | again _ _ hnot | unwound _ _ _ hnot | uncaught _ hnot =>
    rw [hpoint] at hnot
    contradiction
  | left _ _ _ _ hnot =>
    rw [hpoint] at hnot
    rcases hnot with hnot | ⟨hnot, -⟩ <;> contradiction
  | dropped _ _ hnot =>
    rw [hpoint] at hnot
    rcases hnot with ⟨_, hnot⟩ | ⟨_, hnot⟩ <;> contradiction
  | finished hnot =>
    rw [hpoint] at hnot
    rcases hnot with hnot | ⟨_, hnot⟩ <;> contradiction

/-- A run of a program, over or with its frames in order. -/
structure InOrder (p : Program) (x : Execution) : Prop where
  ofProgram : OfProgram p x
  stack : Over x ∨ ∃ f outer, Framed x f outer

theorem inOrder_after (id : ThreadId) (name : String) (p : Program) (answers : List Bool) :
    InOrder p ((start id name p).after answers) := by
  apply after_keeps
  · intro x stops hx
    refine ⟨hx.ofProgram.step (stepped x stops), ?_⟩
    rcases hx.stack with hover | ⟨f, outer, hframed⟩
    · rw [hover.step (stepped x stops)]
      exact Or.inl hover
    · rcases hframed.step hx.ofProgram (stepped x stops) with ⟨hover, -⟩ | ⟨g, out, hg, -⟩
      · exact Or.inl hover
      · exact Or.inr ⟨g, out, hg⟩
  · exact ⟨ofProgram_start id name p, Or.inr ⟨_, [], framed_start id name p⟩⟩

/-! ## A statement and its frame -/

/-- What was to be done behind a statement is to be done next: the statement is over, by itself, by
a return or by an exception. -/
def Completed (rest : List Task) (x : Execution) : Prop :=
  x.tasks = rest ∧ (x.point = .next ∨ (∃ v, x.point = .returning v) ∨ ∃ e, x.point = .unwinding e)

/-- A statement of the frame `f` has come to `own`, with tasks of its own before the rest and frames
above, one for each call of these tasks. -/
structure Busy (f : Frame) (outer : List Frame) (rest inner : List Task) (upper : List Frame)
    (own : Frame) (x : Execution) : Prop where
  tasks : x.tasks = inner ++ rest
  frames : x.stack.frames = upper ++ own :: outer
  same : Frame.Same f own
  balanced : upper.length = (inner.filterMap Task.caller?).length
  running : x.point ≠ .ended

namespace Busy
variable {inner : List Task} {upper : List Frame} {own : Frame}

theorem touch (h : Busy f outer rest inner upper own x) {inner' : List Task} {y : Execution}
    (htasks : y.tasks = inner' ++ rest)
    (hcallers : inner'.filterMap Task.caller? = inner.filterMap Task.caller?)
    (hframes : Stack.Touched x.stack y.stack)
    (hrunning : y.point ≠ .ended) :
    ∃ upper' own', Busy f outer rest inner' upper' own' y := by
  -- The innermost frame is the statement's own, or that of a call above it.
  cases upper with
  | nil =>
    obtain ⟨g, hg, hsame⟩ := hframes own outer h.frames
    exact ⟨[], g, htasks, hg, h.same.trans hsame, hcallers ▸ h.balanced, hrunning⟩
  | cons u upper =>
    obtain ⟨g, hg, -⟩ := hframes u (upper ++ own :: outer) h.frames
    exact ⟨g :: upper, own, htasks, hg, h.same, hcallers ▸ h.balanced, hrunning⟩

theorem next_task (h : Busy f outer rest inner upper own x) (hnot : ¬Completed rest x)
    (hpoint : x.point = .next ∨ (∃ v, x.point = .returning v) ∨ ∃ e, x.point = .unwinding e)
    {behind : List Task} (htasks : x.tasks = task :: behind) :
    ∃ inner', inner = task :: inner' ∧ behind = inner' ++ rest := by
  have hinner := h.tasks
  cases inner with
  -- With no task of its own left, the statement would be over.
  | nil => exact absurd ⟨hinner, hpoint⟩ hnot
  | cons t inner' =>
    rw [htasks] at hinner
    obtain ⟨rfl, hbehind⟩ := List.cons.inj hinner
    exact ⟨inner', rfl, hbehind⟩

theorem executed (h : Busy f outer rest inner upper own x) {s : Stmt} (hstep : Executed x s a y) :
    ∃ inner' upper' own', Busy f outer rest inner' upper' own' y := by
  have hsame : Stack.Touched x.stack x.stack := Stack.touched_of_frames_eq rfl
  cases hstep with
  | printed text made | slept millis made => exact ⟨inner, h.touch h.tasks rfl hsame h.running⟩
  | halted label => exact ⟨inner, upper, own, h⟩
  | assigned name v made hv =>
    exact ⟨inner, h.touch h.tasks rfl (Stack.touched_assign _ name v) h.running⟩
  | entered tasks made htasks =>
    refine ⟨tasks ++ inner, h.touch ?_ ?_ hsame h.running⟩
    · rw [List.append_assoc, ← h.tasks]
    · exact filterMap_caller?_append (fun task htask => (htasks task htask).1) inner
  | called d frame made hcall hd hframe hargs =>
    refine ⟨d.body.map Task.statement ++ .leave s :: inner, { frame with line := d.line } :: upper,
      own, ?_, ?_, h.same, ?_, h.running⟩
    · rw [h.tasks, List.append_assoc, List.cons_append]
    · exact Stack.frames_setLine (congrArg _ h.frames) _
    · rw [filterMap_caller?_body]
      exact congrArg (· + 1) h.balanced
  | returned v made hv => exact ⟨inner, h.touch h.tasks rfl hsame nofun⟩

theorem pop {s : Stmt} (h : Busy f outer rest (.leave s :: inner) upper own x) {y : Execution}
    (htasks : y.tasks = inner ++ rest) (hframes : y.stack.frames = x.stack.pop.frames)
    (hrunning : y.point ≠ .ended) :
    ∃ upper', Busy f outer rest inner upper' own y := by
  have hbalanced := h.balanced
  cases upper with
  | nil => contradiction
  | cons u upper =>
    exact ⟨upper, htasks, hframes.trans (Stack.frames_pop h.frames), h.same,
      Nat.succ.inj hbalanced, hrunning⟩

theorem step (h : Busy f outer rest inner upper own x) (hnot : ¬Completed rest x) {stops : Bool}
    (hstep : Stepped x stops a y) : ∃ inner' upper' own', Busy f outer rest inner' upper' own' y := by
  have hsame : Stack.Touched x.stack x.stack := Stack.touched_of_frames_eq rfl
  cases hstep with
  | reported task behind point hpoint htasks hcaller hp =>
    obtain ⟨inner', rfl, rfl⟩ := h.next_task hnot (Or.inl hpoint) htasks
    refine ⟨inner', h.touch rfl (List.filterMap_cons_none hcaller).symm
      (Stack.touched_setLine x.stack _) ?_⟩
    rintro rfl
    contradiction
  | executed s a y hs hexecuted =>
    have hnext : Busy f outer rest inner upper own { x with point := .next } :=
      ⟨h.tasks, h.frames, h.same, h.balanced, nofun⟩
    exact hnext.executed hexecuted
  | failed s e hs hexecute =>
    refine ⟨inner, h.touch h.tasks rfl hsame ?_⟩
    cases stops <;> nofun
  | again line e hpoint => exact ⟨inner, h.touch h.tasks rfl hsame nofun⟩
  | left caller behind v made hpoint htasks =>
    have hcompleted : x.point = .next ∨ (∃ v, x.point = .returning v) ∨ ∃ e, x.point = .unwinding e :=
      hpoint.elim (fun hreturning => Or.inr (Or.inl ⟨v, hreturning⟩)) fun hnext => Or.inl hnext.1
    obtain ⟨inner', rfl, rfl⟩ := h.next_task hnot hcompleted htasks
    obtain ⟨upper', hpopped⟩ := h.pop
      (y := { x with stack := x.stack.pop, tasks := inner' ++ rest, point := .next, made }) rfl rfl
      nofun
    cases caller with
    | assignCall line name c =>
      exact ⟨inner', hpopped.touch rfl rfl (Stack.touched_assign _ name v) nofun⟩
    | _ => exact ⟨inner', upper', own, hpopped⟩
  | dropped task behind hpoint htasks hcaller =>
    obtain ⟨inner', rfl, rfl⟩ := h.next_task hnot (Or.inr hpoint) htasks
    exact ⟨inner', h.touch rfl (List.filterMap_cons_none hcaller).symm hsame h.running⟩
  | unwound e caller behind hpoint htasks =>
    obtain ⟨inner', rfl, rfl⟩ := h.next_task hnot (Or.inr (Or.inr ⟨e, hpoint⟩)) htasks
    obtain ⟨upper', hpopped⟩ := h.pop
      (y := { x with stack := x.stack.pop, tasks := inner' ++ rest }) rfl rfl h.running
    exact ⟨inner', upper', own, hpopped⟩
  | finished hpoint htasks =>
    have hcompleted : x.point = .next ∨ (∃ v, x.point = .returning v) ∨ ∃ e, x.point = .unwinding e :=
      hpoint.imp_right Or.inl
    have hrest : rest = [] := (List.append_eq_nil_iff.mp (h.tasks ▸ htasks)).2
    exact absurd ⟨htasks.trans hrest.symm, hcompleted⟩ hnot
  | uncaught e hpoint htasks =>
    have hrest : rest = [] := (List.append_eq_nil_iff.mp (h.tasks ▸ htasks)).2
    exact absurd ⟨htasks.trans hrest.symm, Or.inr (Or.inr ⟨e, hpoint⟩)⟩ hnot
  | ended hpoint => exact absurd hpoint h.running

theorem after (h : Busy f outer rest inner upper own x) (answers : List Bool)
    (hnot : ∀ as b bs, answers = as ++ b :: bs → ¬Completed rest (x.after as)) :
    ∃ inner' upper' own', Busy f outer rest inner' upper' own' (x.after answers) := by
  induction answers generalizing x inner upper own with
  | nil => exact ⟨inner, upper, own, h⟩
  | cons stops answers ih =>
    obtain ⟨inner', upper', own', hnext⟩ := h.step (hnot [] stops answers rfl) (stepped x stops)
    refine ih hnext ?_
    rintro as b bs rfl
    exact hnot (stops :: as) b bs rfl

theorem frames_of_completed (h : Busy f outer rest inner upper own x) (hx : Completed rest x) :
    upper = [] := by
  have hinner : inner = [] := List.append_left_eq_self.mp (h.tasks.symm.trans hx.1)
  have hbalanced := h.balanced
  rw [hinner] at hbalanced
  exact List.eq_nil_of_length_eq_zero hbalanced

end Busy

theorem proceed_of_report {r : Report} (hr : x.report? = some r) (stops : Bool) :
    x.proceed stops = x.step.2 := by
  unfold report? action? at hr
  unfold proceed
  split
  · rename_i hstep
    rw [hstep] at hr
    contradiction
  · rename_i hstep
    rw [hstep]

end

/-- At every report of a script that has been read, the thread shows frames of which each has begun,
so that their number is the depth of its calls: the innermost one is where the report comes from, and
the others are, in order, at the lines of the calls that they wait for. A statement that is begun keeps
the frames below its own, with their variables, and its own one; when it is over, however it has
ended, these are all the frames there are. When the run is over there are none. -/
theorem frames_in_step {file source : String} {p : Program} (hp : Program.ofText file source = .ok p)
    (id : ThreadId) (name : String) (answers : List Bool) :
    let x := (start id name p).after answers
    (∀ r, x.report? = some r →
      let y := x.step.2
      ∃ f outer, y.stack.frames = f :: outer ∧ f.file = r.file ∧ f.line = r.lineNumber ∧
        (∀ g ∈ f :: outer, 0 < g.line) ∧ Context.callDepth y = (f :: outer).length ∧
        outer.map (·.line) = y.callers.map Stmt.line ∧
        ∀ s ∈ y.callers, s.IsCall ∧ Stmt.Within p.body s) ∧
    (∀ s rest, x.point = .next → x.tasks = .statement s :: rest →
      ∃ f outer, x.stack.frames = f :: outer ∧ ∀ further,
        (∀ as b bs, further = as ++ b :: bs → ¬Completed rest (x.after as)) →
        let y := x.after further
        y.point ≠ .ended ∧ ∃ upper own, y.stack.frames = upper ++ own :: outer ∧
          Frame.Same f own ∧ (Completed rest y → upper = [])) ∧
    (x.point = .ended → x.stack.frames = []) := by
  intro x
  have hx : InOrder p x := inOrder_after id name p answers
  refine ⟨?_, ?_, ?_⟩
  · intro r hr y
    have hproceed : x.proceed false = y := proceed_of_report hr false
    have hstep : Stepped x false x.action? y := hproceed ▸ stepped x false
    have hy : OfProgram p y := hx.ofProgram.step hstep
    rcases hx.stack with hover | ⟨f, outer, hframed⟩
    · rw [hover.report?_eq_none] at hr
      contradiction
    · rcases hframed.step hx.ofProgram hstep with ⟨-, hnone⟩ | ⟨g, out, hg, hline⟩
      · rw [report?, hnone] at hr
        contradiction
      · have hcallers : ∀ s ∈ y.callers, s.IsCall ∧ Stmt.Within p.body s := by
          intro s hs
          obtain ⟨task, htask, hcaller⟩ := List.mem_filterMap.mp hs
          have hwithin := hy.tasks task htask
          rw [Task.eq_leave hcaller] at hwithin
          exact ⟨hg.calls s hs, hwithin⟩
        have hpos : ∀ k ∈ g :: out, 0 < k.line := by
          intro k hk
          rcases List.mem_cons.mp hk with rfl | hk
          · obtain ⟨s, hs, hsline⟩ := (hx.ofProgram.report hr).2
            rw [hline r hr, ← hsline]
            exact line_pos_of_ofText hp hs
          · have hk : k.line ∈ out.map (·.line) := List.mem_map_of_mem hk
            rw [hg.waiting] at hk
            obtain ⟨s, hs, hsline⟩ := List.mem_map.mp hk
            rw [← hsline]
            exact line_pos_of_ofText hp (hcallers s hs).2
        refine ⟨g, out, hg.frames, ?_, hline r hr, hpos, ?_, hg.waiting, hcallers⟩
        · rw [hg.files g (List.mem_cons_self ..), hy.program, (hx.ofProgram.report hr).1]
        · change y.stack.frames.countP _ = _
          rw [hg.frames, List.countP_eq_length]
          exact fun k hk => decide_eq_true (hpos k hk)
  · intro s rest hpoint htasks
    rcases hx.stack with hover | ⟨f, outer, hframed⟩
    · rw [hover.tasks] at htasks
      contradiction
    · refine ⟨f, outer, hframed.frames, ?_⟩
      intro further hnot y
      have hbusy : Busy f outer rest [.statement s] [] f x :=
        ⟨htasks, hframed.frames, .refl f, rfl, hframed.running⟩
      obtain ⟨inner, upper, own, hy⟩ := hbusy.after further hnot
      exact ⟨hy.running, upper, own, hy.frames, hy.same, hy.frames_of_completed⟩
  · intro hended
    rcases hx.stack with hover | ⟨f, outer, hframed⟩
    · exact hover.frames
    · exact absurd hended hframed.running

/-- A report from inside a call. -/
theorem frames_in_step_call :
    let source := "func double(n)\n  return n * 2\nend\nlet a = call double(4)\n"
    ∃ p f outer, Program.ofText "/srv/calls.demo" source = .ok p ∧
      let x := (start 10 "main" p).after (List.replicate 4 false)
      x.report?.map Report.lineNumber = some 2 ∧ x.step.2.stack.frames = f :: outer ∧ f.line = 2 ∧
        outer.map (·.line) = [4] ∧ Context.callDepth x.step.2 = (f :: outer).length := by
  intro source
  have hrun : (Program.ofText "/srv/calls.demo" source).toOption.any (fun p =>
      let x := (start 10 "main" p).after (List.replicate 4 false)
      x.report?.map Report.lineNumber = some 2 ∧ x.step.2.callers.map Stmt.line = [4]) = true := by
    decide +kernel
  cases hp : Program.ofText "/srv/calls.demo" source with
  | error e =>
    rw [hp] at hrun
    contradiction
  | ok p =>
    rw [hp] at hrun
    obtain ⟨hreport, hcallers⟩ := of_decide_eq_true hrun
    obtain ⟨r, hr, hline⟩ := Option.map_eq_some_iff.mp hreport
    obtain ⟨f, outer, hframes, -, hf, -, hdepth, houter, -⟩ :=
      (frames_in_step hp 10 "main" (List.replicate 4 false)).1 r hr
    exact ⟨p, f, outer, rfl, hreport, hframes, hf.trans hline, houter.trans hcallers, hdepth⟩

end Execution

end DebugAdapter.Script
