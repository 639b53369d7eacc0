import DebugAdapter.Proofs.Script.FrameStack

/-!
# Assignments

Where an assignment goes, and from where it is seen. Reading a name tries the local variables of a
frame, its arguments and the global variables, in this order; assigning asks for an argument and
takes a local variable otherwise. The two agree because no name is in both scopes of a frame
(`OwnScopes.Bound`): a call binds all the parameters at once, and from then on an assignment goes
to the arguments if and only if the name is a parameter.

This holds of every stack that comes up by calls, assignments and returns (`Stack.Arises`), and no
others come up in an execution (`Underway`).
-/

namespace DebugAdapter.Script

/-! ## One scope -/

namespace Variables

def names (scope : Variables) : List String := scope.values.map (·.1)

/-- The same scope, with another value for one name. -/
structure Updated (old : Variables) (name : String) (v : Value) (new : Variables) : Prop where
  identity : new.identity = old.identity
  get? : ∀ other, new.get? other = if other = name then some v else old.get? other

section
variable {scope : Variables} {name other : String} {v : Value}

theorem contains_iff : scope.contains name = true ↔ name ∈ scope.names := by
  rw [contains, get?, List.lookup_isSome_iff, names, List.mem_map]
  constructor
  · rintro ⟨e, he, hname⟩
    exact ⟨e, he, (eq_of_beq hname).symm⟩
  · rintro ⟨e, he, rfl⟩
    exact ⟨e, he, beq_self_eq_true e.1⟩

theorem get?_eq_none_iff : scope.get? name = none ↔ name ∉ scope.names := by
  rw [← contains_iff, contains, Bool.not_eq_true, Option.isSome_eq_false_iff, Option.isNone_iff_eq_none]

theorem lookup_cons (k : String) (w : Value) (values : List (String × Value)) (other : String) :
    ((k, w) :: values).lookup other = if other = k then some w else values.lookup other := by
  rw [List.lookup_cons]
  by_cases h : other = k
  · rw [if_pos h, beq_iff_eq.mpr h]
  · rw [if_neg h, beq_eq_false_iff_ne.mpr h]

theorem lookup_setIn (name other : String) (v : Value) (values : List (String × Value)) :
    (setIn name v values).lookup other = if other = name then some v else values.lookup other := by
  induction values with
  | nil => exact lookup_cons name v [] other
  | cons e values ih =>
    obtain ⟨k, w⟩ := e
    rw [setIn, lookup_cons]
    split
    · rename_i hk
      obtain rfl := eq_of_beq hk
      rw [lookup_cons]
      split
      · rfl
      · rfl
    · rename_i hk
      rw [lookup_cons, ih]
      by_cases h : other = k
      · have hne : other ≠ name := by
          rintro rfl
          exact hk (beq_iff_eq.mpr h)
        rw [if_pos h, if_neg hne, if_pos h]
      · rw [if_neg h, if_neg h]

theorem updated_set (scope : Variables) (name : String) (v : Value) :
    Updated scope name v (scope.set name v) :=
  ⟨rfl, fun other => lookup_setIn name other v scope.values⟩

theorem mem_names_set (h : other ∈ (scope.set name v).names) : other = name ∨ other ∈ scope.names := by
  by_cases hother : other = name
  · exact Or.inl hother
  · rw [← contains_iff, contains, (updated_set scope name v).get?, if_neg hother] at h
    exact Or.inr (contains_iff.mp h)

theorem names_set (h : name ∈ scope.names) : (scope.set name v).names = scope.names := by
  have hset : ∀ values : List (String × Value), name ∈ values.map (·.1) →
      (setIn name v values).map (·.1) = values.map (·.1) := by
    intro values
    induction values with
    | nil => exact fun hnot => absurd hnot List.not_mem_nil
    | cons e values ih =>
      intro hmem
      rw [setIn]
      split
      · rfl
      · rename_i hk
        rcases List.mem_cons.mp hmem with rfl | hmem
        · exact absurd (beq_self_eq_true _) hk
        · exact congrArg (e.1 :: ·) (ih hmem)
  exact hset scope.values h

end

end Variables

/-! ## The scopes of a function's frame -/

namespace OwnScopes

/-- The value of a name as far as the frame's own scopes tell it. -/
def get? (own : OwnScopes) (name : String) : Option Value :=
  (own.locals.get? name).or (own.args.get? name)

/-- The arguments are those of the parameters, and no local variable has a name of theirs. -/
structure Bound (own : OwnScopes) (params : List String) : Prop where
  names : own.args.names = params
  apart : ∀ name ∈ own.locals.names, name ∉ own.args.names

/-- An assignment in a function with these parameters: to the argument if the name is one of them, and
to a local variable if it is not. -/
def Assigned (params : List String) (own : OwnScopes) (name : String) (v : Value)
    (own' : OwnScopes) : Prop :=
  if name ∈ params then own'.locals = own.locals ∧ own.args.Updated name v own'.args
  else own'.args = own.args ∧ own.locals.Updated name v own'.locals

/-- The scopes after an assignment. -/
def assign (own : OwnScopes) (name : String) (v : Value) : OwnScopes :=
  if own.args.contains name then { own with args := own.args.set name v }
  else { own with locals := own.locals.set name v }

section
variable {own own' : OwnScopes} {params : List String} {name : String} {v : Value}

theorem assign_of_mem (h : name ∈ own.args.names) :
    own.assign name v = { own with args := own.args.set name v } :=
  if_pos (Variables.contains_iff.mpr h)

theorem assign_of_not_mem (h : name ∉ own.args.names) :
    own.assign name v = { own with locals := own.locals.set name v } :=
  if_neg fun hcontains => h (Variables.contains_iff.mp hcontains)

namespace Bound

theorem assigned (h : own.Bound params) (name : String) (v : Value) :
    Assigned params own name v (own.assign name v) := by
  unfold Assigned
  rw [← h.names]
  split
  · rename_i hmem
    rw [assign_of_mem hmem]
    exact ⟨rfl, Variables.updated_set _ _ _⟩
  · rename_i hmem
    rw [assign_of_not_mem hmem]
    exact ⟨rfl, Variables.updated_set _ _ _⟩

theorem assign (h : own.Bound params) (name : String) (v : Value) :
    (own.assign name v).Bound params := by
  by_cases hmem : name ∈ own.args.names
  · rw [assign_of_mem hmem]
    have hnames : (own.args.set name v).names = own.args.names := Variables.names_set hmem
    refine ⟨hnames.trans h.names, ?_⟩
    intro other hother
    rw [hnames]
    exact h.apart other hother
  · rw [assign_of_not_mem hmem]
    refine ⟨h.names, ?_⟩
    intro other hother
    rcases Variables.mem_names_set hother with rfl | hother
    · exact hmem
    · exact h.apart other hother

/-- An argument that is assigned is not hidden by a local variable. -/
theorem get?_assigned (h : own.Bound params) (hassigned : Assigned params own name v own')
    (other : String) : own'.get? other = if other = name then some v else own.get? other := by
  unfold Assigned at hassigned
  rw [get?, get?]
  split at hassigned
  · rename_i hmem
    obtain ⟨hlocals, hargs⟩ := hassigned
    rw [hlocals, hargs.get?]
    split
    · rename_i hother
      have hnone : own.locals.get? other = none := by
        rw [Variables.get?_eq_none_iff]
        intro hlocal
        apply h.apart other hlocal
        rw [h.names, hother]
        exact hmem
      rw [hnone, Option.none_or]
    · rfl
  · obtain ⟨hargs, hlocals⟩ := hassigned
    rw [hargs, hlocals.get?]
    split
    · rfl
    · rfl

end Bound

end

end OwnScopes

/-! ## The stack -/

namespace Frame

/-- The value of a name as seen from the frame. -/
def lookup (f : Frame) (globals : Variables) (name : String) : Option Value :=
  match f.own with
  | some own => (own.get? name).or (globals.get? name)
  | none => globals.get? name

/-- No name is both that of a local variable and that of an argument. -/
def Apart (f : Frame) : Prop :=
  ∀ own, f.own = some own → ∀ name, ¬(own.locals.contains name = true ∧ own.args.contains name = true)

end Frame

/-- The frame of a call that begins: the parameters are bound, and there are no local variables. -/
def FunctionDef.frame (d : FunctionDef) (locals args : Identity) (values : List Value) : Frame :=
  ⟨d.name, d.file, 0, some ⟨⟨locals, []⟩, ⟨args, d.params.zip values⟩⟩⟩

namespace Stack

/-- The stacks that come up while a script runs, with the functions whose calls are open, innermost
first. A call gives its function one argument for each parameter, and what is left is always a call:
the frame of the script itself stays. -/
inductive Arises (file : String) : List FunctionDef → Stack → Prop where
  | begun (globals : Identity) : Arises file [] ⟨[⟨Execution.mainFrame, file, 0, none⟩], ⟨globals, []⟩⟩
  | moved {calls : List FunctionDef} {s : Stack} (h : Arises file calls s) (line : Nat) :
    Arises file calls (s.setLine line)
  | assigned {calls : List FunctionDef} {s : Stack} (h : Arises file calls s) (name : String)
    (v : Value) : Arises file calls (s.assign name v)
  | entered {calls : List FunctionDef} {s : Stack} (h : Arises file calls s) (d : FunctionDef)
    (locals args : Identity) (values : List Value) (hvalues : values.length = d.params.length) :
    Arises file (d :: calls) (s.push (d.frame locals args values))
  | left {d : FunctionDef} {calls : List FunctionDef} {s : Stack} (h : Arises file (d :: calls) s) :
    Arises file calls s.pop

/-- What an assignment to a name in the innermost frame comes to, given the functions whose calls are
open. -/
structure Assigned (calls : List FunctionDef) (s : Stack) (name : String) (v : Value) (t : Stack) :
    Prop where
  read : t.lookup 0 name = some v
  /-- Nothing else that is read from any frame changes. -/
  others : ∀ i other, i ≠ 0 ∨ other ≠ name → t.lookup i other = s.lookup i other
  script : calls = [] → t.frames = s.frames ∧ s.globals.Updated name v t.globals
  function : ∀ d callers, calls = d :: callers → t.globals = s.globals ∧
    ∃ f outer own own', s.frames = f :: outer ∧ f.own = some own ∧
      t.frames = { f with own := some own' } :: outer ∧ OwnScopes.Assigned d.params own name v own'

/-- Frames of open calls, each of its function, and below them that of the script. -/
inductive Standing : List FunctionDef → List Frame → Prop where
  | script (f : Frame) (hf : f.own = none) : Standing [] [f]
  | call {d : FunctionDef} {calls : List FunctionDef} {f : Frame} {outer : List Frame}
    (hd : f.function = d.name ∧ f.file = d.file) (own : OwnScopes) (hf : f.own = some own)
    (hown : own.Bound d.params) (h : Standing calls outer) : Standing (d :: calls) (f :: outer)

section
variable {s : Stack} {f : Frame} {outer : List Frame} {calls : List FunctionDef} {name : String}
  {v : Value}

theorem lookup_eq (s : Stack) (i : Nat) (name : String) :
    s.lookup i name = s.frames[i]?.bind fun f => f.lookup s.globals name := by
  cases hf : s.frames[i]? with
  | none => simp only [lookup, hf, Option.bind_none]
  | some f =>
    simp only [lookup, hf, Option.bind_some, Frame.lookup]
    cases f.own with
    | none => rfl
    | some own => exact Option.or_assoc.symm

theorem assign_of_script (hframes : s.frames = f :: outer) (hf : f.own = none) :
    s.assign name v = { s with globals := s.globals.set name v } := by
  simp only [assign, hframes, hf]

theorem assign_of_call {own : OwnScopes} (hframes : s.frames = f :: outer) (hf : f.own = some own) :
    s.assign name v = { s with frames := { f with own := some (own.assign name v) } :: outer } := by
  simp only [assign, hframes, hf, OwnScopes.assign]

namespace Standing

theorem setLine (h : Standing calls s.frames) (line : Nat) : Standing calls (s.setLine line).frames := by
  generalize hframes : s.frames = frames at h
  cases h with
  | script f hf =>
    rw [frames_setLine hframes]
    exact .script _ hf
  | call hd own hf hown h =>
    rw [frames_setLine hframes]
    exact .call hd own hf hown h

theorem assign (h : Standing calls s.frames) (name : String) (v : Value) :
    Standing calls (s.assign name v).frames := by
  generalize hframes : s.frames = frames at h
  cases h with
  | script f hf =>
    rw [assign_of_script hframes hf, hframes]
    exact .script f hf
  | call hd own hf hown h =>
    rw [assign_of_call hframes hf]
    exact .call hd _ rfl (hown.assign name v) h

theorem pop {d : FunctionDef} (h : Standing (d :: calls) s.frames) : Standing calls s.pop.frames := by
  generalize hframes : s.frames = frames at h
  cases h with
  | call hd own hf hown h =>
    rw [frames_pop hframes]
    exact h

theorem push (h : Standing calls s.frames) {d : FunctionDef} (locals args : Identity)
    {values : List Value} (hvalues : values.length = d.params.length) :
    Standing (d :: calls) (s.push (d.frame locals args values)).frames := by
  refine .call ⟨rfl, rfl⟩ _ rfl ⟨?_, ?_⟩ h
  · exact List.map_fst_zip (Nat.le_of_eq hvalues.symm)
  · exact fun name hname => absurd hname List.not_mem_nil

theorem frames_pop_nil (h : Standing [] s.frames) : s.pop.frames = [] := by
  generalize hframes : s.frames = frames at h
  cases h with
  | script f hf => exact frames_pop hframes

theorem apart {frames : List Frame} (h : Standing calls frames) : ∀ f ∈ frames, f.Apart := by
  induction h with
  | script f hf =>
    intro g hg own hown
    rw [List.mem_singleton.mp hg, hf] at hown
    contradiction
  | call hd own hf hown _ ih =>
    intro g hg
    rcases List.mem_cons.mp hg with rfl | hg
    · intro own' hown' name hboth
      obtain rfl := Option.some.inj (hf.symm.trans hown')
      exact hown.apart name (Variables.contains_iff.mp hboth.1) (Variables.contains_iff.mp hboth.2)
    · exact ih g hg

/-- What is read changes in one frame and for one name only. -/
theorem lookup_assign (h : Standing calls s.frames) (name : String) (v : Value) (i : Nat)
    (other : String) : (s.assign name v).lookup i other =
      if i = 0 ∧ other = name then some v else s.lookup i other := by
  generalize hframes : s.frames = frames at h
  cases h with
  | script f hf =>
    rw [assign_of_script hframes hf, lookup_eq, lookup_eq, hframes]
    cases i with
    | zero =>
      simp only [List.getElem?_cons_zero, Option.bind_some, Frame.lookup, hf,
        (Variables.updated_set s.globals name v).get?, true_and]
    | succ i =>
      -- The global variables have changed, but no frame is below that of the script.
      rw [if_neg fun hnot => Nat.succ_ne_zero i hnot.1]
      rfl
  | call hd own hf hown h =>
    rw [assign_of_call hframes hf, lookup_eq, lookup_eq, hframes]
    cases i with
    | zero =>
      simp only [List.getElem?_cons_zero, Option.bind_some, Frame.lookup, hf,
        hown.get?_assigned (hown.assigned name v), true_and]
      split
      · exact Option.some_or
      · rfl
    | succ i =>
      rw [if_neg fun hnot => Nat.succ_ne_zero i hnot.1]
      rfl

theorem assigned (h : Standing calls s.frames) (name : String) (v : Value) :
    s.Assigned calls name v (s.assign name v) := by
  refine ⟨?_, ?_, ?_, ?_⟩
  · rw [h.lookup_assign, if_pos ⟨rfl, rfl⟩]
  · intro i other hother
    rw [h.lookup_assign, if_neg]
    rintro ⟨hi, hname⟩
    exact hother.elim (· hi) (· hname)
  · rintro rfl
    generalize hframes : s.frames = frames at h
    cases h with
    | script f hf =>
      rw [assign_of_script hframes hf]
      exact ⟨hframes, Variables.updated_set s.globals name v⟩
  · rintro d callers rfl
    generalize hframes : s.frames = frames at h
    cases h with
    | @call _ _ f outer hd own hf hown h =>
      rw [assign_of_call hframes hf]
      exact ⟨rfl, f, outer, own, _, rfl, hf, rfl, hown.assigned name v⟩

end Standing

theorem Arises.standing {file : String} (h : Arises file calls s) : Standing calls s.frames := by
  induction h with
  | begun globals => exact .script _ rfl
  | moved _ line ih => exact ih.setLine line
  | assigned _ name v ih => exact ih.assign name v
  | entered _ d locals args values hvalues ih => exact ih.push locals args hvalues
  | left _ ih => exact ih.pop

end

end Stack

/-! ## Executions -/

section
variable {region : Nat} {lookup : String → Option Value}

theorem length_evalAll {es : List Expr} {vs : List Value} {n m : Nat}
    (h : evalAll region lookup es n = .ok (vs, m)) : vs.length = es.length := by
  induction es generalizing vs n m with
  | nil =>
    rw [evalAll] at h
    cases h
    rfl
  | cons e es ih =>
    rw [evalAll] at h
    obtain ⟨⟨v, k⟩, -, h⟩ := ok_of_bind h
    obtain ⟨⟨rest, l⟩, hes, h⟩ := ok_of_bind h
    cases h
    exact congrArg (· + 1) (ih hes)

end

namespace Execution

section
variable {x y : Execution} {a : Option Action} {file : String} {calls : List FunctionDef}

theorem length_evaluateAll {es : List Expr} {vs : List Value} (h : x.evaluateAll es = .ok (vs, y)) :
    vs.length = es.length := by
  unfold evaluateAll at h
  split at h
  · rename_i heval
    cases h
    exact length_evalAll heval
  · contradiction

/-- A function is entered with one argument for each parameter. -/
theorem call_enters {c : Call} {caller : Stmt} (h : x.call c caller = .ok (a, y)) :
    ∃ (d : FunctionDef) (locals args : Identity) (values : List Value),
      values.length = d.params.length ∧
      y.stack = (x.stack.push (d.frame locals args values)).setLine d.line := by
  obtain ⟨d, -, h⟩ := ok_of_bind h
  split at h
  · contradiction
  · rename_i hlength
    obtain ⟨⟨values, z⟩, hvalues, h⟩ := ok_of_bind h
    obtain ⟨-, made, rfl⟩ := evaluateAll_ok hvalues
    cases h
    refine ⟨d, _, _, values, ?_, rfl⟩
    rw [length_evaluateAll hvalues]
    exact Decidable.not_not.mp hlength

theorem execute_enters {s : Stmt} (hs : s.IsCall) (h : x.execute s = .ok (a, y)) :
    ∃ (d : FunctionDef) (locals args : Identity) (values : List Value),
      values.length = d.params.length ∧
      y.stack = (x.stack.push (d.frame locals args values)).setLine d.line := by
  rcases hs with ⟨n, c, rfl⟩ | ⟨n, name, c, rfl⟩
  · exact call_enters h
  · exact call_enters h

/-- A run that is not over, with the functions whose calls are open. -/
structure Underway (file : String) (calls : List FunctionDef) (x : Execution) : Prop where
  arises : x.stack.Arises file calls
  callers : calls.length = x.callers.length
  running : x.point ≠ .ended

theorem underway_start (id : ThreadId) (name : String) (p : Program) :
    Underway p.file [] (start id name p) where
  arises := .begun _
  callers := by
    have hcallers : (start id name p).callers = [] :=
      List.map_eq_nil_iff.mp (framed_start id name p).waiting.symm
    rw [hcallers]
    rfl
  running := nofun

namespace Underway

theorem pop (h : Underway file calls x) {caller : Stmt} {rest : List Task}
    (htasks : x.tasks = .leave caller :: rest) :
    x.stack.pop.Arises file calls.tail ∧ calls.tail.length = (rest.filterMap Task.caller?).length := by
  have hcallers := h.callers
  rw [Execution.callers, htasks] at hcallers
  cases calls with
  | nil => contradiction
  | cons d calls => exact ⟨h.arises.left, Nat.succ.inj hcallers⟩

theorem finish (h : Underway file calls x) (htasks : x.tasks = []) : Over x.finish := by
  have hcallers := h.callers
  rw [Execution.callers, htasks] at hcallers
  have hcalls : calls = [] := List.eq_nil_of_length_eq_zero hcallers
  have hstanding := h.arises.standing
  rw [hcalls] at hstanding
  exact ⟨rfl, htasks, hstanding.frames_pop_nil⟩

theorem executed (h : Underway file calls x) {s : Stmt} (hs : x.point.executes? = some s)
    (stops : Bool) : ∃ calls', Underway file calls' (x.proceed stops) := by
  cases hexecute : { x with point := .next }.execute s with
  | error f =>
    have hfails : x.Fails s f := ⟨hs, hexecute⟩
    rw [hfails.proceed]
    refine ⟨calls, h.arises, h.callers, ?_⟩
    cases stops <;> nofun
  | ok r =>
    obtain ⟨a, y⟩ := r
    rw [proceed_of_executes hs hexecute]
    cases execute_ok hexecute with
    | printed | slept | halted | returned => exact ⟨calls, h.arises, h.callers, nofun⟩
    | assigned name v made hv => exact ⟨calls, h.arises.assigned name v, h.callers, nofun⟩
    | entered tasks made htasks =>
      have hcallers := filterMap_caller?_append (fun task htask => (htasks task htask).1) x.tasks
      exact ⟨calls, h.arises, h.callers.trans (congrArg List.length hcallers.symm), nofun⟩
    | called d frame made hcall hd hframe hargs =>
      -- The inversion says nothing about the scopes of the new frame, so the call is opened again.
      obtain ⟨e, locals, args, values, hvalues, hstack⟩ := execute_enters hcall hexecute
      refine ⟨e :: calls, ?_, ?_, nofun⟩
      · rw [hstack]
        exact (h.arises.entered e locals args values hvalues).moved e.line
      · rw [Execution.callers, filterMap_caller?_body]
        exact congrArg (· + 1) h.callers

theorem step (h : Underway file calls x) (stops : Bool) :
    Over (x.proceed stops) ∨ ∃ calls', Underway file calls' (x.proceed stops) := by
  cases hexecutes : x.point.executes? with
  | some s => exact Or.inr (h.executed hexecutes stops)
  | none =>
    have hstep := stepped x stops
    generalize x.action? = a, x.proceed stops = y at hstep
    cases hstep with
    | executed s a y hs | failed s f hs =>
      rw [hexecutes] at hs
      contradiction
    | reported task rest point hpoint htasks hcaller hp =>
      refine Or.inr ⟨calls, h.arises.moved _, ?_, ?_⟩
      · exact h.callers.trans (congrArg List.length (Framed.callers_eq htasks hcaller))
      · rintro rfl
        contradiction
    | again line e hpoint => exact Or.inr ⟨calls, h.arises, h.callers, nofun⟩
    | left caller rest v made hpoint htasks =>
      obtain ⟨harises, hcallers⟩ := h.pop htasks
      right
      cases caller with
      | assignCall line name c => exact ⟨_, harises.assigned name v, hcallers, nofun⟩
      | _ => exact ⟨_, harises, hcallers, nofun⟩
    | dropped task rest hpoint htasks hcaller =>
      refine Or.inr ⟨calls, h.arises, ?_, h.running⟩
      exact h.callers.trans (congrArg List.length (Framed.callers_eq htasks hcaller))
    | unwound e caller rest hpoint htasks =>
      obtain ⟨harises, hcallers⟩ := h.pop htasks
      exact Or.inr ⟨_, harises, hcallers, h.running⟩
    | finished hpoint htasks | uncaught e hpoint htasks => exact Or.inl (h.finish htasks)
    | ended hpoint => exact absurd hpoint h.running

end Underway

theorem over_or_underway_after (id : ThreadId) (name : String) (p : Program) (answers : List Bool) :
    Over ((start id name p).after answers) ∨
      ∃ calls, Underway p.file calls ((start id name p).after answers) := by
  refine after_keeps (I := fun x => Over x ∨ ∃ calls, Underway p.file calls x) ?_ ?_ answers
  · rintro x stops (hover | ⟨calls, hunderway⟩)
    · rw [hover.step (stepped x stops)]
      exact Or.inl hover
    · exact hunderway.step stops
  · exact Or.inr ⟨[], underway_start id name p⟩

end

/-- Until a run is over, its stack comes up by calls, assignments and returns, and so does that of a
caller which a call is about to return to; afterwards there are no frames, and nothing is done any
more. In a stack that comes up so, the frames are those of the open calls, with an argument for each
parameter, and that of the script, and none has a local variable and an argument of the same name.
Whatever is assigned in it, the innermost frame reads the new value, and all else that is read, from
this frame or from another one, is as before. In a function the global variables are left alone: the
argument is set if the name is one of the function's parameters, and a local variable otherwise. -/
theorem assigns_innermost (p : Program) :
    (∀ id name answers,
      let x := (start id name p).after answers
      (x.point = .ended ∧ x.stack.frames = [] ∧ ∀ stops, x.proceed stops = x) ∨
        ∃ calls, x.stack.Arises p.file calls ∧ calls.length = x.callers.length ∧
          ∀ caller rest, x.tasks = .leave caller :: rest → x.stack.pop.Arises p.file calls.tail) ∧
    ∀ (calls : List FunctionDef) (s : Stack), s.Arises p.file calls →
      Stack.Standing calls s.frames ∧ (∀ f ∈ s.frames, f.Apart) ∧
        ∀ name v, s.Assigned calls name v (s.assign name v) := by
  refine ⟨?_, ?_⟩
  · intro id name answers x
    rcases over_or_underway_after id name p answers with hover | ⟨calls, hx⟩
    · exact Or.inl ⟨hover.point, hover.frames, proceed_of_ended hover.point⟩
    · exact Or.inr ⟨calls, hx.arises, hx.callers, fun caller rest htasks => (hx.pop htasks).1⟩
  · intro calls s h
    exact ⟨h.standing, h.standing.apart, h.standing.assigned⟩

/-- A function with two parameters of one name that calls itself, in the second of its calls. -/
theorem assigns_innermost_recursion :
    let source := "func count(n, n)\n  let n = n + 1\n  let m = n\n  if n < 2\n    call count(n, m)\n" ++
      "  end\nend\nlet g = 0\ncall count(0, 7)\n"
    ∃ p calls, Program.ofText "/srv/count.demo" source = .ok p ∧
      let s := ((start 10 "main" p).after (List.replicate 18 false)).stack
      s.Arises p.file calls ∧ calls.length = 2 ∧ (∀ f ∈ s.frames, f.Apart) ∧ ∀ v,
        let t := s.assign "n" v
        s.Assigned calls "n" v t ∧ t.lookup 0 "n" = some v ∧
          (t.lookup 0 "m").map Value.printed = some "2" ∧
          (t.lookup 1 "n").map Value.printed = some "1" := by
  intro source
  have hrun : (Program.ofText "/srv/count.demo" source).toOption.any (fun p =>
      let x := (start 10 "main" p).after (List.replicate 18 false)
      x.stack.frames.length = 3 ∧ x.callers.length = 2 ∧
        (x.stack.lookup 0 "m").map Value.printed = some "2" ∧
        (x.stack.lookup 1 "n").map Value.printed = some "1") = true := by
    decide +kernel
  cases hp : Program.ofText "/srv/count.demo" source with
  | error e =>
    rw [hp] at hrun
    contradiction
  | ok p =>
    rw [hp, Except.toOption, Option.any_some, decide_eq_true_iff] at hrun
    obtain ⟨hframes, hcallers, hm, hn⟩ := hrun
    rcases (assigns_innermost p).1 10 "main" (List.replicate 18 false) with
      ⟨-, hnone, -⟩ | ⟨calls, harises, hcalls, -⟩
    · rw [hnone] at hframes
      exact absurd hframes (by decide)
    · obtain ⟨-, hapart, hassigned⟩ := (assigns_innermost p).2 calls _ harises
      refine ⟨p, calls, rfl, harises, hcalls.trans hcallers, hapart, ?_⟩
      intro v t
      have ht := hassigned "n" v
      refine ⟨ht, ht.read, ?_, ?_⟩
      · rw [ht.others 0 "m" (Or.inr (by decide)), hm]
      · rw [ht.others 1 "n" (Or.inl (by decide)), hn]

end Execution

end DebugAdapter.Script
