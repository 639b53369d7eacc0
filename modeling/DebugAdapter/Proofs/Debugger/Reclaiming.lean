import DebugAdapter.Proofs.Debugger.Scopes
import DebugAdapter.Proofs.Value.Thinning

/-!
# Runs with and without reclaiming

A run asks things of a debugger one after the other while values come and go in the debuggee
(`Moment`). It is followed twice, as it is and with whatever it reclaims left out. The two debuggers
differ in handles of allocations that are gone, and in nothing else (`Mirrors`): a moment that
reclaims moves only the one, any other moment moves both alike and has the same answer in both.

Of memory no more is asked than that what is gone stays gone (`Mortal`). An address may be used again.
-/

namespace DebugAdapter

open Value (Alive)
open Inspector (Usable MadeBefore Kept)

variable {C : Type}

namespace Debugger

/-! ## Two debuggers -/

/-- The second debugger is the first without some handles of allocations that are gone. -/
structure Mirrors (gone : Identity → Prop) (d d' : Debugger C) : Prop where
  rest : d' = { d with inspector := d'.inspector }
  inspector : Inspector.Mirrors gone d.inspector d'.inspector

/-- The same answer, and debuggers of which one mirrors the other. -/
structure Agree {α : Type} (gone : Identity → Prop) (r r' : α × Debugger C) : Prop where
  answer : r'.1 = r.1
  state : Mirrors gone r.2 r'.2

section
variable {gone : Identity → Prop} {d : Debugger C} {s' : Inspector}

/-- What the inspectors agree on, the debuggers agree on. -/
theorem Agree.of_inspector {α β : Type} {r r' : α × Inspector} (h : Inspector.Agree gone r r')
    (d : Debugger C) (f : α → β) :
    Agree gone (f r.1, { d with inspector := r.2 }) (f r'.1, { d with inspector := r'.2 }) :=
  ⟨congrArg f h.answer, rfl, h.state⟩

theorem Agree.map {α β : Type} {r r' : α × Debugger C} (h : Agree gone r r') (f : α → β) :
    Agree gone (f r.1, r.2) (f r'.1, r'.2) :=
  ⟨congrArg f h.answer, h.state⟩

theorem Mirrors.eq_with_handles {d' : Debugger C} (h : Mirrors gone d d') :
    d' = { d with inspector := { d.inspector with handles := d'.inspector.handles } } :=
  h.rest.trans (congrArg (fun s => { d with inspector := s }) h.inspector.eq_with_handles)

/-! ## Scopes -/

theorem agree_listScope (h : Inspector.Mirrors gone d.inspector s') (frame : Int) (name : String)
    (id : Nat) :
    Agree gone (d.listScope frame name id)
      ({ d with inspector := s' }.listScope frame name id) :=
  ⟨rfl, rfl, h.note id name frame⟩

theorem agree_listScopes (h : Inspector.Mirrors gone d.inspector s') (frame : Int)
    {scopes : List Scope}
    (hscopes : ∀ s ∈ scopes, Usable gone d.inspector.made s.value.identity) :
    Agree gone (d.listScopes frame scopes) ({ d with inspector := s' }.listScopes frame scopes) := by
  induction scopes generalizing d s' with
  | nil => exact ⟨rfl, rfl, h⟩
  | cons s rest ih =>
    have hregister := h.register (hscopes s List.mem_cons_self)
    have hlisted := agree_listScope
      (d := { d with inspector := (d.inspector.register s.value).2 }) hregister.state frame s.name
      (d.inspector.register s.value).1
    have hrest := ih hlisted.state.inspector fun x hx => hscopes x (List.mem_cons_of_mem _ hx)
    simp only [listScopes, hregister.answer]
    exact ⟨congrArg (List.cons _) hrest.answer, hrest.state⟩

/-- The value that shows an exception is kept with the frames already, or it is new. -/
theorem agree_exceptionValue (h : Inspector.Mirrors gone d.inspector s')
    (hframes : ∀ v ∈ d.frames.held, Usable gone d.inspector.made v.identity) (t : ThreadId)
    (e : Exception) :
    Agree gone (d.exceptionValue t e) ({ d with inspector := s' }.exceptionValue t e) ∧
      d.inspector.made ≤ (d.exceptionValue t e).2.inspector.made ∧
      Usable gone (d.exceptionValue t e).2.inspector.made (d.exceptionValue t e).1.identity := by
  cases hv : d.frames.exceptions.get? t with
  | some v =>
    simp only [exceptionValue, hv]
    exact ⟨⟨rfl, rfl, h⟩, Nat.le_refl _, hframes v (mem_held_of_exception hv)⟩
  | none =>
    simp only [exceptionValue, hv, Inspector.makeException, Inspector.makeAll_eq, Inspector.make,
      h.made]
    exact ⟨⟨rfl, rfl, h.withMade (by omega)⟩, by omega,
      h.usable_fresh (Nat.le_add_right _ _) (Nat.lt_succ_self _)⟩

theorem agree_listException (h : Inspector.Mirrors gone d.inspector s')
    (hframes : ∀ v ∈ d.frames.held, Usable gone d.inspector.made v.identity) (frame : Int)
    (t : ThreadId) :
    Agree gone (d.listException frame t) ({ d with inspector := s' }.listException frame t) ∧
      d.inspector.made ≤ (d.listException frame t).2.inspector.made := by
  cases he : d.exceptionOf? t with
  | none =>
    have he' : { d with inspector := s' }.exceptionOf? t = none := he
    simp only [listException, he, he']
    exact ⟨⟨rfl, rfl, h⟩, Nat.le_refl _⟩
  | some e =>
    have he' : { d with inspector := s' }.exceptionOf? t = some e := he
    obtain ⟨⟨hvalue, hrest, hstate⟩, hmade, husable⟩ := agree_exceptionValue h hframes t e
    have hpin := hstate.pin husable
    have hlisted := agree_listScope
      (d := { (d.exceptionValue t e).2 with
        inspector := ((d.exceptionValue t e).2.inspector.pin (d.exceptionValue t e).1).2 })
      hpin.state frame "Exception"
      ((d.exceptionValue t e).2.inspector.pin (d.exceptionValue t e).1).1
    simp only [listException, he, he']
    rw [hrest, hvalue, hpin.answer]
    exact ⟨⟨congrArg (fun row => [row]) hlisted.answer, hlisted.state⟩, hmade⟩

theorem agree_scopes (h : Inspector.Mirrors gone d.inspector s')
    (hframes : ∀ v ∈ d.frames.held, Usable gone d.inspector.made v.identity) (frame : Int) :
    Agree gone (d.scopes frame) ({ d with inspector := s' }.scopes frame) := by
  cases hknown : d.frames.get? frame with
  | none =>
    simp only [scopes, hknown]
    exact ⟨rfl, rfl, h⟩
  | some known =>
    have hscopes : ∀ s ∈ known.frame.scopes, Usable gone d.inspector.made s.value.identity :=
      fun s hs => hframes _ (mem_held_of_scope hknown (List.mem_map_of_mem hs))
    simp only [scopes, hknown]
    split
    · obtain ⟨⟨hanswer, hrest, hstate⟩, hmade⟩ := agree_listException h hframes frame known.thread
      have hlisted := agree_listScopes hstate frame fun s hs => (hscopes s hs).mono hmade
      rw [hrest, hanswer]
      exact ⟨congrArg ((d.listException frame known.thread).1 ++ ·) hlisted.answer, hlisted.state⟩
    · have hlisted := agree_listScopes h frame hscopes
      exact ⟨congrArg ([] ++ ·) hlisted.answer, hlisted.state⟩

end

section
variable {room : Nat} {d : Debugger C}

theorem kept_listScopes (hroom : 0 < room) (h : Kept room d.inspector) (frame : Int)
    (scopes : List Scope) : Kept room (d.listScopes frame scopes).2.inspector := by
  induction scopes generalizing d with
  | nil => exact h
  | cons s rest ih =>
    refine ih ?_
    exact ((h.register s.value).after hroom (.setPath _ s.name)).after hroom (.setFrame _ frame)

theorem kept_listException (hroom : 0 < room) (h : Kept room d.inspector) (frame : Int)
    (t : ThreadId) : Kept room (d.listException frame t).2.inspector := by
  cases he : d.exceptionOf? t with
  | none =>
    simp only [listException, he]
    exact h
  | some e =>
    have hvalue : Kept room (d.exceptionValue t e).2.inspector := by
      unfold exceptionValue
      split
      · exact h
      · exact h.after hroom (.exception e)
    simp only [listException, he]
    exact ((hvalue.pin _).after hroom (.setPath _ "Exception")).after hroom (.setFrame _ frame)

theorem kept_scopes (hroom : 0 < room) (h : Kept room d.inspector) (frame : Int) :
    Kept room (d.scopes frame).2.inspector := by
  unfold scopes
  split
  · exact h
  · rename_i known _
    refine kept_listScopes hroom ?_ frame known.frame.scopes
    split
    · exact kept_listException hroom h frame known.thread
    · exact h

end

/-! ## Runs -/

/-- What is asked of a debugger. -/
inductive Call (C : Type) where
  | register (v : Value)
  | pin (v : Value)
  /-- The pin under a handle, which is used by that. -/
  | pinned (id : Nat)
  | row (name : String) (v : Value)
  /-- The value behind a handle, and what is noted of the handle. -/
  | value (id : Nat)
  | sourcePath (id : Nat)
  | happen (e : Happening C)

/-- Something is asked, and so much is alive in the debuggee. -/
structure Moment (C : Type) where
  debuggee : Debuggee
  call : Call C

inductive Answer where
  | nothing
  /-- So many handles were dead. -/
  | dead (count : Nat)
  | handle (id : Nat)
  | pinned (v : Option Value)
  | value (shown : Option (Value × Option String × Option Int))
  | path (path : Option String)
  | row (row : Variable)
  | rows (rows : List Variable)
  | stack (rows : List FrameRow) (depth : Nat)
  | scopes (rows : List ScopeRow)
  | evaluated (result : Except RequestError Variable)
  | breakpoints (result : Except RequestError (List Breakpoint))
  | functions (result : Except RequestError (List FunctionBreakpoint))
  | resumed (result : Except RequestError Bool)
  | done (result : Except RequestError Unit)

def Moment.reclaims (m : Moment C) : Bool :=
  match m.call with
  | .happen (.event (.reclaim _)) => true
  | _ => false

/-- The value that a call names. -/
def Call.named? : Call C → Option Value
  | .register v | .pin v | .row _ v => some v
  | _ => none

/-- The debuggee whose values a call looks at. -/
def Call.debuggee? : Call C → Option Debuggee
  | .happen (.event (.children p _ _ _ _)) | .happen (.event (.reclaim p)) => some p
  | _ => none

variable [Context C]

/-- Everything that is kept alive. -/
def memory (d : Debugger C) (p : Debuggee) : List Value := d.inspector.held (d.held p)

def reply (d : Debugger C) : Happening C → Answer
  | .event (.stackTrace t start levels) =>
    let (rows, depth) := (d.stackTrace t start levels).1
    .stack rows depth
  | .event (.scopes frame) => .scopes (d.scopes frame).1
  | .event (.children p id filter start count) => .rows (d.children p id filter start count).1
  | .event (.evaluate frame expression) => .evaluated (d.evaluate frame expression).1
  | .event (.reclaim p) => .dead (d.reclaim p).1
  | .event (.setBreakpoints p path requested) => .breakpoints (d.setBreakpoints p path requested).1
  | .event (.setFunctionBreakpoints requested) => .functions (d.setFunctionBreakpoints requested).1
  | .event (.setExceptionBreakpoints filters) => .done (d.setExceptionBreakpoints filters).1
  | .event (.attach a) => .done (d.attach a).1
  | .event (.resume t) => .resumed (d.resume t).1
  | .event (.step t mode) => .done (d.step t mode).1
  | .event (.pause p t) => .done (d.pause p t).1
  | _ => .nothing

def ask (d : Debugger C) (m : Moment C) : Answer × Debugger C :=
  match m.call with
  | .register v =>
    let (id, inspector) := d.inspector.register v
    (.handle id, { d with inspector })
  | .pin v =>
    let (id, inspector) := d.inspector.pin v
    (.handle id, { d with inspector })
  | .pinned id =>
    let (v, inspector) := d.inspector.pinned? id
    (.pinned v, { d with inspector })
  | .row name v =>
    let (row, inspector) := d.inspector.row name v
    (.row row, { d with inspector })
  | .value id => (.value (d.inspector.shown? (d.held m.debuggee) id), d)
  | .sourcePath id => (.path (d.sourcePath? m.debuggee id), d)
  | .happen e => (d.reply e, d.undergo e)

/-- All moments with their answers. -/
def converse (d : Debugger C) : List (Moment C) → List (Moment C × Answer) × Debugger C
  | [] => ([], d)
  | m :: ms =>
    let (answer, d) := d.ask m
    let (rest, d) := d.converse ms
    ((m, answer) :: rest, d)

/-- Asks unless that reclaims. -/
def spare (d : Debugger C) (m : Moment C) : Debugger C := if m.reclaims then d else (d.ask m).2

/-! ## Memory -/

/-- What is gone by now: what had gone before, and what has a handle and is not alive any more. -/
def passed (d : Debugger C) (gone : Identity → Prop) (p : Debuggee) (i : Identity) : Prop :=
  gone i ∨ (∃ id, d.inspector.handles.byId.get? id = some i) ∧ ¬Alive (d.memory p) i

/-- The value of an evaluation, and how many values the adapter has made after it. -/
def evaluation? (d : Debugger C) : Call C → Option (Value × Nat)
  | .happen (.event (.evaluate (some frame) expression)) => do
    let known ← d.frames.get? frame
    let s ← d.coordinator.suspended.get? known.thread
    match Context.evaluate s.context known.index expression d.inspector.made with
    | (.ok v, made) => some (v, made)
    | (.error _, _) => none
  | _ => none

/-- What is gone does not come back. Whatever is named is alive, and what an evaluation gives is not
gone; the adapter's own values have been made. -/
structure Mortal (gone : Identity → Prop) (d : Debugger C) (m : Moment C) : Prop where
  lost : ∀ i, gone i → ¬Alive (d.memory m.debuggee) i
  made : ∀ i, Alive (d.memory m.debuggee) i → MadeBefore d.inspector.made i
  named : ∀ v, m.call.named? = some v → Alive (d.memory m.debuggee) v.identity
  asked : ∀ p, m.call.debuggee? = some p → p = m.debuggee
  evaluated : ∀ v made, d.evaluation? m.call = some (v, made) →
    d.inspector.made ≤ made ∧ Usable (d.passed gone m.debuggee) made v.identity

/-- Memory along a run, told of the debugger that never reclaims. -/
def MortalAlong : (Identity → Prop) → Debugger C → List (Moment C) → Prop
  | _, _, [] => True
  | gone, d, m :: ms =>
    Mortal gone d m ∧ MortalAlong (d.passed gone m.debuggee) (d.spare m) ms

/-- What is gone after a run. -/
def lostAlong : (Identity → Prop) → Debugger C → List (Moment C) → Identity → Prop
  | gone, _, [] => gone
  | gone, d, m :: ms => lostAlong (d.passed gone m.debuggee) (d.spare m) ms

/-! ## Requests -/

section
variable {gone : Identity → Prop} {d : Debugger C} {s' : Inspector}

theorem agree_children (h : Inspector.Mirrors gone d.inspector s') {p : Debuggee}
    (halive : ∀ i, Alive (d.memory p) i → Usable gone d.inspector.made i) (id : Nat)
    (filter : ChildFilter) (start count : Option Nat) :
    Agree gone (d.children p id filter start count)
      ({ d with inspector := s' }.children p id filter start count) :=
  .of_inspector (h.children halive id filter start count) d fun rows => rows

theorem agree_evaluate (h : Inspector.Mirrors gone d.inspector s') (frame : Option Int)
    (expression : String)
    (hresult : ∀ v made, d.evaluation? (.happen (.event (.evaluate frame expression))) =
      some (v, made) → d.inspector.made ≤ made ∧ Usable gone made v.identity) :
    Agree gone (d.evaluate frame expression)
      ({ d with inspector := s' }.evaluate frame expression) := by
  cases frame with
  | none => exact ⟨rfl, rfl, h⟩
  | some frame =>
    cases hknown : d.frames.get? frame with
    | none =>
      simp only [evaluate, hknown]
      exact ⟨rfl, rfl, h⟩
    | some known =>
      cases hs : d.coordinator.suspended.get? known.thread with
      | none =>
        simp only [evaluate, hknown, hs]
        exact ⟨rfl, rfl, h⟩
      | some s =>
        cases hv : Context.evaluate s.context known.index expression d.inspector.made with
        | mk result made =>
          cases result with
          | error failure =>
            cases failure <;> simp only [evaluate, hknown, hs, hv, h.made] <;> exact ⟨rfl, rfl, h⟩
          | ok v =>
            obtain ⟨hmade, husable⟩ := hresult v made (by simp [evaluation?, hknown, hs, hv])
            have hrow := (h.withMade hmade).row husable "result"
            simp only [evaluate, hknown, hs, hv, h.made, hrow.answer]
            exact ⟨rfl, rfl, hrow.state.keep _ v⟩

theorem reply_of_not_inspects (d : Debugger C) (s' : Inspector) {e : Happening C}
    (he : e.inspects = false) : { d with inspector := s' }.reply e = d.reply e := by
  cases e with
  | passTo | takeOver => rfl
  | event e =>
    cases e with
    | scopes | children | evaluate | reclaim => contradiction
    | detach | report | announce | exited | output | step => rfl
    | stackTrace t start levels =>
      simp only [reply, stackTrace]
      split <;> rfl
    | attach a =>
      simp only [reply, attach]
      split
      · rfl
      · split <;> rfl
    | setBreakpoints | setFunctionBreakpoints | setExceptionBreakpoints =>
      simp only [reply, setBreakpoints, setFunctionBreakpoints, setExceptionBreakpoints]
      split <;> rfl
    | pause p t =>
      simp only [reply, pause]
      split
      · rfl
      · split <;> rfl
    | resume t =>
      simp only [reply, resume]
      split <;> rfl

end

/-! ## Pins that do not age -/

section
variable {room : Nat} {d : Debugger C}

theorem kept_evaluate (hroom : 0 < room) (h : Kept room d.inspector) (frame : Option Int)
    (expression : String) : Kept room (d.evaluate frame expression).2.inspector := by
  unfold evaluate
  split
  · exact h
  · split
    · exact h
    · split
      · exact h
      · split
        · exact h
        · exact h
        · exact (h.withMade _).after hroom (.keep "result" _)

theorem kept_undergo (hroom : 0 < room) (h : Kept room d.inspector) (e : Happening C) :
    Kept room (d.undergo e).inspector := by
  cases hinspects : e.inspects with
  | false =>
    rw [undergo_inspector hinspects]
    exact h
  | true =>
    cases e with
    | takeOver => contradiction
    | passTo time => exact h.after hroom (.passTo time)
    | event e =>
      cases e with
      | scopes frame => exact kept_scopes hroom h frame
      | children p id filter start count => exact h.children _ id filter start count
      | evaluate frame expression => exact kept_evaluate hroom h frame expression
      | reclaim p => exact h.reclaim _
      | detach => exact h.after hroom .clear
      | _ => contradiction

theorem kept_ask (hroom : 0 < room) (h : Kept room d.inspector) (m : Moment C) :
    Kept room (d.ask m).2.inspector := by
  obtain ⟨p, call⟩ := m
  cases call with
  | register v => exact h.register v
  | pin v => exact h.pin v
  | pinned id => exact h.look id
  | row name v => exact (Inspector.listed_row d.inspector name v).kept h
  | value | sourcePath => exact h
  | happen e => exact kept_undergo hroom h e

end

/-! ## Moments -/

section
variable {gone : Identity → Prop} {d d' : Debugger C} {m : Moment C}

theorem Mirrors.passed (h : Mirrors gone d d') (p : Debuggee) :
    Mirrors (d.passed gone p) d d' := by
  refine ⟨h.rest, h.inspector.mono (fun i => Or.inl) fun i hi => ?_⟩
  rcases hi with hi | ⟨⟨id, hid⟩, _⟩
  · exact h.inspector.gone i hi
  · exact h.inspector.given id i hid

theorem Mortal.usable (hm : Mortal gone d m) {i : Identity}
    (hi : Alive (d.memory m.debuggee) i) :
    Usable (d.passed gone m.debuggee) d.inspector.made i where
  present hpassed := hpassed.elim (fun hgone => hm.lost i hgone hi) fun hdead => hdead.2 hi
  made := hm.made i hi

/-- Debuggers that differ in what is gone have the same to say. -/
theorem Mirrors.ask (h : Mirrors gone d d') (hm : Mortal gone d m) (hreclaims : m.reclaims = false) :
    Agree (d.passed gone m.debuggee) (d.ask m) (d'.ask m) := by
  obtain ⟨hrest, h⟩ := h.passed m.debuggee
  obtain ⟨p, call⟩ := m
  have halive : ∀ i, Alive (d.memory p) i → Usable (d.passed gone p) d.inspector.made i :=
    fun i hi => hm.usable hi
  generalize d'.inspector = s' at hrest h
  subst hrest
  cases call with
  | register v => exact .of_inspector (h.register (halive _ (hm.named v rfl))) d Answer.handle
  | pin v => exact .of_inspector (h.pin (halive _ (hm.named v rfl))) d Answer.handle
  | pinned id => exact .of_inspector (h.pinned? id) d Answer.pinned
  | row name v => exact .of_inspector (h.row (halive _ (hm.named v rfl)) name) d Answer.row
  | value id => exact ⟨congrArg Answer.value (h.shown?_eq halive id), rfl, h⟩
  | sourcePath id =>
    have hpath : { d with inspector := s' }.sourcePath? p id = d.sourcePath? p id :=
      congrArg (Option.bind · _) (h.resolve?_eq halive id)
    exact ⟨congrArg Answer.path hpath, rfl, h⟩
  | happen e =>
    cases hinspects : e.inspects with
    | false =>
      have hinspector : Inspector.Mirrors (d.passed gone p) (d.undergo e).inspector s' := by
        rw [undergo_inspector hinspects]
        exact h
      refine ⟨reply_of_not_inspects d s' hinspects, ?_⟩
      show Mirrors _ (d.undergo e) ({ d with inspector := s' }.undergo e)
      rw [undergo_with_inspector d s' hinspects]
      exact ⟨rfl, hinspector⟩
    | true =>
      cases e with
      | takeOver => contradiction
      | passTo time => exact ⟨rfl, rfl, { h with now := rfl }⟩
      | event e =>
        cases e with
        | scopes frame =>
          refine (agree_scopes h (fun v hv => halive _ ?_) frame).map Answer.scopes
          exact Value.alive_of_mem (List.mem_append_left _ (List.mem_append_right _ hv))
        | children q id filter start count =>
          obtain rfl := hm.asked q rfl
          exact (agree_children h halive id filter start count).map Answer.rows
        | evaluate frame expression =>
          exact (agree_evaluate h frame expression hm.evaluated).map Answer.evaluated
        | detach => exact ⟨rfl, rfl, h.clear⟩
        | _ => contradiction

/-- To reclaim makes no other difference. -/
theorem Mirrors.reclaim {room : Nat} (h : Mirrors gone d d') (hkept : Kept room d.inspector)
    (hm : Mortal gone d m) (hreclaims : m.reclaims = true) :
    Mirrors (d.passed gone m.debuggee) d (d'.ask m).2 := by
  obtain ⟨hrest, h⟩ := h.passed m.debuggee
  obtain ⟨p, call⟩ := m
  generalize d'.inspector = s' at hrest h
  subst hrest
  match call with
  | .happen (.event (.reclaim q)) =>
    obtain rfl := hm.asked q rfl
    exact ⟨rfl, h.reclaim hkept fun id i hid hdead => Or.inr ⟨⟨id, hid⟩, hdead⟩⟩

/-- Along a run, a debugger that reclaims mirrors one that never does. -/
theorem Mirrors.converse {room : Nat} (hroom : 0 < room) (h : Mirrors gone d d')
    (hkept : Kept room d.inspector) {ms : List (Moment C)} (hms : MortalAlong gone d ms) :
    ((d'.converse ms).1.filter fun x => !x.1.reclaims) =
        (d.converse (ms.filter fun m => !m.reclaims)).1 ∧
      Mirrors (lostAlong gone d ms) (d.converse (ms.filter fun m => !m.reclaims)).2
        (d'.converse ms).2 := by
  induction ms generalizing gone d d' with
  | nil => exact ⟨rfl, h⟩
  | cons m ms ih =>
    obtain ⟨hm, hms⟩ := hms
    rw [lostAlong]
    cases hreclaims : m.reclaims with
    | true =>
      -- Only the debugger that reclaims moves.
      have hspare : d.spare m = d := if_pos hreclaims
      rw [hspare] at hms ⊢
      obtain ⟨hanswers, hend⟩ := ih (h.reclaim hkept hm hreclaims) hkept hms
      rw [List.filter_cons_of_neg (by simp [hreclaims])]
      refine ⟨?_, hend⟩
      simp only [Debugger.converse]
      rw [List.filter_cons_of_neg (by simp [hreclaims]), hanswers]
    | false =>
      have hspare : d.spare m = (d.ask m).2 := if_neg (by simp [hreclaims])
      have hask := h.ask hm hreclaims
      rw [hspare] at hms ⊢
      obtain ⟨hanswers, hend⟩ := ih hask.state (kept_ask hroom hkept m) hms
      rw [List.filter_cons_of_pos (by simp [hreclaims])]
      refine ⟨?_, hend⟩
      simp only [Debugger.converse]
      rw [List.filter_cons_of_pos (by simp [hreclaims]), hanswers, hask.answer]

end

/-- Reclaiming is never seen while pins do not age. Along every run, whatever is asked but to reclaim
has the answer that it has in the run that never reclaims, and the debuggers come out with the same
pins under the same handles: they differ in handles of allocations that are gone, and in what is
noted of these. -/
theorem reclaiming_unseen (o : Options) (hlifetime : o.pinLifetime = none) (ms : List (Moment C))
    (hms : MortalAlong (fun _ => False) (new o) ms) :
    let full := (new o : Debugger C).converse ms
    let spared := (new o : Debugger C).converse (ms.filter fun m => !m.reclaims)
    (full.1.filter fun x => !x.1.reclaims) = spared.1 ∧
      full.2 = { spared.2 with
        inspector := { spared.2.inspector with handles := full.2.inspector.handles } } ∧
      spared.2.inspector.handles.Thins (lostAlong (fun _ => False) (new o) ms)
        full.2.inspector.handles := by
  intro full spared
  have hnew : Mirrors (fun _ => False) (new o : Debugger C) (new o) :=
    ⟨rfl, .refl Handles.consistent_new (by simp [new, Inspector.new, Handles.new]) (by simp)⟩
  have hkept : Kept (max o.pinCapacity 1) (new o : Debugger C).inspector := by
    simp only [new, Inspector.new, hlifetime]
    exact Inspector.kept_new o.pinCapacity
  obtain ⟨hanswers, hend⟩ := hnew.converse (by omega) hkept hms
  exact ⟨hanswers, hend.eq_with_handles, hend.inspector.thins⟩

def former : Value := .mk (.first 1 0) none (.text "old")

/-- Another value where the former one was. -/
def latter : Value := .mk ⟨⟨1, 0⟩, 1⟩ none (.text "new")

def keeping (held : List Value) : Debuggee := ⟨[], fun _ => [], [], held⟩

/-- A value goes, and another takes its address; that one is pinned before the debuggee drops it. -/
def addressReused : List (Moment DescribedThread) :=
  [⟨keeping [former], .register former⟩, ⟨keeping [], .happen (.event (.reclaim (keeping [])))⟩,
    ⟨keeping [latter], .pin latter⟩, ⟨keeping [], .happen (.event (.reclaim (keeping [])))⟩,
    ⟨keeping [], .value 1⟩, ⟨keeping [], .pinned 2⟩]

theorem reclaiming_unseen_reused :
    MortalAlong (fun _ => False) (new ⟨true, none, 2, none⟩ : Debugger DescribedThread)
        addressReused ∧
      let full := (new ⟨true, none, 2, none⟩ : Debugger DescribedThread).converse addressReused
      (full.1.filter fun x => !x.1.reclaims).map (·.2) =
        [.handle 1, .handle 2, .value none, .pinned (some latter)] := by
  have hparts : ∀ v, v.parts = [] → ∀ i, Alive [v] i → i = v.identity := by
    intro v hv i hi
    obtain ⟨w, hw, rfl⟩ := hi.exists_within
    rcases Value.within_cons_iff.mp hw with rfl | hw | hw
    · rfl
    · exact absurd (hv ▸ hw) Value.not_within_nil
    · exact absurd hw Value.not_within_nil
  have hnothing : ∀ i, ¬Alive [] i := by
    intro i hi
    obtain ⟨w, hw, _⟩ := hi.exists_within
    exact Value.not_within_nil hw
  have hmade : ∀ v, v = former ∨ v = latter → ∀ made i, Alive [v] i → MadeBefore made i := by
    rintro v (rfl | rfl) made i hi hregion <;> rw [hparts _ rfl i hi] at hregion <;> contradiction
  have hnew : ∀ id i, Handles.new.byId.get? id ≠ some i := by simp [Handles.new]
  have hother : ∀ id i, (Handles.new.register former.identity).2.byId.get? id = some i →
      ¬Alive [latter] i := by
    intro id i hid hi
    rw [Handles.get?_register Handles.consistent_new] at hid
    split at hid
    · cases hid
      exact absurd (hparts latter rfl _ hi) (by decide)
    · exact absurd hid (by simp [Handles.new])
  have hms : MortalAlong (fun _ => False)
      (new ⟨true, none, 2, none⟩ : Debugger DescribedThread) addressReused := by
    refine ⟨⟨?_, ?_, ?_, ?_, ?_⟩, ⟨?_, ?_, ?_, ?_, ?_⟩, ⟨?_, ?_, ?_, ?_, ?_⟩, ⟨?_, ?_, ?_, ?_, ?_⟩,
      ⟨?_, ?_, ?_, ?_, ?_⟩, ⟨?_, ?_, ?_, ?_, ?_⟩, trivial⟩
    -- The former value is there.
    · exact fun i hi => hi.elim
    · exact hmade former (Or.inl rfl) _
    · rintro v ⟨⟩
      exact Value.alive_of_mem (List.mem_singleton_self _)
    · rintro p ⟨⟩
    · rintro v made ⟨⟩
    -- Nothing is.
    · exact fun i _ => hnothing i
    · exact fun i hi => absurd hi (hnothing i)
    · rintro v ⟨⟩
    · rintro p ⟨⟩
      rfl
    · rintro v made ⟨⟩
    -- The latter value is, and the former is gone.
    · rintro i ((hi | ⟨⟨id, hid⟩, _⟩) | ⟨⟨id, hid⟩, _⟩) halive
      · exact hi
      · exact hnew id i hid
      · exact hother id i hid halive
    · exact hmade latter (Or.inr rfl) _
    · rintro v ⟨⟩
      exact Value.alive_of_mem (List.mem_singleton_self _)
    · rintro p ⟨⟩
    · rintro v made ⟨⟩
    -- From here on, the latter is kept by its pin.
    · rintro i (((hi | ⟨⟨id, hid⟩, _⟩) | ⟨⟨id, hid⟩, _⟩) | ⟨_, hdead⟩) halive
      · exact hi
      · exact hnew id i hid
      · exact hother id i hid halive
      · exact hdead halive
    · exact hmade latter (Or.inr rfl) _
    · rintro v ⟨⟩
    · rintro p ⟨⟩
      rfl
    · rintro v made ⟨⟩
    · rintro i ((((hi | ⟨⟨id, hid⟩, _⟩) | ⟨⟨id, hid⟩, _⟩) | ⟨_, hdead⟩) | ⟨_, hdead⟩) halive
      · exact hi
      · exact hnew id i hid
      · exact hother id i hid halive
      · exact hdead halive
      · exact hdead halive
    · exact hmade latter (Or.inr rfl) _
    · rintro v ⟨⟩
    · rintro p ⟨⟩
    · rintro v made ⟨⟩
    · rintro i (((((hi | ⟨⟨id, hid⟩, _⟩) | ⟨⟨id, hid⟩, _⟩) | ⟨_, hdead⟩) | ⟨_, hdead⟩) | ⟨_, hdead⟩)
        halive
      · exact hi
      · exact hnew id i hid
      · exact hother id i hid halive
      · exact hdead halive
      · exact hdead halive
      · exact hdead halive
    · exact hmade latter (Or.inr rfl) _
    · rintro v ⟨⟩
    · rintro p ⟨⟩
    · rintro v made ⟨⟩
  refine ⟨hms, ?_⟩
  obtain ⟨hanswers, _⟩ := reclaiming_unseen ⟨true, none, 2, none⟩ rfl addressReused hms
  intro full
  rw [hanswers]
  rfl

end Debugger

end DebugAdapter
