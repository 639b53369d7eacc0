import DebugAdapter.Proofs.Script.Hosts

/-!
# Exceptions that end a script

A statement that fails is announced where it fails, with every frame in its place. From then on a run
only drops what is left to do, and ends with the one text on the error output (`closing`). So there is
no second announcement, and without one there is nothing on the error output.
-/

namespace DebugAdapter.Script

/-- The exception that is ending the run. -/
def Point.exception? : Point → Option Exception
  | .raised _ e | .unwinding e => some e
  | .next | .reported _ | .turning .. | .returning _ | .ended => none

/-- What is printed when an exception has ended a run. -/
def Action.uncaught (e : Exception) : Action :=
  .output ("Uncaught " ++ e.typeName ++ ": " ++ e.message ++ "\n") true

namespace Execution

/-- The next step neither announces an exception nor prints to the error output. -/
structure Quiet (x : Execution) : Prop where
  announces : ∀ line e, x.action? ≠ some (.announce line e)
  prints : ∀ text, x.action? ≠ some (.output text true)

/-- What can be seen behind the announcement of an exception at a line, with so many tasks left. -/
def closing (file : String) (line : Nat) (e : Exception) (stops : Bool) (left : Nat) :
    List (Option Action) :=
  (if stops then [some (.line file line)] else []) ++ List.replicate left none ++
    [some (.uncaught e)]

section
variable {x y : Execution} {line : Nat} {e : Exception} {s : Stmt} {f : Fault} {stops : Bool}
  {a : Option Action}

/-! ## Before it -/

/-- Without an announcement no exception is ending the run, and the error output stays empty. -/
theorem Stepped.calm (h : Stepped x stops a y) (hx : x.point.exception? = none)
    (ha : ∀ line e, a ≠ some (.announce line e)) :
    y.point.exception? = none ∧ ∀ text, a ≠ some (.output text true) := by
  cases h with
  | reported task rest p hpoint htasks hcaller hp =>
    refine ⟨?_, nofun⟩
    cases p with
    | reported | turning => rfl
    | next | raised | returning | unwinding | ended => contradiction
  | executed s a y hs hexecuted => cases hexecuted <;> exact ⟨rfl, nofun⟩
  | failed s f => exact absurd rfl (ha s.line (x.exception f))
  | again line e hpoint =>
    rw [hpoint] at hx
    contradiction
  | left caller => cases caller <;> exact ⟨rfl, nofun⟩
  | dropped => exact ⟨hx, nofun⟩
  | unwound e _ _ hpoint | uncaught e hpoint =>
    rw [hpoint] at hx
    contradiction
  | finished => exact ⟨rfl, nofun⟩
  | ended => exact ⟨hx, nofun⟩

theorem announces_of_exception (hx : x.point.exception? = none)
    (h : (x.proceed stops).point.exception?.isSome = true) :
    ∃ line e, x.action? = some (.announce line e) := by
  by_contra hnone
  have hsilent : ∀ line e, x.action? ≠ some (.announce line e) :=
    fun line e haction => hnone ⟨line, e, haction⟩
  rw [((stepped x stops).calm hx hsilent).1] at h
  contradiction

theorem quiet_of_silent (hx : x.point.exception? = none) {answers : List Bool}
    (hsilent : ∀ y ∈ x.track answers, ∀ line e, y.action? ≠ some (.announce line e)) :
    ∀ y ∈ x.track answers, y.Quiet := by
  induction answers generalizing x with
  | nil => exact fun y hy => absurd hy List.not_mem_nil
  | cons stops answers ih =>
    have hfirst := hsilent x (List.mem_cons_self ..)
    obtain ⟨hnext, hprints⟩ := (stepped x stops).calm hx hfirst
    intro y hy
    rcases List.mem_cons.mp hy with rfl | hy
    · exact ⟨hfirst, hprints⟩
    · exact ih hnext (fun z hz => hsilent z (List.mem_cons_of_mem _ hz)) y hy

/-! ## After it -/

/-- The run has nothing left but to end. -/
def IsClosing (x : Execution) : Prop := x.point = .ended ∨ ∃ e, x.point.exception? = some e

theorem IsClosing.executes? (h : x.IsClosing) : x.point.executes? = none := by
  rcases h with hended | ⟨e, he⟩
  · rw [hended]
    rfl
  · cases hpoint : x.point with
    | raised | unwinding => rfl
    | next | reported | turning | returning | ended =>
      rw [hpoint] at he
      contradiction

theorem IsClosing.point_ne (h : x.IsClosing) :
    x.point ≠ .next ∧ ∀ v, x.point ≠ .returning v := by
  rcases h with hended | ⟨e, he⟩
  · rw [hended]
    exact ⟨nofun, nofun⟩
  · refine ⟨?_, ?_⟩
    · intro hpoint
      rw [hpoint] at he
      contradiction
    · intro v hpoint
      rw [hpoint] at he
      contradiction

theorem IsClosing.proceed (h : x.IsClosing) (stops : Bool) : (x.proceed stops).IsClosing := by
  have hstill := h.executes?
  obtain ⟨hnext, hreturning⟩ := h.point_ne
  have hstep := stepped x stops
  generalize x.action? = a, x.proceed stops = y at hstep
  cases hstep with
  | reported task rest p hpoint => exact absurd hpoint hnext
  | executed s a y hs | failed s f hs =>
    rw [hstill] at hs
    contradiction
  | again line e => exact Or.inr ⟨e, rfl⟩
  | left caller rest v made hpoint =>
    rcases hpoint with hpoint | ⟨hpoint, -⟩
    · exact absurd hpoint (hreturning v)
    · exact absurd hpoint hnext
  | dropped | unwound | ended => exact h
  | finished | uncaught => exact Or.inl rfl

theorem isClosing_of_announces (h : x.action? = some (.announce line e)) (stops : Bool)
    (answers : List Bool) : ((x.proceed stops).after answers).IsClosing := by
  refine after_keeps (I := IsClosing) (fun y b hy => hy.proceed b) ?_ answers
  obtain ⟨s, f, hfails, -, rfl⟩ := announces_iff.mp h
  rw [hfails.proceed]
  cases stops <;> exact Or.inr ⟨x.exception f, rfl⟩

theorem track_of_ended (h : x.point = .ended) {answers : List Bool} {m : Nat}
    (hm : answers.length ≤ m) :
    (x.track answers).map action? = (List.replicate m (some Action.finish)).take answers.length := by
  rw [List.take_replicate, Nat.min_eq_left hm]
  clear hm
  induction answers with
  | nil => rfl
  | cons stops answers ih =>
    rw [track, List.map_cons, action?_of_ended h, proceed_of_ended h, ih]
    rfl

theorem track_of_unwinding (h : x.point = .unwinding e) {answers : List Bool} {m : Nat}
    (hm : answers.length ≤ m) :
    (x.track answers).map action? =
      (List.replicate x.tasks.length none ++ some (Action.uncaught e) ::
        List.replicate m (some Action.finish)).take answers.length := by
  -- One silent step for each task that is left, then the text, then nothing but the end.
  induction answers generalizing x with
  | nil => rfl
  | cons stops answers ih =>
    have hrest : answers.length ≤ m := Nat.le_of_succ_le hm
    rw [track, List.map_cons, List.length_cons]
    cases htasks : x.tasks with
    | nil =>
      have hstep : x.step = (some (.uncaught e), x.finish) := by
        simp only [step, h, htasks]
        rfl
      have hproceed : x.proceed stops = x.finish := by
        rw [proceed, hstep]
        rfl
      rw [action?, hstep, hproceed, track_of_ended rfl hrest]
      rfl
    | cons task rest =>
      have hnext : x.action? = none ∧ (x.proceed stops).point = .unwinding e ∧
          (x.proceed stops).tasks = rest := by
        simp only [action?, proceed, step, h, htasks]
        cases task <;> exact ⟨rfl, rfl, rfl⟩
      obtain ⟨haction, hpoint, hleft⟩ := hnext
      rw [haction, ih hpoint hrest, hleft]
      rfl

theorem track_of_announces (h : x.action? = some (.announce line e)) (stops : Bool)
    (answers : List Bool) :
    ((x.proceed stops).track answers).map action? =
      (closing x.program.file line e stops x.tasks.length ++
        List.replicate answers.length (some Action.finish)).take answers.length := by
  obtain ⟨s, f, hfails, rfl, rfl⟩ := announces_iff.mp h
  have hproceed := hfails.proceed stops
  cases stops with
  | false =>
    have hpoint : (x.proceed false).point = .unwinding (x.exception f) := by
      rw [hproceed]
      rfl
    have htasks : (x.proceed false).tasks = x.tasks := by rw [hproceed]
    rw [track_of_unwinding hpoint (Nat.le_refl _), htasks, closing]
    simp
  | true =>
    cases answers with
    | nil => rfl
    | cons b answers =>
      have hstep : (x.proceed true).step = (some (.line x.program.file s.line),
          { x with point := .unwinding (x.exception f) }) := by
        rw [hproceed]
        rfl
      have hnext : ((x.proceed true).proceed b) = { x with point := .unwinding (x.exception f) } := by
        rw [proceed, hstep]
      rw [track, List.map_cons, action?, hstep, hnext,
        track_of_unwinding (m := answers.length + 1) rfl (Nat.le_succ _), closing]
      simp

end

/-- The exception `e` is announced behind these steps of a run of `p`, and never another one. -/
structure Announces (p : Program) (x₀ : Execution) (before : List Bool) (line : Nat)
    (e : Exception) : Prop where
  first : ∀ y ∈ x₀.track before, y.Quiet
  /-- It is the exception of the statement that fails here. -/
  arises : ∃ s f, (x₀.after before).Fails s f ∧ s.line = line ∧ (x₀.after before).exception f = e
  /-- It names the innermost frame first, which stands at the line of the statement. -/
  trace : ∃ frame outer, (x₀.after before).stack.frames = frame :: outer ∧
    frame.file = p.file ∧ frame.line = line ∧
    e.stackTrace = "\n".intercalate
      (("  at " ++ frame.function ++ " (" ++ p.file ++ ":" ++ toString line ++ ")") ::
        outer.map fun g => "  at " ++ g.function ++ " (" ++ g.file ++ ":" ++ toString g.line ++ ")")
  kept : ∀ stops, ((x₀.after before).proceed stops).stack = (x₀.after before).stack
  /-- All that can be seen from now on. -/
  seen : ∀ stops behind, (((x₀.after before).proceed stops).track behind).map action? =
    (closing p.file line e stops (x₀.after before).tasks.length ++
      List.replicate behind.length (some Action.finish)).take behind.length
  idle : ∀ stops behind, ∀ y ∈ ((x₀.after before).proceed stops).track behind,
    y.point.executes? = none

theorem announces_of_action (id : ThreadId) (name : String) (p : Program) {before : List Bool}
    {line : Nat} {e : Exception}
    (h : ((start id name p).after before).action? = some (.announce line e)) :
    Announces p (start id name p) before line e := by
  have hx : InOrder p ((start id name p).after before) := inOrder_after id name p before
  obtain ⟨s, f, hfails, hline, he⟩ := announces_iff.mp h
  refine ⟨?_, ⟨s, f, hfails, hline, he⟩, ?_, ?_, ?_, ?_⟩
  · apply quiet_of_silent rfl
    intro y hy n other hother
    -- An announcement before this one would have left nothing to execute here.
    obtain ⟨earlier, stops, later, rfl, rfl⟩ := exists_of_mem_track hy
    have hclosing := isClosing_of_announces hother stops later
    have hidle := hclosing.executes?
    rw [after_append, after, List.foldl_cons, ← after] at hfails
    rw [hfails.1] at hidle
    contradiction
  · rcases hx.stack with hover | ⟨frame, outer, hframed⟩
    · have hexecutes := hfails.1
      rw [hover.point] at hexecutes
      contradiction
    · have hframe : frame.line = line := (hframed.line_of_executes hfails.1).trans hline
      have hfile : frame.file = p.file := by
        rw [hframed.files frame (List.mem_cons_self ..), hx.ofProgram.program]
      refine ⟨frame, outer, hframed.frames, hfile, hframe, ?_⟩
      rw [← he, exception, Stack.trace, hframed.frames, List.map_cons, hframe, hfile]
  · intro stops
    rw [hfails.proceed]
  · intro stops behind
    rw [track_of_announces h, hx.ofProgram.program]
  · intro stops behind y hy
    obtain ⟨earlier, b, later, -, rfl⟩ := exists_of_mem_track hy
    exact (isClosing_of_announces h stops earlier).executes?

end Execution

namespace Host
open Execution

/-- The move lets everything go. -/
def Move.dismisses : Move → Bool
  | .request e _ => e.dismisses
  | _ => false

section
variable {h : Host} {x y : Execution} {m : Move} {ms : List Move} {t : ThreadId} {e : Exception}

theorem live_through (ho : Orderly h) (hx : x ∈ h.live) (hrecord : h.record x.id ms = []) :
    x ∈ (h.through ms).live := by
  induction ms generalizing h with
  | nil => exact hx
  | cons m ms ih =>
    obtain ⟨hfirst, hrest⟩ := List.append_eq_nil_iff.mp hrecord
    rcases alive_after ho hx m with ⟨-, hstays⟩ | ⟨hturn, -⟩
    · exact ih (ho.after m) hstays hrest
    · rw [own_turn hturn] at hfirst
      contradiction

theorem eq_of_turn (ho : Orderly h) (hx : x ∈ h.live) (hturn : h.turn? m = some y)
    (hid : y.id = x.id) : y = x := by
  rcases alive_after ho hx m with ⟨hother, -⟩ | ⟨hown, -⟩
  · rw [← hid, own_turn hturn] at hother
    contradiction
  · exact Option.some.inj (hturn.symm.trans hown)

theorem reporter?_of_ofClient {e : Debugger.Event Execution} (he : Wire.ofClient e = true) :
    e.reporter? = none := by
  cases e with
  | report | announce | exited | output => contradiction
  | _ => rfl

theorem pending_of_move (hstays : m.dismisses = false)
    (hother : ((h.turn? m).filter (·.id = t)).toList = []) :
    (h.after m).debugger.coordinator.pending.get? t = h.debugger.coordinator.pending.get? t := by
  cases m with
  | load path source =>
    simp only [after, load]
    cases Program.ofText path source <;> rfl
  | spawn path name =>
    simp only [after, spawn]
    cases h.programs.get? (h.key path) with
    | none => rfl
    | some p =>
      simp only
      split <;> rfl
  | request e he =>
    have hnobody : e.reporter? ≠ some t := by
      rw [reporter?_of_ofClient he]
      exact Option.some_ne_none t |>.symm
    exact Debugger.pending_after h.debugger hnobody hstays
  | forward => rfl
  | collect => rfl
  | turn i =>
    cases hx : h.ready[i]? with
    | none => simp only [after, hx]
    | some x =>
      have hturn : h.turn? (.turn i) = some x := hx
      have hne : x.id ≠ t := by
        rintro rfl
        rw [own_turn hturn] at hother
        contradiction
      rw [debugger_of_turn hturn]
      rcases takeTurn_event h.debugger x with hnothing | ⟨e, he, hstays, hreporter⟩
      · rw [hnothing]
      · rw [he]
        exact Debugger.pending_after h.debugger (fun ht => hne (hreporter t ht).symm) hstays
  | wake time => rfl

theorem pending_through (hstays : ∀ m ∈ ms, m.dismisses = false) (hrecord : h.record t ms = []) :
    (h.through ms).debugger.coordinator.pending.get? t = h.debugger.coordinator.pending.get? t := by
  induction ms generalizing h with
  | nil => rfl
  | cons m ms ih =>
    obtain ⟨hfirst, hrest⟩ := List.append_eq_nil_iff.mp hrecord
    have hnext := pending_of_move (hstays m (List.mem_cons_self ..)) hfirst
    exact (ih (fun k hk => hstays k (List.mem_cons_of_mem _ hk)) hrest).trans hnext

/-- What takes a turn is where a run of the script has come to. -/
theorem exists_run_of_turn (ho : Orderly h) {x₀ : Execution} (hx₀ : x₀ ∈ h.live)
    (hturn : (h.through ms).turn? m = some x) (hid : x.id = x₀.id) :
    ∃ answers, x = x₀.after answers := by
  have hlast : x ∈ h.record x₀.id (ms ++ [m]) := by
    rw [record_append, record, ← hid, own_turn hturn]
    exact List.mem_append_right _ (List.mem_cons_self ..)
  obtain ⟨answers, hrecord, -⟩ := record_eq_track ho hx₀ (ms ++ [m])
  rw [hrecord] at hlast
  obtain ⟨before, -, -, -, hx⟩ := exists_of_mem_track hlast
  exact ⟨before, hx⟩

theorem announce_fst (c : Coordinator Execution) (t : ThreadId) (e : Exception) :
    (c.announce t e false).1 = c.stopsOnUncaught := by
  cases hstops : c.stopsOnUncaught <;> simp [Coordinator.announce, hstops]

theorem live_of_announce (ho : Orderly h) (hturn : h.turn? m = some x) {line : Nat}
    (haction : x.action? = some (.announce line e)) :
    x.proceed (h.debugger.coordinator.announce x.id e false).1 ∈ (h.after m).live := by
  rw [announce_fst]
  rcases alive_after ho (mem_live_of_ready (mem_ready_of_turn hturn)) m with ⟨hother, -⟩ | ⟨-, hgoes⟩
  · rw [own_turn hturn] at hother
    contradiction
  · rw [goesOn?, haction] at hgoes
    exact hgoes

theorem coordinator_of_action (hturn : h.turn? m = some x) {a : Action}
    (haction : x.action? = some a) :
    (h.after m).debugger.coordinator = (perform h.debugger.coordinator x.step.2 a).2 := by
  unfold action? at haction
  rw [debugger_of_turn hturn]
  unfold takeTurn
  rcases hstep : x.step with ⟨b, y⟩
  rw [hstep] at haction
  cases haction
  rfl

theorem pending_of_announce (hturn : h.turn? m = some x) {line : Nat}
    (haction : x.action? = some (.announce line e))
    (hstops : (h.debugger.coordinator.announce x.id e false).1 = true) :
    (h.after m).debugger.coordinator.pending.get? x.id = some e := by
  rw [announce_fst] at hstops
  rw [coordinator_of_action hturn haction]
  simp only [perform, Coordinator.announce, hstops]
  simp [Coordinator.refresh, Table.get?_insert, x.step_id]

/-- A thread that reports a line stops at what has been announced for it. -/
theorem suspended_of_turn (ho : Orderly h) (hturn : h.turn? m = some x) {file : String} {line : Nat}
    (haction : x.action? = some (.line file line))
    (hpending : h.debugger.coordinator.pending.get? x.id = some e) :
    (h.after m).debugger.coordinator.suspended.get? x.id =
      some ⟨x.step.2, file, line, { reason := .exception, exception := some e },
        h.debugger.coordinator.gates⟩ := by
  rw [coordinator_of_action hturn haction, perform_report _ _ (r := .line file line) rfl]
  rw [← x.step_id] at hpending ⊢
  exact Coordinator.suspended_of_pending ho.sound.settled.current ho.sound.settled.rest hpending

theorem outbox_of_turn (ho : Orderly h) (hturn : h.turn? m = some x) {text : String} {isError : Bool}
    (haction : x.action? = some (.output text isError)) :
    (h.after m).debugger.coordinator.outbox.map (·.notification) =
      h.debugger.coordinator.outbox.map (·.notification) ++
        if h.debugger.coordinator.attached && h.debugger.coordinator.consoleOutput then
          [.output text isError]
        else [] := by
  rw [coordinator_of_action hturn haction]
  simp only [perform, Coordinator.output]
  split
  · rename_i hwanted
    have hreceiver : h.debugger.coordinator.receiver.isSome = true :=
      ho.sound.received.trans (Bool.and_eq_true_iff.mp hwanted).1
    obtain ⟨r, hr⟩ := Option.isSome_iff_exists.mp hreceiver
    simp [Coordinator.notify, hr]
  · simp

end

/-- A script announces at most one exception, where it fails and before a frame is left, and from then
on only ends. If it is told to stop, then unless everything is let go it stops at the same line, with
the exception as the reason. Without a failure there is no announcement, and nothing on the error
output. -/
theorem exception_announced_once (t : ThreadId) (name : String) (p : Program) :
    let x₀ := Execution.start t name p
    (∀ before line e, (x₀.after before).action? = some (.announce line e) →
      Announces p x₀ before line e) ∧
    (∀ answers, (∀ y ∈ x₀.track answers, ∀ s f, ¬y.Fails s f) →
      ∀ y ∈ x₀.track answers, y.Quiet) ∧
    ∀ o wait before, x₀ ∈ ((fresh o wait).through before).live → ∀ ms,
      let h := ((fresh o wait).through before).through ms
      (∃ answers, ((fresh o wait).through before).record t ms = x₀.track answers) ∧
      (∀ m x text isError, h.turn? m = some x → x.action? = some (.output text isError) →
        (h.after m).debugger.coordinator.outbox.map (·.notification) =
          h.debugger.coordinator.outbox.map (·.notification) ++
            if h.debugger.coordinator.attached && h.debugger.coordinator.consoleOutput then
              [.output text isError]
            else []) ∧
      ∀ m x line e, h.turn? m = some x → x.id = t → x.action? = some (.announce line e) →
        x.proceed (h.debugger.coordinator.announce t e false).1 ∈ (h.after m).live ∧
        ((h.debugger.coordinator.announce t e false).1 = true →
          ∀ later, (∀ l ∈ later, l.dismisses = false) → (h.after m).record t later = [] →
            let h' := (h.after m).through later
            ∀ n y, h'.turn? n = some y → y.id = t →
              y = x.proceed true ∧ y.action? = some (.line p.file line) ∧
                ∃ gate, (h'.after n).debugger.coordinator.suspended.get? t =
                  some ⟨y.step.2, p.file, line, { reason := .exception, exception := some e },
                    gate⟩) := by
  intro x₀
  refine ⟨fun before line e => announces_of_action t name p, ?_, ?_⟩
  · intro answers hnone
    apply quiet_of_silent rfl
    intro y hy line e haction
    obtain ⟨s, f, hfails, -⟩ := announces_iff.mp haction
    exact hnone y hy s f hfails
  · intro o wait before hx₀ ms h
    have ho₀ := orderly_through o wait before
    have ho : Orderly h := ho₀.through ms
    refine ⟨?_, ?_, ?_⟩
    · obtain ⟨answers, hrecord, -⟩ := record_eq_track ho₀ hx₀ ms
      exact ⟨answers, hrecord⟩
    · intro m x text isError hturn haction
      exact outbox_of_turn ho hturn haction
    · intro m x line e hturn hid haction
      have hgoes := live_of_announce ho hturn haction
      rw [hid] at hgoes
      refine ⟨hgoes, ?_⟩
      intro hstops later hstays hrecord h' n y hturn' hid'
      rw [hstops] at hgoes
      rw [← hid] at hstops hrecord
      have hpending := pending_of_announce hturn haction hstops
      have hnext : (x.proceed true).id = x.id := x.proceed_id true
      -- Nobody else touches the thread or its exception.
      have hstill : x.proceed true ∈ h'.live := live_through (ho.after m) hgoes (hnext ▸ hrecord)
      have hkept := (pending_through hstays hrecord).trans hpending
      have ho' : Orderly h' := (ho.after m).through later
      have hy : y = x.proceed true := eq_of_turn ho' hstill hturn' (by rw [hid', hnext, hid])
      obtain ⟨answers, hx⟩ := exists_run_of_turn ho₀ hx₀ hturn hid
      have hannounces : Announces p x₀ answers line e := announces_of_action t name p (hx ▸ haction)
      have hline : y.action? = some (.line p.file line) := by
        have hseen := hannounces.seen true [false]
        rw [← hx, ← hy] at hseen
        exact (List.cons.inj hseen).1
      refine ⟨hy, hline, h'.debugger.coordinator.gates, ?_⟩
      have hyid : y.id = x.id := hid'.trans hid.symm
      have hstop := suspended_of_turn ho' hturn' hline (hyid.symm ▸ hkept)
      rw [hid'] at hstop
      exact hstop

/-- An exception in a function, at which a client stops that looks at an expression meanwhile. -/
theorem exception_announced_once_call :
    let file := "/srv/fail.demo"
    let source := "func fail(n)\n  throw Broken n\nend\ncall fail(3)\n"
    let o : Options := ⟨true, some "secret", 50, none⟩
    let begun : List Move := [.load file source, .spawn file "main"]
    let asked : List Move := [.request (.attach ⟨some "secret", [], true⟩) rfl,
      .request (.setExceptionBreakpoints [Debugger.uncaughtFilter]) rfl] ++
      List.replicate 5 (.turn 0)
    let look : Move := .request (.evaluate none "1 + 1") rfl
    ∃ p before e s, Program.ofText file source = .ok p ∧
      Announces p (.start 10 "main" p) before 2 e ∧
      (((((fresh o false).through begun).through asked).after (.turn 0)).through [look]
        |>.after (.turn 0)).debugger.coordinator.suspended.get? 10 = some s ∧
      s.line = 2 ∧ s.stop.reason = .exception ∧ s.stop.exception = some e := by
  intro file source o begun asked look
  have hsyntax : (Program.ofText file source).toOption.isSome = true := by decide +kernel
  obtain ⟨p, hp⟩ := exists_ok hsyntax
  have hlive : .start 10 "main" p ∈ ((fresh o false).through begun).live :=
    start_mem_live _ hp "main"
  obtain ⟨hruns, -, hhosts⟩ := exception_announced_once 10 "main" p
  obtain ⟨-, -, hstop⟩ := hhosts o false begun hlive asked
  -- The host is named by an equation, so that it is not evaluated at every use.
  obtain ⟨h, hh⟩ : ∃ h, h = ((fresh o false).through begun).through asked := ⟨_, rfl⟩
  rw [← hh] at hstop ⊢
  have hfails : (h.turn? (.turn 0)).any (fun x => x.id = 10 ∧ x.point.exception?.isNone ∧
      (x.proceed true).point.exception?.isSome ∧ h.debugger.coordinator.stopsOnUncaught) = true := by
    rw [hh]
    decide +kernel
  have hgoes : (((h.after (.turn 0)).through [look]).turn? (.turn 0)).any
      (fun y => y.id = 10 ∧ y.report?.map Report.lineNumber = some 2) = true := by
    rw [hh]
    decide +kernel
  have hstays : ∀ l ∈ [look], l.dismisses = false := by
    intro l hl
    rw [List.mem_singleton.mp hl]
    rfl
  have hrecord : (h.after (.turn 0)).record 10 [look] = [] := rfl
  obtain ⟨x, hturn, hx⟩ := (Option.any_eq_true _ _).mp hfails
  obtain ⟨hid, hcalm, hraised, hstops⟩ := of_decide_eq_true hx
  obtain ⟨y, hturn', hy⟩ := (Option.any_eq_true _ _).mp hgoes
  obtain ⟨hid', htwo⟩ := of_decide_eq_true hy
  obtain ⟨line, e, haction⟩ :=
    announces_of_exception (Option.isNone_iff_eq_none.mp hcalm) hraised
  rw [← announce_fst _ 10 e] at hstops
  obtain ⟨-, hstop⟩ := hstop (.turn 0) x line e hturn hid haction
  obtain ⟨-, hline, gate, hs⟩ := hstop hstops [look] hstays hrecord (.turn 0) y hturn' hid'
  rw [report?, hline] at htwo
  obtain rfl : line = 2 := Option.some.inj htwo
  obtain ⟨before, hbefore⟩ := exists_run_of_turn (orderly_through o false begun) hlive
    (hh ▸ hturn) hid
  exact ⟨p, before, e, _, hp, hruns before 2 e (hbefore ▸ haction), hs, rfl, rfl, rfl⟩

end Host

end DebugAdapter.Script
