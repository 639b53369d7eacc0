import DebugAdapter.Proofs.Debugger.Announcements
import DebugAdapter.Proofs.Script.FrameStack
import DebugAdapter.Proofs.Suspension.Stepping
import DebugAdapter.Proofs.Wire.Records
import DebugAdapter.Script.Host
import Mathlib.Data.List.Perm.Basic

/-!
# Histories of a host

What can happen to a host, as data: scripts are loaded and started, the client asks for something,
threads take their turns in any order, time passes. The threads that are alive are somewhere in the
host or with its coordinator, each once (`Orderly`), and none is changed but by its own turn
(`shift`). So what a thread goes through in a history is a run of its script
(`record_eq_track`).
-/

namespace DebugAdapter

/-! ## The table of waiting threads -/

namespace Coordinator

variable {C : Type} [Context C]

/-- Every thread waits under its own identifier. -/
def Keyed (c : Coordinator C) : Prop :=
  ∀ t s, c.suspended.get? t = some s → Context.thread s.context = t

theorem Keyed.after {c : Coordinator C} (h : Keyed c) (op : Operation C) : Keyed (c.after op) := by
  intro u s hs
  cases after_fate c op u with
  | kept hstep hplace | exited hstep hplace | turnedAway _ _ hstep hplace =>
    exact h u s (hplace.symm.trans hs)
  | cleared _ _ hplace | resumed _ hplace | stepped _ _ hplace =>
    rw [hplace] at hs
    contradiction
  | @parked ctx r _ hthread hwaits =>
    rcases hear_cases c ctx r with hhear | ⟨stop, d, -, hhear⟩
    · rw [hhear] at hwaits
      contradiction
    · cases hattached : d.attached with
      | true =>
        have hplace : (d.suspend ctx r.file r.lineNumber stop).2.suspended.get? (Context.thread ctx) =
            some ⟨ctx, r.file, r.lineNumber, stop, d.gates⟩ := suspended_suspend hattached
        rw [← hhear, hthread] at hplace
        obtain rfl := Option.some.inj (hplace.symm.trans hs)
        exact hthread
      | false =>
        rw [hhear, suspend_of_detached hattached] at hwaits
        contradiction

omit [Context C] in
theorem contexts_perm_sites (c : Coordinator C) : c.contexts.Perm (c.sites.map (·.1)) := by
  have hsites : c.sites.map (·.1) =
      c.released.map (·.context) ++ c.suspended.values.map (·.context) := by
    simp only [sites, List.map_append, List.map_map]
    rfl
  rw [hsites]
  exact List.perm_append_comm

omit [Context C] in
theorem contexts_perm {c d : Coordinator C} (h : d.sites.Perm c.sites) :
    d.contexts.Perm c.contexts :=
  (d.contexts_perm_sites.trans (h.map _)).trans c.contexts_perm_sites.symm

theorem contexts_hear {c : Coordinator C} (ctx : C) (r : Report)
    (habsent : c.suspended.get? (Context.thread ctx) = none) :
    (c.hear ctx r).2.contexts.Perm ((if (c.hear ctx r).1 then [ctx] else []) ++ c.contexts) := by
  have hsites := (contexts_perm_sites _).trans ((sites_hear (r := r) habsent).map (·.1))
  refine hsites.trans ?_
  rw [List.map_append]
  refine List.perm_append_comm.trans (List.Perm.append ?_ c.contexts_perm_sites.symm)
  simp only [parking?]
  cases (c.hear ctx r).1 <;> exact .refl _

end Coordinator

namespace Script

namespace Execution

/-- The execution after a turn, unless that was the last one. -/
def goesOn? (x : Execution) (stops : Bool) : Option Execution :=
  match x.action? with
  | some .finish => none
  | _ => some (x.proceed stops)

theorem Stepped.id_eq {x y : Execution} {stops : Bool} {a : Option Action}
    (h : Stepped x stops a y) : y.id = x.id := by
  cases h with
  | executed s a y hs hexecuted => cases hexecuted <;> rfl
  | left caller => cases caller <;> rfl
  | _ => rfl

theorem proceed_id (x : Execution) (stops : Bool) : (x.proceed stops).id = x.id :=
  (stepped x stops).id_eq

theorem after_id (x : Execution) (answers : List Bool) : (x.after answers).id = x.id :=
  after_keeps (I := fun y => y.id = x.id) (fun y stops hy => (y.proceed_id stops).trans hy) rfl answers

theorem step_id (x : Execution) : x.step.2.id = x.id := by
  have hid := x.proceed_id false
  rcases hstep : x.step with ⟨a, y⟩
  rw [proceed, hstep] at hid
  cases a with
  | none => exact hid
  | some a => cases a <;> exact hid

/-- Only an execution that has ended finishes, and this changes nothing about it. -/
theorem goesOn?_eq_none {x : Execution} {stops : Bool} (h : x.goesOn? stops = none) :
    x.point = .ended ∧ ∀ b, x.proceed b = x := by
  have haction : x.action? = some .finish := by
    unfold goesOn? at h
    split at h
    · assumption
    · contradiction
  have hended : ∀ b, x.point = .ended ∧ x.proceed b = x := by
    intro b
    have hstep := stepped x b
    rw [haction] at hstep
    generalize hy : x.proceed b = y at hstep
    cases hstep with
    | executed s a y hs hexecuted => cases hexecuted
    | ended hpoint => exact ⟨hpoint, rfl⟩
  exact ⟨(hended false).1, fun b => (hended b).2⟩

theorem goesOn?_eq_some {x y : Execution} {stops : Bool} (h : x.goesOn? stops = some y) :
    y = x.proceed stops := by
  unfold goesOn? at h
  split at h
  · contradiction
  · exact (Option.some.inj h).symm

theorem goesOn?_id (x : Execution) {y : Execution} {stops : Bool} (h : x.goesOn? stops = some y) :
    y.id = x.id := by
  rw [goesOn?_eq_some h]
  exact x.proceed_id stops

theorem goesOn?_of_ended {x : Execution} (h : x.point = .ended) (stops : Bool) :
    x.goesOn? stops = none := by
  rw [goesOn?, action?_of_ended h]

end Execution

def Turn.execution? : Turn → Option Execution
  | .ready x | .asleep _ x => some x
  | .parked | .ended => none

/-- What a step reports is what the coordinator hears. -/
theorem perform_report (c : Coordinator Execution) (x : Execution) {a : Action} {r : Report}
    (h : a.report? = some r) : perform c x a = Turn.ofReport x (c.hear x r) := by
  cases a with
  | line | entry | halt =>
    cases h
    rfl
  | announce | output | sleep | finish => contradiction

theorem ofReport_live {c : Coordinator Execution} {x : Execution} (r : Report)
    (habsent : c.suspended.get? x.id = none) :
    ((Turn.ofReport x (c.hear x r)).1.execution?.toList ++
      (Turn.ofReport x (c.hear x r)).2.contexts).Perm (x :: c.contexts) := by
  have hcontexts := Coordinator.contexts_hear x r habsent
  unfold Turn.ofReport
  cases hwaits : (c.hear x r).1 with
  | true =>
    rw [hwaits] at hcontexts
    exact hcontexts
  | false =>
    rw [hwaits] at hcontexts
    exact hcontexts.cons x

theorem contexts_notify (c : Coordinator Execution) (n : Notification) :
    (c.notify n).contexts = c.contexts := by
  unfold Coordinator.notify
  split <;> rfl

/-- After a turn the execution is with the host or with the coordinator, unless it is over. -/
theorem takeTurn_live {c : Coordinator Execution} {x : Execution}
    (habsent : c.suspended.get? x.id = none) :
    ((takeTurn c x).1.execution?.toList ++ (takeTurn c x).2.contexts).Perm
      ((x.goesOn? c.stopsOnUncaught).toList ++ c.contexts) := by
  rw [← x.step_id] at habsent
  unfold takeTurn Execution.goesOn? Execution.action? Execution.proceed
  rcases hstep : x.step with ⟨a, y⟩
  rw [hstep] at habsent
  cases a with
  | none => exact .refl _
  | some a =>
    cases a with
    | line file line => exact ofReport_live (.line file line) habsent
    | entry function component file line =>
      exact ofReport_live (.entry function component file line) habsent
    | halt file line label => exact ofReport_live (.halt file line label) habsent
    | announce line e =>
      simp only [perform, Coordinator.announce, Bool.false_or]
      cases c.stopsOnUncaught <;> exact .refl _
    | output text isError =>
      simp only [perform, Coordinator.output]
      split
      · rw [contexts_notify]
        exact .refl _
      · exact .refl _
    | sleep millis => exact .refl _
    | finish =>
      simp only [perform, Coordinator.exited]
      split <;> exact .refl _

namespace Host

/-! ## Moves -/

inductive Move where
  | load (path source : String)
  | spawn (path name : String)
  /-- The client asks for something. -/
  | request (e : Debugger.Event Execution) (he : Wire.ofClient e = true)
  /-- What there is to tell the client is taken over. -/
  | forward
  | collect
  /-- One of the threads that are ready takes its turn. -/
  | turn (i : Nat)
  | wake (time : Nat)

def after (h : Host) : Move → Host
  | .load path source =>
    match h.load path source with
    | .ok h' => h'
    | .error _ => h
  | .spawn path name =>
    match h.spawn path name with
    | .ok (_, h') => h'
    | .error _ => h
  | .request e _ => { h with debugger := h.debugger.after e }
  | .forward =>
    { h with debugger := { h.debugger with coordinator := h.debugger.coordinator.takeOutbox.2 } }
  | .collect => h.collect
  | .turn i =>
    match h.ready[i]? with
    | some x => h.advance x (h.ready.eraseIdx i)
    | none => h
  | .wake time => h.wake time

def through (h : Host) (ms : List Move) : Host := ms.foldl after h

/-- The execution that takes a turn. -/
def turn? (h : Host) : Move → Option Execution
  | .turn i => h.ready[i]?
  | _ => none

/-- What a thread executes, as it stands before each of its turns in a history. -/
def record (h : Host) (t : ThreadId) : List Move → List Execution
  | [] => []
  | m :: ms => ((h.turn? m).filter (·.id = t)).toList ++ (h.after m).record t ms

theorem mem_ready_of_turn {h : Host} {m : Move} {x : Execution} (hturn : h.turn? m = some x) :
    x ∈ h.ready := by
  cases m with
  | turn i => exact List.mem_of_getElem? hturn
  | load | spawn | request | forward | collect | wake => contradiction

theorem mem_live_of_ready {h : Host} {x : Execution} (hx : x ∈ h.ready) : x ∈ h.live :=
  List.mem_append_left _ (List.mem_append_left _ (List.mem_append_left _ hx))

theorem own_turn {h : Host} {m : Move} {x : Execution} (hturn : h.turn? m = some x) :
    (h.turn? m).filter (·.id = x.id) = some x := by
  rw [hturn]
  exact Option.filter_some_pos (decide_eq_true rfl)

theorem through_append (h : Host) (ms ns : List Move) :
    h.through (ms ++ ns) = (h.through ms).through ns := List.foldl_append

theorem record_append (h : Host) (t : ThreadId) (ms ns : List Move) :
    h.record t (ms ++ ns) = h.record t ms ++ (h.through ms).record t ns := by
  induction ms generalizing h with
  | nil => rfl
  | cons m ms ih =>
    rw [List.cons_append, record, ih, record, List.append_assoc]
    rfl

/-- What the host does when it is left to itself is a history, too. -/
theorem exists_runReady_eq_through (h : Host) (fuel : Nat) :
    ∃ ms, runReady fuel h = h.through ms := by
  induction fuel generalizing h with
  | zero => exact ⟨[], rfl⟩
  | succ fuel ih =>
    simp only [runReady]
    cases hready : h.collect.ready with
    | nil => exact ⟨[.collect], rfl⟩
    | cons x others =>
      obtain ⟨ms, hms⟩ := ih (h.collect.advance x others)
      have hturn : h.collect.after (.turn 0) = h.collect.advance x others := by
        simp only [after, hready, List.getElem?_cons_zero, List.eraseIdx_cons_zero]
      exact ⟨.collect :: .turn 0 :: ms, hms.trans (congrArg (through · ms) hturn.symm)⟩

/-! ## The debugger's side -/

/-- Threads wait under their own identifiers, and notifications go to the client that is there. -/
structure Sound (d : Debugger Execution) : Prop where
  keyed : d.coordinator.Keyed
  settled : Debugger.Settled d
  received : d.coordinator.receiver.isSome = d.coordinator.attached

theorem Sound.after {d : Debugger Execution} (h : Sound d) (e : Debugger.Event Execution) :
    Sound (d.after e) := by
  rcases Debugger.after_cases h.settled e with ⟨hunmoved, -⟩ | ⟨op, -, hop, -⟩
  · refine ⟨?_, Debugger.settled_after h.settled e, ?_⟩
    · rw [hunmoved]
      exact h.keyed
    · rw [hunmoved]
      exact h.received
  · have hsetup := Coordinator.after_setup d.coordinator op
    refine ⟨?_, Debugger.settled_after h.settled e, ?_⟩
    · rw [hop]
      exact h.keyed.after op
    · rw [hop]
      change (d.coordinator.after op).setup.receiver.isSome = (d.coordinator.after op).setup.attached
      rw [hsetup]
      cases op with
      | attach | detach => rfl
      | _ => exact h.received

/-- The outside takes over news, released threads and the time without touching what is asked for. -/
theorem Sound.takenOver {d : Debugger Execution} (h : Sound d) (outbox : List Delivery)
    (released : List (Suspension Execution)) (now : Nat) :
    Sound { d with
      coordinator := { d.coordinator with outbox, released }
      inspector := { d.inspector with now } } := by
  obtain ⟨hkeyed, ⟨hsession, hcurrent, ⟨hsuspended, hsteps, hpauses, hpending⟩, hsummary⟩, hreceived⟩ := h
  exact ⟨hkeyed, ⟨hsession, hcurrent, ⟨hsuspended, hsteps, hpauses, hpending⟩, hsummary⟩, hreceived⟩

/-! ## Where threads are -/

/-- Every thread that is alive is in one place, with a number of its own. -/
structure Orderly (h : Host) : Prop where
  distinct : (h.live.map Execution.id).Nodup
  below : ∀ x ∈ h.live, x.id < h.nextThread
  sound : Sound h.debugger

/-- What a move does to the threads that are alive. -/
inductive Shift (h : Host) (m : Move) (h' : Host) : Prop where
  | still (hturn : h.turn? m = none) (hlive : h'.live.Perm h.live)
    (hnext : h'.nextThread = h.nextThread)
  | started (name : String) (p : Program) (hturn : h.turn? m = none)
    (hlive : h'.live.Perm (.start h.nextThread name p :: h.live))
    (hnext : h'.nextThread = h.nextThread + 1)
  | turned (x : Execution) (others : List Execution) (hturn : h.turn? m = some x)
    (hlive : h.live.Perm (x :: others))
    (hlive' : h'.live.Perm
      ((x.goesOn? h.debugger.coordinator.stopsOnUncaught).toList ++ others))
    (hnext : h'.nextThread = h.nextThread)

theorem waiting_absent {h : Host} (ho : Orderly h) {x : Execution} (hx : x ∈ h.ready) :
    h.debugger.coordinator.suspended.get? x.id = none := by
  rw [Option.eq_none_iff_forall_ne_some]
  intro s hs
  -- A thread that waited, too, would be alive in two places.
  have hwaits : s.context ∈ h.debugger.coordinator.contexts :=
    List.mem_append_left _ (List.mem_map_of_mem (Table.mem_values.mpr ⟨x.id, hs⟩))
  have hdistinct := ho.distinct
  rw [live, List.map_append, List.nodup_append] at hdistinct
  have hrunning : x ∈ h.running := List.mem_append_left _ (List.mem_append_left _ hx)
  exact hdistinct.2.2 x.id (List.mem_map_of_mem hrunning) s.context.id (List.mem_map_of_mem hwaits)
    (ho.sound.keyed x.id s hs).symm

theorem live_advance (h : Host) (x : Execution) (others : List Execution) :
    let r := takeTurn h.debugger.coordinator x
    (h.advance x others).live.Perm
      (r.1.execution?.toList ++ (others ++ h.asleep.map (·.2) ++ h.waiting ++ r.2.contexts)) := by
  intro r
  rcases hr : r with ⟨turn, c⟩
  have hr : takeTurn h.debugger.coordinator x = (turn, c) := hr
  simp only [advance, hr]
  cases turn with
  | ready y => exact .refl _
  | asleep millis y =>
    simp only [live, running, Turn.execution?, List.map_append, List.map_cons, List.map_nil]
    classical
    rw [List.perm_iff_count]
    intro z
    simp only [List.count_append, Option.toList_some]
    omega
  | parked | ended => exact .refl _

theorem turned {h : Host} (ho : Orderly h) {i : Nat} {x : Execution} (hx : h.ready[i]? = some x) :
    Shift h (.turn i) (h.advance x (h.ready.eraseIdx i)) := by
  have hlive := takeTurn_live (c := h.debugger.coordinator)
    (waiting_absent ho (List.mem_of_getElem? hx))
  obtain ⟨hi, hget⟩ := List.getElem?_eq_some_iff.mp hx
  have hready := List.getElem_cons_eraseIdx_perm hi
  refine .turned x (h.ready.eraseIdx i ++ h.asleep.map (·.2) ++ h.waiting ++
    h.debugger.coordinator.contexts) hx ?_ ?_ ?_
  · rw [hget] at hready
    exact (hready.append_right _).symm.append_right _ |>.append_right _
  · refine (live_advance h x _).trans ?_
    classical
    rw [List.perm_iff_count] at hlive ⊢
    intro z
    have := hlive z
    simp only [List.count_append] at this ⊢
    omega
  · simp only [advance]
    split <;> rfl

theorem live_collect (h : Host) : h.collect.live.Perm h.live := by
  classical
  rw [List.perm_iff_count]
  intro z
  simp only [collect]
  split <;>
  · simp only [live, running, Coordinator.takeReleased, Coordinator.contexts, List.map_nil,
      List.append_nil, List.count_append]
    omega

theorem live_wake (h : Host) (time : Nat) : (h.wake time).live.Perm h.live := by
  have hsplit : (h.asleep.filter (·.1 ≤ time) ++ h.asleep.filter (time < ·.1)).Perm h.asleep := by
    have hfilter := List.filter_append_perm (fun s : Nat × Execution => decide (s.1 ≤ time)) h.asleep
    simpa only [← decide_not, Nat.not_le] using hfilter
  have hmap := hsplit.map (·.2)
  classical
  rw [List.perm_iff_count] at hmap ⊢
  intro z
  have := hmap z
  simp only [wake, live, running, Debugger.passTo, List.map_append, List.count_append] at this ⊢
  omega

theorem shift {h : Host} (ho : Orderly h) (m : Move) : Shift h m (h.after m) := by
  cases m with
  | load path source =>
    simp only [after, load]
    cases Program.ofText path source <;> exact .still rfl (.refl _) rfl
  | spawn path name =>
    simp only [after, spawn]
    cases h.programs.get? (h.key path) with
    | none => exact .still rfl (.refl _) rfl
    | some p =>
      refine .started name p rfl ?_ ?_
      · simp only [live, running]
        classical
        rw [List.perm_iff_count]
        intro z
        split <;>
        · simp only [List.count_append, List.count_cons, List.count_nil]
          omega
      · simp only
        split <;> rfl
  | request e he =>
    have hcontexts := Coordinator.contexts_perm (Wire.sites_of_ofClient h.debugger he)
    exact .still rfl (hcontexts.append_left _) rfl
  | forward => exact .still rfl (.refl _) rfl
  | collect =>
    refine .still rfl h.live_collect ?_
    simp only [after, collect]
  | turn i =>
    cases hx : h.ready[i]? with
    | none =>
      simp only [after, hx]
      exact .still hx (.refl _) rfl
    | some x =>
      simp only [after, hx]
      exact turned ho hx
  | wake time => exact .still rfl (h.live_wake time) rfl

/-- To the debugger a turn is nothing, or an event of its thread. -/
theorem takeTurn_event (d : Debugger Execution) (x : Execution) :
    { d with coordinator := (takeTurn d.coordinator x).2 } = d ∨
      ∃ e, { d with coordinator := (takeTurn d.coordinator x).2 } = d.after e ∧
        e.dismisses = false ∧ ∀ t, e.reporter? = some t → t = x.id := by
  have hid := x.step_id
  unfold takeTurn
  rcases hstep : x.step with ⟨a, y⟩
  rw [hstep] at hid
  have hown : ∀ t, some y.id = some t → t = x.id := fun t ht => (Option.some.inj ht).symm.trans hid
  cases a with
  | none => exact Or.inl rfl
  | some a =>
    cases a with
    | line file line => exact Or.inr ⟨.report y (.line file line), rfl, rfl, hown⟩
    | entry function component file line =>
      exact Or.inr ⟨.report y (.entry function component file line), rfl, rfl, hown⟩
    | halt file line label => exact Or.inr ⟨.report y (.halt file line label), rfl, rfl, hown⟩
    | announce line e => exact Or.inr ⟨.announce y.id e false, rfl, rfl, hown⟩
    | output text isError => exact Or.inr ⟨.output text isError, rfl, rfl, nofun⟩
    | sleep millis => exact Or.inl rfl
    | finish => exact Or.inr ⟨.exited y.id, rfl, rfl, hown⟩

theorem debugger_of_turn {h : Host} {m : Move} {x : Execution} (hturn : h.turn? m = some x) :
    (h.after m).debugger =
      { h.debugger with coordinator := (takeTurn h.debugger.coordinator x).2 } := by
  cases m with
  | turn i =>
    have hready : h.ready[i]? = some x := hturn
    simp only [after, hready, advance]
    split <;> rfl
  | load | spawn | request | forward | collect | wake => contradiction

theorem sound_after {h : Host} (hd : Sound h.debugger) (m : Move) : Sound (h.after m).debugger := by
  cases m with
  | load path source =>
    simp only [after, load]
    cases Program.ofText path source <;> exact hd
  | spawn path name =>
    simp only [after, spawn]
    cases h.programs.get? (h.key path) with
    | none => exact hd
    | some p =>
      simp only
      split <;> exact hd
  | request e he => exact hd.after e
  | forward => exact hd.takenOver [] h.debugger.coordinator.released h.now
  | collect =>
    have htaken := hd.takenOver h.debugger.coordinator.outbox [] h.now
    exact htaken
  | turn i =>
    cases hx : h.ready[i]? with
    | none =>
      simp only [after, hx]
      exact hd
    | some x =>
      have hturn : h.turn? (.turn i) = some x := hx
      rw [debugger_of_turn hturn]
      rcases takeTurn_event h.debugger x with hnothing | ⟨e, he, -, -⟩
      · rw [hnothing]
        exact hd
      · rw [he]
        exact hd.after e
  | wake time =>
    exact hd.takenOver h.debugger.coordinator.outbox h.debugger.coordinator.released time

theorem Orderly.after {h : Host} (ho : Orderly h) (m : Move) : Orderly (h.after m) := by
  have hsound := sound_after ho.sound m
  suffices hthreads : ((h.after m).live.map Execution.id).Nodup ∧
      ∀ x ∈ (h.after m).live, x.id < (h.after m).nextThread from
    ⟨hthreads.1, hthreads.2, hsound⟩
  cases shift ho m with
  | still hturn hlive hnext =>
    refine ⟨(hlive.map _).nodup_iff.mpr ho.distinct, ?_⟩
    intro x hx
    rw [hnext]
    exact ho.below x (hlive.mem_iff.mp hx)
  | started name p hturn hlive hnext =>
    refine ⟨(hlive.map _).nodup_iff.mpr ?_, ?_⟩
    · rw [List.map_cons, List.nodup_cons]
      refine ⟨?_, ho.distinct⟩
      intro hmem
      obtain ⟨x, hx, hid⟩ := List.mem_map.mp hmem
      exact absurd (ho.below x hx) (hid ▸ Int.lt_irrefl _)
    · intro x hx
      rw [hnext]
      rcases List.mem_cons.mp (hlive.mem_iff.mp hx) with rfl | hx
      · exact Int.lt_succ _
      · exact Int.lt_trans (ho.below x hx) (Int.lt_succ _)
  | turned x others hturn hlive hlive' hnext =>
    have hids : (((x.goesOn? h.debugger.coordinator.stopsOnUncaught).toList ++ others).map
        Execution.id).Sublist ((x :: others).map Execution.id) := by
      cases hgoes : x.goesOn? h.debugger.coordinator.stopsOnUncaught with
      | none => exact List.sublist_cons_self ..
      | some y =>
        have hy : y.id = x.id := x.goesOn?_id hgoes
        simp only [Option.toList_some, List.singleton_append, List.map_cons, hy]
        exact .refl _
    refine ⟨(hlive'.map _).nodup_iff.mpr ?_, ?_⟩
    · exact ((hlive.map Execution.id).nodup_iff.mp ho.distinct).sublist hids
    · intro y hy
      have hmem := hids.subset (List.mem_map_of_mem (hlive'.mem_iff.mp hy))
      obtain ⟨z, hz, hid⟩ := List.mem_map.mp hmem
      rw [hnext, ← hid]
      exact ho.below z (hlive.mem_iff.mpr hz)

theorem Orderly.through {h : Host} (ho : Orderly h) (ms : List Move) : Orderly (h.through ms) := by
  induction ms generalizing h with
  | nil => exact ho
  | cons m ms ih => exact ih (ho.after m)

/-- A host before anything has happened. -/
def fresh (o : Options) (waitForAttach : Bool) : Host := { new o with waitForAttach }

theorem orderly_through (o : Options) (waitForAttach : Bool) (ms : List Move) :
    Orderly ((fresh o waitForAttach).through ms) := by
  have hlive : (fresh o waitForAttach).live = [] := rfl
  have hkeyed : (Coordinator.new o.fold : Coordinator Execution).Keyed :=
    fun t s hs => absurd hs (by simp [Coordinator.new])
  have hfresh : Orderly (fresh o waitForAttach) := by
    refine ⟨?_, ?_, ⟨hkeyed, Debugger.settled_run o [], rfl⟩⟩
    · rw [hlive]
      exact List.nodup_nil
    · rw [hlive]
      exact fun x hx => absurd hx List.not_mem_nil
  exact hfresh.through ms

theorem start_mem_live (h : Host) {path source : String} {p : Program}
    (hp : Program.ofText path source = .ok p) (name : String) :
    .start h.nextThread name p ∈ (h.through [.load path source, .spawn path name]).live := by
  have hload : h.after (.load path source) =
      { h with programs := h.programs.insert (h.key path) p } := by
    simp only [after, load_of_ofText hp]
  have hfound : (h.programs.insert (h.key path) p).get? (h.key path) = some p := by
    rw [Table.get?_insert, if_pos rfl]
  rw [through, List.foldl_cons, List.foldl_cons, List.foldl_nil, hload]
  generalize hprograms : h.programs.insert (h.key path) p = programs at hfound
  have hspawn : Host.spawn { h with programs } path name =
      .ok (h.nextThread,
        if h.waitForAttach then
          { h with
            programs
            nextThread := h.nextThread + 1
            waiting := h.waiting ++ [.start h.nextThread name p] }
        else
          { h with
            programs
            nextThread := h.nextThread + 1
            ready := h.ready ++ [.start h.nextThread name p] }) := by
    have hkey : ({ h with programs } : Host).programs.get? (key { h with programs } path) = some p :=
      hfound
    simp only [spawn, hkey]
    rfl
  simp only [after, hspawn]
  split <;> simp [live, running]

/-! ## What a thread goes through -/

/-- The thread is over, or has never been there. -/
def Gone (h : Host) (t : ThreadId) : Prop := ∀ x ∈ h.live, x.id ≠ t

theorem Gone.after {h : Host} {t : ThreadId} (hgone : h.Gone t) (ho : Orderly h)
    (ht : t < h.nextThread) (m : Move) :
    (h.turn? m).filter (·.id = t) = none ∧ (h.after m).Gone t ∧ t < (h.after m).nextThread := by
  cases shift ho m with
  | still hturn hlive hnext =>
    refine ⟨by rw [hturn]; rfl, ?_, hnext ▸ ht⟩
    exact fun x hx => hgone x (hlive.mem_iff.mp hx)
  | started name p hturn hlive hnext =>
    refine ⟨by rw [hturn]; rfl, ?_, ?_⟩
    · intro x hx
      rcases List.mem_cons.mp (hlive.mem_iff.mp hx) with rfl | hx
      · exact (Int.ne_of_lt ht).symm
      · exact hgone x hx
    · rw [hnext]
      exact Int.lt_trans ht (Int.lt_succ _)
  | turned x others hturn hlive hlive' hnext =>
    have hx : x.id ≠ t := hgone x (hlive.mem_iff.mpr (List.mem_cons_self ..))
    refine ⟨?_, ?_, hnext ▸ ht⟩
    · rw [hturn]
      exact Option.filter_some_neg (by simpa using hx)
    · intro y hy
      rcases List.mem_append.mp (hlive'.mem_iff.mp hy) with hy | hy
      · rw [x.goesOn?_id (Option.mem_toList.mp hy)]
        exact hx
      · exact hgone y (hlive.mem_iff.mpr (List.mem_cons_of_mem _ hy))

theorem record_of_gone {h : Host} {t : ThreadId} (hgone : h.Gone t) (ho : Orderly h)
    (ht : t < h.nextThread) (ms : List Move) :
    h.record t ms = [] ∧ (h.through ms).Gone t := by
  induction ms generalizing h with
  | nil => exact ⟨rfl, hgone⟩
  | cons m ms ih =>
    obtain ⟨hturn, hgone, ht⟩ := hgone.after ho ht m
    obtain ⟨hrecord, hend⟩ := ih hgone (ho.after m) ht
    exact ⟨by rw [record, hturn, hrecord]; rfl, hend⟩

theorem nextThread_le {h : Host} (ho : Orderly h) (m : Move) :
    h.nextThread ≤ (h.after m).nextThread := by
  cases shift ho m with
  | still _ _ hnext | turned _ _ _ _ _ hnext => exact Int.le_of_eq hnext.symm
  | started _ _ _ _ hnext =>
    rw [hnext]
    exact Int.le_of_lt (Int.lt_succ _)

/-- A thread that is alive stays as it is, or takes its turn. -/
theorem alive_after {h : Host} (ho : Orderly h) {x : Execution} (hx : x ∈ h.live) (m : Move) :
    ((h.turn? m).filter (·.id = x.id) = none ∧ x ∈ (h.after m).live) ∨
      h.turn? m = some x ∧
        match x.goesOn? h.debugger.coordinator.stopsOnUncaught with
        | some y => y ∈ (h.after m).live
        | none => (h.after m).Gone x.id := by
  cases shift ho m with
  | still hturn hlive hnext => exact Or.inl ⟨by rw [hturn]; rfl, hlive.mem_iff.mpr hx⟩
  | started name p hturn hlive hnext =>
    exact Or.inl ⟨by rw [hturn]; rfl, hlive.mem_iff.mpr (List.mem_cons_of_mem _ hx)⟩
  | turned y others hturn hlive hlive' hnext =>
    have hdistinct := (hlive.map Execution.id).nodup_iff.mp ho.distinct
    rw [List.map_cons, List.nodup_cons] at hdistinct
    rcases List.mem_cons.mp (hlive.mem_iff.mp hx) with rfl | hother
    · refine Or.inr ⟨hturn, ?_⟩
      cases hgoes : x.goesOn? h.debugger.coordinator.stopsOnUncaught with
      | some y =>
        rw [hgoes] at hlive'
        exact hlive'.mem_iff.mpr (List.mem_cons_self ..)
      | none =>
        rw [hgoes] at hlive'
        intro z hz hid
        exact hdistinct.1 (hid ▸ List.mem_map_of_mem (hlive'.mem_iff.mp hz))
    · refine Or.inl ⟨?_, hlive'.mem_iff.mpr (List.mem_append_right _ hother)⟩
      rw [hturn]
      apply Option.filter_some_neg
      rw [decide_eq_false_iff_not]
      intro hid
      exact hdistinct.1 (hid ▸ List.mem_map_of_mem hother)

/-- What a thread goes through is a run: the execution that is alive stands where the run has come to,
or the run is over and the thread is gone. -/
theorem record_eq_track {h : Host} (ho : Orderly h) {x : Execution} (hx : x ∈ h.live)
    (ms : List Move) :
    ∃ answers, h.record x.id ms = x.track answers ∧
      (x.after answers ∈ (h.through ms).live ∨
        (∃ y ∈ x.track answers, y.point = .ended) ∧ (h.through ms).Gone x.id) := by
  induction ms generalizing h x with
  | nil => exact ⟨[], rfl, Or.inl hx⟩
  | cons m ms ih =>
    rcases alive_after ho hx m with ⟨hturn, hstays⟩ | ⟨hturn, hgoes⟩
    · obtain ⟨answers, hrecord, hend⟩ := ih (ho.after m) hstays
      refine ⟨answers, ?_, hend⟩
      rw [record, hturn, hrecord]
      rfl
    · have hown := own_turn hturn
      cases hnext : x.goesOn? h.debugger.coordinator.stopsOnUncaught with
      | some y =>
        rw [hnext] at hgoes
        obtain ⟨answers, hrecord, hend⟩ := ih (ho.after m) hgoes
        rw [x.goesOn?_id hnext, x.goesOn?_eq_some hnext] at hrecord hend
        refine ⟨h.debugger.coordinator.stopsOnUncaught :: answers, ?_, ?_⟩
        · rw [record, hown, hrecord]
          rfl
        · refine hend.imp_right ?_
          rintro ⟨⟨z, hz, hended⟩, hgone⟩
          exact ⟨⟨z, List.mem_cons_of_mem _ hz, hended⟩, hgone⟩
      | none =>
        rw [hnext] at hgoes
        have hbelow : x.id < (h.after m).nextThread :=
          Int.lt_of_lt_of_le (ho.below x hx) (nextThread_le ho m)
        obtain ⟨hrecord, hgone⟩ := record_of_gone hgoes (ho.after m) hbelow ms
        refine ⟨[false], ?_, Or.inr ⟨⟨x, List.mem_cons_self .., (x.goesOn?_eq_none hnext).1⟩, hgone⟩⟩
        rw [record, hown, hrecord]
        rfl

end Host

end Script

end DebugAdapter
