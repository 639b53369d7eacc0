import DebugAdapter.Proofs.Script.Hosts
import Mathlib.Data.List.Infix

/-!
# Debugging is transparent

What a script does for itself is what it executes, prints and ends with (`Effect`); reports to the
debugger are not part of it. All that a run is ever told is whether to stop at an exception, and this
only sends it on a detour (`exists_alone`): apart from that each run is the one that nobody watches.

Fairness is stated of endless histories: a thread that is stopped is resumed some time, and one that
is not stopped takes its turn some time. Then what one history shows of a thread, every other one
comes to show.
-/

namespace DebugAdapter.Script

/-- How a run ends. -/
structure Outcome where
  globals : Variables
  uncaught : Option Exception

/-- What a script does for itself. -/
inductive Effect where
  | executed (s : Stmt)
  | printed (text : String) (isError : Bool)
  | ended (outcome : Outcome)

/-- The point is on the detour of a stop at an exception. -/
def Point.isRaised : Point → Bool
  | .raised .. => true
  | _ => false

/-- The point without the detour. -/
def Point.direct : Point → Point
  | .raised _ e => .unwinding e
  | point => point

theorem Point.direct_eq_self {point : Point} (h : point.isRaised = false) : point.direct = point := by
  cases point with
  | raised => contradiction
  | _ => rfl

namespace Execution

def prints? (x : Execution) : Option (String × Bool) :=
  match x.action? with
  | some (.output text isError) => some (text, isError)
  | _ => none

/-- How the run ends, if it ends with the next step. -/
def outcome? (x : Execution) : Option Outcome :=
  match x.tasks, x.point with
  | [], .next | [], .returning _ => some ⟨x.stack.globals, none⟩
  | [], .unwinding e => some ⟨x.stack.globals, some e⟩
  | _, _ => none

/-- What the next step does. -/
def effects (x : Execution) : List Effect :=
  (x.point.executes?.map .executed).toList ++ (x.prints?.map fun p => .printed p.1 p.2).toList ++
    (x.outcome?.map .ended).toList

def course (x : Execution) (answers : List Bool) : List Effect := (x.track answers).flatMap effects

def direct (x : Execution) : Execution := { x with point := x.point.direct }

/-- A run that is never told to stop at an exception. -/
def alone (n : Nat) : List Bool := List.replicate n false

theorem course_append (x : Execution) (as bs : List Bool) :
    x.course (as ++ bs) = x.course as ++ (x.after as).course bs := by
  rw [course, track_append, List.flatMap_append]
  rfl

/-! ## The end of a run -/

section
variable {x : Execution}

theorem effects_of_ended (h : x.point = .ended) : x.effects = [] := by
  have houtcome : x.outcome? = none := by
    unfold outcome?
    rw [h]
    split <;> simp_all
  rw [effects, h, prints?, action?_of_ended h, houtcome]
  rfl

theorem course_of_ended (h : x.point = .ended) (answers : List Bool) :
    x.course answers = [] ∧ x.after answers = x := by
  induction answers with
  | nil => exact ⟨rfl, rfl⟩
  | cons stops answers ih =>
    have hnext := proceed_of_ended h stops
    refine ⟨?_, ?_⟩
    · rw [course, track, List.flatMap_cons, effects_of_ended h, hnext]
      exact ih.1
    · rw [after, List.foldl_cons, hnext]
      exact ih.2

theorem ended_of_outcome {outcome : Outcome} (h : x.outcome? = some outcome) (stops : Bool) :
    (x.proceed stops).point = .ended := by
  unfold outcome? at h
  split at h
  · rename_i htasks hpoint
    simp only [proceed, step, hpoint, htasks]
    rfl
  · rename_i htasks hpoint
    simp only [proceed, step, hpoint, htasks]
    rfl
  · rename_i htasks hpoint
    simp only [proceed, step, hpoint, htasks]
    rfl
  · contradiction

theorem mem_effects_ended {outcome : Outcome} (h : .ended outcome ∈ x.effects) :
    x.outcome? = some outcome := by
  rcases List.mem_append.mp h with h | h
  · rcases List.mem_append.mp h with h | h
    · obtain ⟨s, -, hs⟩ := Option.map_eq_some_iff.mp (Option.mem_toList.mp h)
      contradiction
    · obtain ⟨text, -, htext⟩ := Option.map_eq_some_iff.mp (Option.mem_toList.mp h)
      contradiction
  · obtain ⟨o, ho, heq⟩ := Option.map_eq_some_iff.mp (Option.mem_toList.mp h)
    cases heq
    exact ho

theorem ended_of_mem_course {outcome : Outcome} {answers : List Bool}
    (h : .ended outcome ∈ x.course answers) : (x.after answers).point = .ended := by
  induction answers generalizing x with
  | nil => contradiction
  | cons stops answers ih =>
    rw [course, track, List.flatMap_cons] at h
    rcases List.mem_append.mp h with h | h
    · have hended := ended_of_outcome (mem_effects_ended h) stops
      rw [after, List.foldl_cons, ← after, (course_of_ended hended answers).2]
      exact hended
    · exact ih h

theorem ended_of_mem_track {y : Execution} {answers : List Bool} (hy : y ∈ x.track answers)
    (hended : y.point = .ended) : (x.after answers).point = .ended := by
  obtain ⟨before, stops, behind, rfl, rfl⟩ := exists_of_mem_track hy
  rw [after_append, (course_of_ended hended _).2]
  exact hended

/-! ## The detour -/

theorem direct_of_not_raised (h : x.point.isRaised = false) : x.direct = x := by
  unfold direct
  rw [Point.direct_eq_self h]

/-- On the detour a line is reported, and nothing else happens. -/
theorem detour (h : x.point.isRaised = true) (stops : Bool) :
    x.effects = [] ∧ x.proceed stops = x.direct := by
  cases hpoint : x.point with
  | raised line e =>
    have hstep : x.step = (some (.line x.program.file line), { x with point := .unwinding e }) := by
      unfold step
      rw [hpoint]
    have houtcome : x.outcome? = none := by
      unfold outcome?
      rw [hpoint]
      split <;> simp_all
    refine ⟨?_, ?_⟩
    · rw [effects, prints?, action?, hstep, hpoint, houtcome]
      rfl
    · rw [proceed, hstep, direct, hpoint]
      rfl
  | _ =>
    rw [hpoint] at h
    contradiction

theorem Stepped.not_raised {y : Execution} {a : Option Action} (h : Stepped x false a y)
    (hx : x.point.isRaised = false) : y.point.isRaised = false := by
  cases h with
  | reported task rest point hpoint htasks hcaller hp =>
    cases point with
    | raised => contradiction
    | _ => rfl
  | executed s a y hs hexecuted => cases hexecuted <;> rfl
  | left caller => cases caller <;> rfl
  | dropped | unwound | ended => exact hx
  | _ => rfl

theorem proceed_of_silent (h : ∀ line e, x.action? ≠ some (.announce line e)) :
    x.proceed true = x.proceed false := by
  unfold action? at h
  unfold proceed
  rcases hstep : x.step with ⟨a, y⟩
  rw [hstep] at h
  cases a with
  | none => rfl
  | some a =>
    cases a with
    | announce line e => exact absurd rfl (h line e)
    | _ => rfl

theorem direct_not_raised (x : Execution) : x.direct.point.isRaised = false := by
  unfold direct Point.direct
  cases x.point <;> rfl

/-- What an announcement is answered decides on the detour and on nothing else. -/
theorem direct_proceed (h : x.point.isRaised = false) (stops : Bool) :
    (x.proceed stops).direct = x.proceed false := by
  have hcalm := direct_of_not_raised ((stepped x false).not_raised h)
  cases stops with
  | false => exact hcalm
  | true =>
    by_cases hannounces : ∃ line e, x.action? = some (.announce line e)
    · obtain ⟨line, e, haction⟩ := hannounces
      obtain ⟨s, f, hfails, -, -⟩ := announces_iff.mp haction
      rw [hfails.proceed true, hfails.proceed false]
      rfl
    · have hsilent : x.proceed true = x.proceed false :=
        proceed_of_silent fun line e haction => hannounces ⟨line, e, haction⟩
      rw [hsilent]
      exact hcalm

/-- Apart from the detour, a run does what it does when nobody watches, and gets half as far at
least. -/
theorem exists_alone (x : Execution) (answers : List Bool) :
    ∃ n, answers.length ≤ 2 * n + x.point.isRaised.toNat ∧
      (x.after answers).direct = x.direct.after (alone n) ∧
      x.course answers = x.direct.course (alone n) := by
  -- A step of the run is one of the run alone, or takes it off the detour.
  induction answers generalizing x with
  | nil => exact ⟨0, Nat.zero_le _, rfl, rfl⟩
  | cons stops answers ih =>
    obtain ⟨n, hlength, hafter, hcourse⟩ := ih (x.proceed stops)
    have hfirst : x.course (stops :: answers) = x.effects ++ (x.proceed stops).course answers :=
      List.flatMap_cons
    cases hx : x.point.isRaised with
    | true =>
      obtain ⟨heffects, hnext⟩ := detour hx stops
      have hcalm := x.direct_not_raised
      rw [hnext, direct_of_not_raised hcalm] at hafter hcourse
      rw [hnext, hcalm] at hlength
      refine ⟨n, ?_, ?_, ?_⟩
      · simp only [List.length_cons, Bool.toNat_true, Bool.toNat_false] at hlength ⊢
        omega
      · rw [after, List.foldl_cons, hnext]
        exact hafter
      · rw [hfirst, heffects, hnext, hcourse]
        rfl
    | false =>
      rw [direct_proceed hx] at hafter hcourse
      have hcalm := direct_of_not_raised hx
      refine ⟨n + 1, ?_, ?_, ?_⟩
      · have := (x.proceed stops).point.isRaised.toNat_le
        simp only [List.length_cons, Bool.toNat_false]
        omega
      · rw [hcalm]
        exact hafter
      · rw [hfirst, hcalm, hcourse]
        rfl

theorem alone_add (n m : Nat) : alone (n + m) = alone n ++ alone m :=
  (List.replicate_append_replicate ..).symm

theorem course_alone_mono (x : Execution) {n m : Nat} (h : n ≤ m) :
    x.course (alone n) <+: x.course (alone m) := by
  obtain ⟨d, rfl⟩ := Nat.exists_eq_add_of_le h
  rw [alone_add, course_append]
  exact List.prefix_append ..

theorem course_alone_of_ended {n m : Nat} (hended : (x.after (alone n)).point = .ended)
    (h : n ≤ m) : x.course (alone m) = x.course (alone n) := by
  obtain ⟨d, rfl⟩ := Nat.exists_eq_add_of_le h
  rw [alone_add, course_append, (course_of_ended hended _).1, List.append_nil]

theorem direct_ended (h : x.point = .ended) : x.direct.point = .ended := by
  unfold direct
  rw [h]
  rfl

end

end Execution

namespace Host
open Execution

/-! ## Endless histories -/

section
variable (h : Host) (σ : Nat → Move) (t : ThreadId)

def upTo (n : Nat) : List Move := (List.range n).map σ

/-- What a thread has done up to a moment. -/
def shown (n : Nat) : List Effect := (h.record t (upTo σ n)).flatMap effects

def stopped (n : Nat) : Bool := (h.through (upTo σ n)).debugger.coordinator.isSuspended t

/-- A thread that is stopped is resumed some time, and one that is not takes its turn some time. -/
structure Fair : Prop where
  resumed : ∀ n, h.stopped σ t n = true → ∃ m, n ≤ m ∧ h.stopped σ t m = false
  scheduled : ∀ n, h.stopped σ t n = false → ¬(h.through (upTo σ n)).Gone t →
    ∃ m, n ≤ m ∧ ∃ x, (h.through (upTo σ m)).turn? (σ m) = some x ∧ x.id = t

end

section
variable {h : Host} {σ : Nat → Move} {t : ThreadId}

theorem upTo_add (σ : Nat → Move) (n d : Nat) :
    upTo σ (n + d) = upTo σ n ++ (List.range d).map (fun i => σ (n + i)) := by
  rw [upTo, List.range_add, List.map_append, List.map_map]
  rfl

theorem upTo_succ (σ : Nat → Move) (n : Nat) : upTo σ (n + 1) = upTo σ n ++ [σ n] := by
  rw [upTo, List.range_succ, List.map_append]
  rfl

theorem not_suspended_of_gone (ho : Orderly h) (hgone : h.Gone t) :
    h.debugger.coordinator.isSuspended t = false := by
  rw [Coordinator.isSuspended, Table.contains]
  cases hs : h.debugger.coordinator.suspended.get? t with
  | none => rfl
  | some s =>
    have hwaits : s.context ∈ h.debugger.coordinator.contexts :=
      List.mem_append_left _ (List.mem_map_of_mem (Table.mem_values.mpr ⟨t, hs⟩))
    exact absurd (ho.sound.keyed t s hs) (hgone s.context (List.mem_append_right _ hwaits))

/-- A history in which the thread comes to its end is fair, whatever follows. -/
theorem fair_of_last_turn (ho : Orderly h) {n : Nat}
    (hlast : ((h.through (upTo σ n)).turn? (σ n)).any
      (fun x => x.id = t ∧ (x.goesOn? false).isNone) = true) : h.Fair σ t := by
  obtain ⟨x, hturn, hx⟩ := (Option.any_eq_true _ _).mp hlast
  obtain ⟨rfl, hnone⟩ := of_decide_eq_true hx
  have hended : x.point = .ended := (goesOn?_eq_none (Option.isNone_iff_eq_none.mp hnone)).1
  have hbefore := ho.through (upTo σ n)
  have hready := mem_ready_of_turn hturn
  have hlive := mem_live_of_ready hready
  have hfree : h.stopped σ x.id n = false := by
    rw [stopped, Coordinator.isSuspended, Table.contains, waiting_absent hbefore hready]
    rfl
  have hgone : ∀ m, n < m → (h.through (upTo σ m)).Gone x.id := by
    intro m hm
    have hnext : ((h.through (upTo σ n)).after (σ n)).Gone x.id := by
      rcases alive_after hbefore hlive (σ n) with ⟨hother, -⟩ | ⟨-, hgoes⟩
      · rw [own_turn hturn] at hother
        contradiction
      · rw [goesOn?_of_ended hended] at hgoes
        exact hgoes
    have hbelow : x.id < ((h.through (upTo σ n)).after (σ n)).nextThread :=
      Int.lt_of_lt_of_le (hbefore.below x hlive) (nextThread_le hbefore (σ n))
    obtain ⟨d, rfl⟩ := Nat.exists_eq_add_of_le hm
    rw [upTo_add, upTo_succ, through_append, through_append]
    exact (record_of_gone hnext (hbefore.after (σ n)) hbelow _).2
  refine ⟨?_, ?_⟩
  · intro m hm
    rcases Nat.lt_or_ge n m with hlt | hle
    · rw [stopped, not_suspended_of_gone (ho.through (upTo σ m)) (hgone m hlt)] at hm
      contradiction
    · exact ⟨n, hle, hfree⟩
  · intro m _ hthere
    rcases Nat.lt_or_ge n m with hlt | hle
    · exact absurd (hgone m hlt) hthere
    · exact ⟨n, hle, x, hturn, rfl⟩

theorem record_upTo (h : Host) (σ : Nat → Move) (t : ThreadId) {n m : Nat} (hnm : n ≤ m) :
    h.record t (upTo σ n) <+: h.record t (upTo σ m) := by
  obtain ⟨d, rfl⟩ := Nat.exists_eq_add_of_le hnm
  rw [upTo_add, record_append]
  exact List.prefix_append ..

theorem shown_mono (h : Host) (σ : Nat → Move) (t : ThreadId) {n m : Nat} (hnm : n ≤ m) :
    h.shown σ t n <+: h.shown σ t m := by
  obtain ⟨later, hlater⟩ := record_upTo h σ t hnm
  rw [shown, shown, ← hlater, List.flatMap_append]
  exact List.prefix_append ..

/-- In a fair history a thread takes any number of turns, unless it is over before. -/
theorem Fair.turns (hfair : h.Fair σ t) (k : Nat) :
    ∃ n, (h.through (upTo σ n)).Gone t ∨ k ≤ (h.record t (upTo σ n)).length := by
  induction k with
  | zero => exact ⟨0, Or.inr (Nat.zero_le _)⟩
  | succ k ih =>
    obtain ⟨n, hgone | hk⟩ := ih
    · exact ⟨n, Or.inl hgone⟩
    · have hfree : ∃ m, n ≤ m ∧ h.stopped σ t m = false := by
        cases hstopped : h.stopped σ t n with
        | true => exact hfair.resumed n hstopped
        | false => exact ⟨n, Nat.le_refl n, hstopped⟩
      obtain ⟨m, hnm, hm⟩ := hfree
      by_cases hgone : (h.through (upTo σ m)).Gone t
      · exact ⟨m, Or.inl hgone⟩
      · obtain ⟨l, hml, x, hturn, hx⟩ := hfair.scheduled m hm hgone
        refine ⟨l + 1, Or.inr ?_⟩
        have hlast : (h.through (upTo σ l)).record t [σ l] = [x] := by
          rw [record, ← hx, own_turn hturn]
          rfl
        have hbefore := (record_upTo h σ t (hnm.trans hml)).length_le
        rw [upTo_succ, record_append, hlast, List.length_append]
        exact Nat.succ_le_succ (hk.trans hbefore)

/-- What a thread has done up to a moment is what it does when nobody watches, as far as it has got:
half as far at least as the turns that it has taken, and to its end when it is gone. -/
theorem exists_shown_eq (ho : Orderly h) {x : Execution} (hx : x ∈ h.live)
    (hcalm : x.point.isRaised = false) (σ : Nat → Move) (n : Nat) :
    ∃ k, h.shown σ x.id n = x.course (alone k) ∧
      (h.record x.id (upTo σ n)).length ≤ 2 * k ∧
      ((h.through (upTo σ n)).Gone x.id → (x.after (alone k)).point = .ended) := by
  obtain ⟨answers, hrecord, hend⟩ := record_eq_track ho hx (upTo σ n)
  obtain ⟨k, hlength, hafter, hcourse⟩ := x.exists_alone answers
  rw [direct_of_not_raised hcalm] at hafter hcourse
  refine ⟨k, ?_, ?_, ?_⟩
  · rw [shown, hrecord]
    exact hcourse
  · rw [hrecord, length_track]
    simpa only [hcalm, Bool.toNat_false, Nat.add_zero] using hlength
  · intro hgone
    rcases hend with hlive | ⟨⟨y, hy, hended⟩, -⟩
    · have hid : (x.after answers).id = x.id := after_id x answers
      exact absurd hid (hgone _ hlive)
    · rw [← hafter]
      exact direct_ended (ended_of_mem_track hy hended)

/-- Whatever the first history shows, the second one comes to show; and when the first one has shown
the end, the second one shows the same from some time on. -/
def Follows (first second : Nat → List Effect) : Prop :=
  (∀ n, ∃ m, first n <+: second m) ∧
    ∀ n outcome, .ended outcome ∈ first n → ∃ m, ∀ k, m ≤ k → second k = first n

theorem follows_of_fair {h₁ h₂ : Host} (ho₁ : Orderly h₁) (ho₂ : Orderly h₂) {x : Execution}
    (hx₁ : x ∈ h₁.live) (hx₂ : x ∈ h₂.live) (hcalm : x.point.isRaised = false) (σ₁ : Nat → Move)
    {σ₂ : Nat → Move} (hfair : h₂.Fair σ₂ x.id) :
    Follows (h₁.shown σ₁ x.id) (h₂.shown σ₂ x.id) := by
  have hreaches : ∀ n, ∃ m, h₁.shown σ₁ x.id n <+: h₂.shown σ₂ x.id m := by
    intro n
    obtain ⟨k, hshown, -, -⟩ := exists_shown_eq ho₁ hx₁ hcalm σ₁ n
    obtain ⟨m, hm⟩ := hfair.turns (2 * k)
    obtain ⟨l, hshown', hlength, hgone⟩ := exists_shown_eq ho₂ hx₂ hcalm σ₂ m
    refine ⟨m, ?_⟩
    rw [hshown, hshown']
    -- The second history has got as far as the first one, or to the end of the run.
    rcases Nat.le_total k l with hkl | hlk
    · exact x.course_alone_mono hkl
    · rcases hm with hm | hm
      · rw [course_alone_of_ended (hgone hm) hlk]
      · have hkl : k ≤ l := by omega
        exact x.course_alone_mono hkl
  refine ⟨hreaches, ?_⟩
  intro n outcome hended
  obtain ⟨m, hm⟩ := hreaches n
  refine ⟨m, ?_⟩
  intro k hk
  have hbelow : h₁.shown σ₁ x.id n <+: h₂.shown σ₂ x.id k :=
    hm.trans (shown_mono h₂ σ₂ x.id hk)
  obtain ⟨i, hi, -, -⟩ := exists_shown_eq ho₁ hx₁ hcalm σ₁ n
  obtain ⟨j, hj, -, -⟩ := exists_shown_eq ho₂ hx₂ hcalm σ₂ k
  rw [hi] at hended hbelow ⊢
  rw [hj] at hbelow ⊢
  rcases Nat.le_total i j with hij | hji
  · exact course_alone_of_ended (ended_of_mem_course hended) hij
  · exact (x.course_alone_mono hji).eq_of_length_le hbelow.length_le

end

/-- Two endless histories of a thread that has not begun, each with the requests of its own, in which
every stop is resumed: the thread executes the same statements in both, prints the same texts and ends
with the same variables and the same exception, if it ends. -/
theorem debugging_transparent {o₁ o₂ : Options} {wait₁ wait₂ : Bool} {before₁ before₂ : List Move}
    {σ₁ σ₂ : Nat → Move} {t : ThreadId} {name : String} {p : Program}
    (hstart₁ : .start t name p ∈ ((fresh o₁ wait₁).through before₁).live)
    (hstart₂ : .start t name p ∈ ((fresh o₂ wait₂).through before₂).live)
    (hfair₁ : ((fresh o₁ wait₁).through before₁).Fair σ₁ t)
    (hfair₂ : ((fresh o₂ wait₂).through before₂).Fair σ₂ t) :
    let first := ((fresh o₁ wait₁).through before₁).shown σ₁ t
    let second := ((fresh o₂ wait₂).through before₂).shown σ₂ t
    Follows first second ∧ Follows second first := by
  have ho₁ := orderly_through o₁ wait₁ before₁
  have ho₂ := orderly_through o₂ wait₂ before₂
  refine ⟨?_, ?_⟩
  · exact follows_of_fair ho₁ ho₂ hstart₁ hstart₂ rfl σ₁ hfair₂
  · exact follows_of_fair ho₂ ho₁ hstart₂ hstart₁ rfl σ₂ hfair₁

/-- A script that nobody watches, and the same one with a stop in a function, where an expression is
evaluated, and a stop at the exception that ends it. -/
theorem debugging_transparent_stops :
    let file := "/srv/double.demo"
    let source := "func double(n)\n  return n * 2\nend\nlet a = call double(4)\nprint a\n" ++
      "throw Broken \"off\"\n"
    let h := (fresh ⟨true, some "secret", 50, none⟩ false).through [.load file source, .spawn file "main"]
    let unwatched : Nat → Move := fun _ => .turn 0
    let requests : List Move :=
      [.request (.attach ⟨some "secret", [], false⟩) rfl,
        .request (.setFunctionBreakpoints [⟨"double", none⟩]) rfl,
        .request (.setExceptionBreakpoints [Debugger.uncaughtFilter]) rfl] ++
      List.replicate 4 (.turn 0) ++
      [.request (.stackTrace 10 0 none) rfl, .request (.evaluate (some 1) "n + 1") rfl,
        .request (.resume 10) rfl, .collect] ++
      List.replicate 8 (.turn 0) ++ [.request (.resume 10) rfl, .collect]
    let watched : Nat → Move := fun n => requests.getD n (.turn 0)
    ∃ p, Program.ofText file source = .ok p ∧ .start 10 "main" p ∈ h.live ∧
      h.stopped watched 10 7 = true ∧ h.stopped watched 10 19 = true ∧
      Follows (h.shown unwatched 10) (h.shown watched 10) ∧
      Follows (h.shown watched 10) (h.shown unwatched 10) := by
  intro file source h unwatched requests watched
  have hsyntax : (Program.ofText file source).toOption.isSome = true := by decide +kernel
  obtain ⟨p, hp⟩ := exists_ok hsyntax
  have ho : Orderly h := orderly_through _ _ _
  have hstart : .start 10 "main" p ∈ h.live := start_mem_live _ hp "main"
  have hunwatched : h.Fair unwatched 10 := by
    apply fair_of_last_turn ho (n := 12)
    decide +kernel
  have hwatched : h.Fair watched 10 := by
    apply fair_of_last_turn ho (n := 22)
    decide +kernel
  have hstops : h.stopped watched 10 7 = true ∧ h.stopped watched 10 19 = true := by
    decide +kernel
  obtain ⟨hfirst, hsecond⟩ := debugging_transparent hstart hstart hunwatched hwatched
  exact ⟨p, hp, hstart, hstops.1, hstops.2, hfirst, hsecond⟩

end Host

end DebugAdapter.Script
