import DebugAdapter.Proofs.Suspension.History

/-!
# The coordinator under concurrency

The operations of a coordinator are taken apart. One move of a `System` is one section under a lock
or one store: a thread on its way into the table and back, a release that has taken an entry out of
the table, the end of the session. A schedule lists moves in any order; a move that its actor cannot
make changes nothing.

Left to themselves, the moves of one actor do what the operation does: `halt_alone`, `release_alone`
and `detach_alone`.
-/

namespace DebugAdapter

/-- A stop that a thread has decided on. -/
structure Halt (C : Type) where
  context : C
  file : String
  line : Nat
  stop : Stop

/-- Where a thread is on its way to a stop. -/
inductive Place (C : Type) where
  | running
  | stepDropped (h : Halt C)
  | pauseDropped (h : Halt C)
  | refreshed (h : Halt C)
  /-- It stands in the table and has not told the client. -/
  | parked (gate : Nat) (n : Notification)
  | waiting (gate : Nat)

namespace Place

variable {C : Type}

def halt? : Place C → Option (Halt C)
  | stepDropped h | pauseDropped h | refreshed h => some h
  | _ => none

def gate? : Place C → Option Nat
  | parked g _ | waiting g => some g
  | _ => none

end Place

inductive Teardown (C : Type) where
  | idle
  | closed
  | unfiltered
  | muted
  | disconnected
  /-- The table has been drained; these gates are still to be opened. -/
  | opening (left : List (Suspension C))
  | signalling (s : Suspension C) (left : List (Suspension C))
  | stepsDropped
  | pausesDropped
  | pendingDropped
  | returned

namespace Teardown

variable {C : Type}

/-- Drained entries whose gates are closed. -/
def unopened : Teardown C → List (Suspension C)
  | opening left | signalling _ left => left
  | _ => []

def unsignalled : Teardown C → List (Suspension C)
  | signalling s _ => [s]
  | _ => []

def drained : Teardown C → Bool
  | idle | closed | unfiltered | muted | disconnected => false
  | _ => true

end Teardown

structure System (C : Type) where
  coordinator : Coordinator C
  /-- The gates that are open. -/
  opened : List Nat
  places : ThreadId → Place C
  /-- Entries that a release has taken out of the table and whose gates are closed. -/
  taken : List (Suspension C)
  /-- Entries that a release has opened the gates of and whose contexts have not been told. -/
  freed : List (Suspension C)
  teardown : Teardown C

inductive Move (C : Type) where
  /-- A client comes, unless the end of the session has begun. -/
  | attach (consoleOutput : Bool)
  | halt (h : Halt C)
  | work (t : ThreadId)
  | resume (t : ThreadId)
  | openGate (i : Nat)
  | signal (i : Nat)
  | detach

namespace System

variable {C : Type} [Context C]

def start (fold : Path.Folding) : System C where
  coordinator := .new fold
  opened := []
  places := fun _ => .running
  taken := []
  freed := []
  teardown := .idle

def seat (s : System C) (t : ThreadId) (p : Place C) : System C :=
  { s with places := fun u => if u = t then p else s.places u }

/-- The next section of a thread. -/
def work (s : System C) (t : ThreadId) : System C :=
  let c := s.coordinator
  match s.places t with
  | .running => s
  | .stepDropped h =>
    { s with coordinator := { c with pauses := c.pauses.erase t } }.seat t (.pauseDropped h)
  | .pauseDropped h => { s with coordinator := c.refresh }.seat t (.refreshed h)
  | .refreshed h =>
    match c.park? h.context h.file h.line h.stop with
    | some c' => { s with coordinator := c' }.seat t (.parked c.gates (h.stop.notification t))
    | none => s.seat t .running
  | .parked g n => { s with coordinator := c.notify n }.seat t (.waiting g)
  | .waiting g => if g ∈ s.opened then s.seat t .running else s

/-- The next section or store of the end of the session. -/
def endSession (s : System C) : System C :=
  let c := s.coordinator
  match s.teardown with
  | .idle => { s with coordinator := { c with attached := false }, teardown := .closed }
  | .closed => { s with coordinator := { c with breakOnUncaught := false }, teardown := .unfiltered }
  | .unfiltered => { s with coordinator := { c with consoleOutput := false }, teardown := .muted }
  | .muted => { s with coordinator := { c with receiver := none }, teardown := .disconnected }
  | .disconnected => { s with coordinator := c.drain.2, teardown := .opening c.drain.1 }
  | .opening (x :: left) =>
    { s with opened := x.gate :: s.opened, teardown := .signalling x left }
  | .signalling x left => { s with coordinator := c.release x, teardown := .opening left }
  | .opening [] => { s with coordinator := { c with steps := ∅ }, teardown := .stepsDropped }
  | .stepsDropped => { s with coordinator := { c with pauses := ∅ }, teardown := .pausesDropped }
  | .pausesDropped => { s with coordinator := { c with pending := ∅ }, teardown := .pendingDropped }
  | .pendingDropped => { s with coordinator := c.refresh, teardown := .returned }
  | .returned => s

def move (s : System C) : Move C → System C
  | .attach consoleOutput =>
    match s.teardown with
    | .idle => { s with coordinator := s.coordinator.attach consoleOutput }
    | _ => s
  | .halt h =>
    let t := Context.thread h.context
    match s.places t with
    | .running =>
      { s with
        coordinator := { s.coordinator with steps := s.coordinator.steps.erase t }
      }.seat t (.stepDropped h)
    | _ => s
  | .work t => s.work t
  | .resume t =>
    match s.coordinator.take? t with
    | some (x, c) => { s with coordinator := c, taken := x :: s.taken }
    | none => s
  | .openGate i =>
    match s.taken[i]? with
    | some x =>
      { s with opened := x.gate :: s.opened, taken := s.taken.eraseIdx i, freed := x :: s.freed }
    | none => s
  | .signal i =>
    match s.freed[i]? with
    | some x => { s with coordinator := s.coordinator.release x, freed := s.freed.eraseIdx i }
    | none => s
  | .detach => s.endSession

/-- The system at the end of a schedule. -/
def run (s : System C) (ms : List (Move C)) : System C := ms.foldl move s

theorem run_append (s : System C) (ms later : List (Move C)) :
    s.run (ms ++ later) = (s.run ms).run later := List.foldl_append

def Blocked (s : System C) (t : ThreadId) : Prop :=
  ∃ g, s.places t = .waiting g ∧ g ∉ s.opened

/-! ## Moves of one actor -/

omit [Context C] in
@[simp] theorem seat_coordinator (s : System C) (t : ThreadId) (p : Place C) :
    (s.seat t p).coordinator = s.coordinator := rfl

omit [Context C] in
@[simp] theorem seat_places_self (s : System C) (t : ThreadId) (p : Place C) :
    (s.seat t p).places t = p := if_pos rfl

section
variable {s : System C} {t : ThreadId} {h : Halt C}

theorem halt_of_running (hplace : s.places (Context.thread h.context) = .running) :
    s.move (.halt h) =
      { s with
        coordinator := { s.coordinator with
          steps := s.coordinator.steps.erase (Context.thread h.context) }
      }.seat (Context.thread h.context) (.stepDropped h) := by
  simp only [move, hplace]

theorem work_of_refreshed (hplace : s.places t = .refreshed h) {c : Coordinator C}
    (hpark : s.coordinator.park? h.context h.file h.line h.stop = some c) :
    s.work t = { s with coordinator := c }.seat t
      (.parked s.coordinator.gates (h.stop.notification t)) := by
  simp only [work, hplace, hpark]

theorem work_of_refused (hplace : s.places t = .refreshed h)
    (hpark : s.coordinator.park? h.context h.file h.line h.stop = none) :
    s.work t = s.seat t .running := by
  simp only [work, hplace, hpark]

theorem work_of_parked {g : Nat} {n : Notification} (hplace : s.places t = .parked g n) :
    s.work t = { s with coordinator := s.coordinator.notify n }.seat t (.waiting g) := by
  simp only [work, hplace]

theorem work_of_running (hplace : s.places t = .running) : s.work t = s := by
  simp only [work, hplace]

end

/-- Before a thread looks whether a client is there, its step is completed and its pause
satisfied. -/
theorem halt_satisfies (s : System C) (h : Halt C)
    (hrunning : s.places (Context.thread h.context) = .running) :
    let t := Context.thread h.context
    let s' := s.run [.halt h, .work t, .work t]
    s'.coordinator = s.coordinator.satisfy t ∧ s'.places t = .refreshed h := by
  intro t s'
  simp only [s', run, List.foldl_cons, List.foldl_nil, halt_of_running hrunning]
  simp [move, work, t, Coordinator.satisfy, Coordinator.refresh, Coordinator.canStop]

/-- A thread that is not disturbed on its way to a stop ends as `suspend` has it. -/
theorem halt_alone (s : System C) (h : Halt C)
    (hrunning : s.places (Context.thread h.context) = .running) :
    let t := Context.thread h.context
    let s' := s.run [.halt h, .work t, .work t, .work t, .work t]
    let r := s.coordinator.suspend h.context h.file h.line h.stop
    s'.coordinator = r.2 ∧
      s'.places t = if r.1 then .waiting s.coordinator.gates else .running := by
  intro t s' r
  let s₁ := s.run [.halt h, .work t, .work t]
  obtain ⟨hcoordinator, hplace⟩ : s₁.coordinator = s.coordinator.satisfy t ∧
      s₁.places t = .refreshed h := halt_satisfies s h hrunning
  have hs' : s' = (s₁.work t).work t := rfl
  cases hpark : (s.coordinator.satisfy t).park? h.context h.file h.line h.stop with
  | some c =>
    have hr : r = (true, c.notify (h.stop.notification t)) := by
      simp only [r, Coordinator.suspend, t, hpark]
    have hgates : s₁.coordinator.gates = s.coordinator.gates := by
      rw [hcoordinator]
      rfl
    rw [← hcoordinator] at hpark
    rw [hs', work_of_refreshed hplace hpark, work_of_parked (seat_places_self _ _ _), hr, hgates]
    simp
  | none =>
    have hr : r = (false, s.coordinator.satisfy t) := by
      simp only [r, Coordinator.suspend, t, hpark]
    rw [← hcoordinator] at hpark
    rw [hs', work_of_refused hplace hpark, work_of_running (seat_places_self _ _ _), hr]
    simp [hcoordinator]

/-- A release that is not disturbed does what `resume` does. -/
theorem release_alone (s : System C) (t : ThreadId) {x : Suspension C}
    (h : s.coordinator.suspended.get? t = some x) :
    s.run [.resume t, .openGate 0, .signal 0] =
      { s with
        coordinator := (s.coordinator.resume t).2
        opened := x.gate :: s.opened } := by
  simp [run, move, Coordinator.take?, Coordinator.resume, h]

theorem opening_alone (left : List (Suspension C)) (s : System C) (h : s.teardown = .opening left) :
    s.run (List.replicate (2 * left.length) .detach) =
      { s with
        coordinator := left.foldl Coordinator.release s.coordinator
        opened := (left.map (·.gate)).reverse ++ s.opened
        teardown := .opening [] } := by
  induction left generalizing s with
  | nil =>
    cases s
    cases h
    rfl
  | cons x left ih =>
    have hmoves : List.replicate (2 * (x :: left).length) (Move.detach (C := C)) =
        [.detach, .detach] ++ List.replicate (2 * left.length) .detach := rfl
    have hpair : s.run [.detach, .detach] =
        { s with
          coordinator := s.coordinator.release x
          opened := x.gate :: s.opened
          teardown := .opening left } := by
      simp [run, move, endSession, h]
    rw [hmoves, run_append, hpair, ih _ rfl]
    simp

/-- The end of the session, when it is not disturbed, does what `detach` does. -/
theorem detach_alone (s : System C) (h : s.teardown = .idle) :
    s.run (List.replicate (2 * s.coordinator.suspended.size + 9) .detach) =
      { s with
        coordinator := s.coordinator.detach
        opened := (s.coordinator.suspended.values.map (·.gate)).reverse ++ s.opened
        teardown := .returned } := by
  let c : Coordinator C := { s.coordinator with
    attached := false, breakOnUncaught := false, consoleOutput := false, receiver := none }
  let s₁ : System C := { s with coordinator := c.drain.2, teardown := .opening c.drain.1 }
  have hsize : c.drain.1.length = s.coordinator.suspended.size := List.length_map _
  have hmoves : List.replicate (2 * s.coordinator.suspended.size + 9) (Move.detach (C := C)) =
      List.replicate 5 .detach ++
        (List.replicate (2 * c.drain.1.length) .detach ++ List.replicate 4 .detach) := by
    rw [List.replicate_append_replicate, List.replicate_append_replicate, hsize]
    congr 1
    omega
  have hdrain : s.run (List.replicate 5 .detach) = s₁ := by
    simp [run, move, endSession, h, s₁, c, List.replicate, Coordinator.drain]
  rw [hmoves, run_append, run_append, hdrain, opening_alone _ s₁ rfl]
  simp [run, move, endSession, List.replicate, s₁, c, Coordinator.detach, Coordinator.resumeAll,
    Coordinator.drain]

end System

end DebugAdapter
