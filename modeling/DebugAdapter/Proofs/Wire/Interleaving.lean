import DebugAdapter.Proofs.Suspension.Interleaving
import DebugAdapter.Proofs.Wire.Service

/-!
# Sessions section by section

Threads of the debuggee go on while a session ends. What they do is taken apart here: a `Touch` is
one section under a lock, and an announcement looks twice before it adds its exception. So is the
end of the session, whose stores and sections come one after the other (`Store.all`). A `Course` has
all of them in any order.

Left to themselves, the sections of a hook do what the hook does (`meet_alone`), and those of the
end do what `detach` does (`receive_alone`).
-/

namespace DebugAdapter

/-- One section of a thread, or what goes on around the threads. -/
inductive Touch (C : Type) where
  | dropStep (t : ThreadId)
  | dropPause (t : ThreadId)
  | dropPending (t : ThreadId)
  | refresh
  | park (h : Halt C)
  | send (n : Notification)
  | reclaim (p : Debuggee)
  | passTo (time : Nat)
  | goOn

/-- One store or section of the end of a session. -/
inductive Store (C : Type) where
  | session
  | attached
  | uncaught
  | console
  | receiver
  | drain
  /-- A thread that the drain has taken out of the table is let go on. -/
  | release (x : Suspension C)
  | steps
  | pauses
  | pending
  | refresh
  | frames
  | pins
  | handles

/-- The end of a session, in its order. -/
def Store.all {C : Type} : List (Store C) :=
  [.session, .attached, .uncaught, .console, .receiver, .drain, .steps, .pauses, .pending, .refresh,
    .frames, .pins, .handles]

/-- The entry that is on its way out of the table. -/
def Store.entry? {C : Type} : Store C → Option (Suspension C)
  | .release x => some x
  | _ => none

/-- How far a thread has come with an announcement. -/
inductive Notice where
  | none
  /-- It has seen that exceptions that nobody handles stop their thread. -/
  | asked (e : Exception)
  /-- It has seen that a client is there as well. -/
  | due (e : Exception)

variable {C : Type}

namespace Debugger

/-- An exception is going to stop its thread. -/
def pend (d : Debugger C) (t : ThreadId) (e : Exception) : Debugger C :=
  { d with coordinator := { d.coordinator with pending := d.coordinator.pending.insert t e } }

/-- The debugger after a store, and what this one brings along. -/
def store (d : Debugger C) : Store C → Debugger C × List (Store C)
  | .session => ({ d with session := none }, [])
  | .attached => ({ d with coordinator := { d.coordinator with attached := false } }, [])
  | .uncaught => ({ d with coordinator := { d.coordinator with breakOnUncaught := false } }, [])
  | .console => ({ d with coordinator := { d.coordinator with consoleOutput := false } }, [])
  | .receiver => ({ d with coordinator := { d.coordinator with receiver := none } }, [])
  | .drain =>
    ({ d with coordinator := d.coordinator.drain.2 }, d.coordinator.drain.1.map .release)
  | .release x => ({ d with coordinator := d.coordinator.release x }, [])
  | .steps => ({ d with coordinator := { d.coordinator with steps := ∅ } }, [])
  | .pauses => ({ d with coordinator := { d.coordinator with pauses := ∅ } }, [])
  | .pending => ({ d with coordinator := { d.coordinator with pending := ∅ } }, [])
  | .refresh => ({ d with coordinator := d.coordinator.refresh }, [])
  | .frames => ({ d with frames := d.frames.clear }, [])
  | .pins => ({ d with inspector := { d.inspector with pins := d.inspector.pins.clear } }, [])
  | .handles =>
    ({ d with inspector := { d.inspector with handles := d.inspector.handles.clear } }, [])

end Debugger

namespace Wire

/-- A session in its course. -/
structure Course (C : Type) where
  session : Session
  debugger : Debugger C
  notices : ThreadId → Notice
  /-- What is left of the end of the session, once that has begun. -/
  closing : Option (List (Store C))

/-- What happens next. -/
inductive Section (C : Type) where
  /-- Bytes arrive, perhaps the last ones, and the messages that they complete are reacted to. -/
  | receive (bytes : List UInt8) (ended : Bool) (p : Debugger C → Debuggee)
  | forward
  /-- The next store of the end. -/
  | close
  | touch (x : Touch C)
  /-- A thread is about to announce an exception that nobody handles, and looks whether it stops. -/
  | ask (t : ThreadId) (e : Exception)
  /-- It looks whether a client is there. -/
  | look (t : ThreadId)
  /-- It adds its exception. -/
  | note (t : ThreadId)

/-- Who gets on with an announcement. -/
def Section.announcer? {C : Type} : Section C → Option ThreadId
  | .ask t _ | .look t | .note t => some t
  | _ => none

/-- What the client has its part in. -/
def moves : List (Section C) → List (Move C) :=
  List.filterMap fun
    | .receive bytes ended p => some (.receive bytes ended p)
    | .forward => some .forward
    | _ => none

namespace Course

def start (d : Debugger C) (notices : ThreadId → Notice) : Course C := ⟨.start, d, notices, none⟩

def notice (s : Course C) (t : ThreadId) (n : Notice) : Course C :=
  { s with notices := fun u => if u = t then n else s.notices u }

/-- What is left of the end. -/
def left (s : Course C) : List (Store C) := s.closing.getD []

/-- The loop of the session has returned. -/
def returned (s : Course C) : Bool := s.closing.any List.isEmpty

/-- The end has begun, and `x` is not left of it. -/
def Past (s : Course C) (x : Store C) : Prop := ∃ todo, s.closing = some todo ∧ x ∉ todo

theorem notice_eq_self {s : Course C} {t : ThreadId} {n : Notice} (h : s.notices t = n) :
    s.notice t n = s := by
  have hsame : (fun u => if u = t then n else s.notices u) = s.notices := by
    funext u
    split
    · rename_i hu
      rw [hu, h]
    · rfl
  rw [notice, hsame]

@[simp] theorem notice_notice (s : Course C) (t : ThreadId) (n n' : Notice) :
    (s.notice t n).notice t n' = s.notice t n' := by
  simp only [notice]
  congr 1
  funext u
  split <;> rfl

@[simp] theorem notice_notices_self (s : Course C) (t : ThreadId) (n : Notice) :
    (s.notice t n).notices t = n := if_pos rfl

end Course

end Wire

variable [Context C]

namespace Coordinator

/-- A thread that waits is blocked, so it does not come again. -/
def parks (c : Coordinator C) (h : Halt C) : Bool :=
  !c.isSuspended (Context.thread h.context) && c.attached

def touch (c : Coordinator C) : Touch C → Coordinator C
  | .dropStep t => { c with steps := c.steps.erase t }
  | .dropPause t => { c with pauses := c.pauses.erase t }
  | .dropPending t => { c with pending := c.pending.erase t }
  | .refresh => c.refresh
  | .park h => if c.parks h then (c.park? h.context h.file h.line h.stop).getD c else c
  | .send n => c.notify n
  | .goOn => c.takeReleased.2
  | .reclaim _ | .passTo _ => c

end Coordinator

def Debugger.touch (d : Debugger C) : Touch C → Debugger C
  | .reclaim p => (d.reclaim p).2
  | .passTo time => d.passTo time
  | x => { d with coordinator := d.coordinator.touch x }

namespace Wire.Course

def after (s : Course C) : Section C → Course C
  | .receive bytes ended p =>
    if s.closing.isSome then s
    else
      let (frames, rest, theEnd) := readAll ended (s.session.buffer ++ bytes)
      let (messages, finished, d) := Session.handleAll p frames s.debugger
      let e := conclusion finished theEnd
      { s with
        session := (s.session.conclude d messages.length rest e).1
        debugger := d
        closing := e.map fun _ => Store.all }
  | .forward =>
    let (_, session, debugger) := s.session.forward s.debugger
    { s with session, debugger }
  | .close =>
    match s.closing with
    | some (x :: rest) =>
      let (d, more) := s.debugger.store x
      { s with debugger := d, closing := some (more ++ rest) }
    | _ => s
  | .touch x => { s with debugger := s.debugger.touch x }
  | .ask t e =>
    match s.notices t with
    | .none => if s.debugger.coordinator.breakOnUncaught then s.notice t (.asked e) else s
    | _ => s
  | .look t =>
    match s.notices t with
    | .asked e => s.notice t (if s.debugger.coordinator.attached then .due e else .none)
    | _ => s
  | .note t =>
    match s.notices t with
    | .due e => { s with debugger := s.debugger.pend t e }.notice t .none
    | _ => s

def run (s : Course C) (ms : List (Section C)) : Course C := ms.foldl after s

theorem run_append (s : Course C) (ms later : List (Section C)) :
    s.run (ms ++ later) = (s.run ms).run later := List.foldl_append

/-! ## Hooks that are left to themselves -/

theorem run_touches (s : Course C) (xs : List (Touch C)) :
    s.run (xs.map .touch) = { s with debugger := xs.foldl Debugger.touch s.debugger } := by
  induction xs generalizing s with
  | nil => rfl
  | cons x xs ih => exact ih (s.after (.touch x))

theorem exists_touches_suspend (d : Debugger C) {ctx : C} (file : String) (line : Nat) (stop : Stop)
    (hfree : d.coordinator.isSuspended (Context.thread ctx) = false) :
    ∃ xs : List (Touch C), xs.foldl Debugger.touch d =
      { d with coordinator := (d.coordinator.suspend ctx file line stop).2 } := by
  let t := Context.thread ctx
  cases hattached : d.coordinator.attached with
  | true =>
    refine ⟨[.dropStep t, .dropPause t, .refresh, .park ⟨ctx, file, line, stop⟩,
      .send (stop.notification t)], ?_⟩
    have hparks : (d.coordinator.satisfy t).parks ⟨ctx, file, line, stop⟩ = true := by
      rw [Coordinator.parks, show (d.coordinator.satisfy t).attached = true from hattached,
        show (d.coordinator.satisfy t).isSuspended (Context.thread ctx) = false from hfree]
      rfl
    have hpark : (d.coordinator.satisfy t).park? ctx file line stop =
        some (d.coordinator.parked ctx file line stop) := if_pos hattached
    have htouch : (d.coordinator.satisfy t).touch (.park ⟨ctx, file, line, stop⟩) =
        d.coordinator.parked ctx file line stop := by
      rw [Coordinator.touch, if_pos hparks, hpark, Option.getD_some]
    rw [Coordinator.suspend_of_attached hattached, ← htouch]
    rfl
  | false =>
    refine ⟨[.dropStep t, .dropPause t, .refresh], ?_⟩
    rw [Coordinator.suspend_of_detached hattached]
    rfl

theorem exists_touches_report (d : Debugger C) (ctx : C) (r : Report) :
    ∃ xs : List (Touch C), xs.foldl Debugger.touch d = d.meet (.report ctx r) := by
  rw [Debugger.meet, Debugger.undergo]
  split
  · exact ⟨[], rfl⟩
  · rename_i hfree
    have hfree : d.coordinator.isSuspended (Context.thread ctx) = false := Bool.eq_false_iff.mpr hfree
    have hafter : d.after (.report ctx r) =
        { d with coordinator := (d.coordinator.hear ctx r).2 } := rfl
    rw [hafter]
    rcases Coordinator.hear_cases d.coordinator ctx r with hhear | ⟨stop, c, hdecided, hhear⟩
    · rw [hhear]
      exact ⟨[], rfl⟩
    · rw [hhear]
      -- What the decision uses up comes first, then the way into the table.
      cases hdecided with
      | nothing => exact exists_touches_suspend d _ _ stop hfree
      | pause target =>
        obtain ⟨xs, hxs⟩ := exists_touches_suspend
          (([.dropPause target, .refresh] : List (Touch C)).foldl Debugger.touch d)
          r.file r.lineNumber stop hfree
        exact ⟨.dropPause target :: .refresh :: xs, hxs⟩
      | exception t =>
        obtain ⟨xs, hxs⟩ := exists_touches_suspend
          (([.dropPending t, .refresh] : List (Touch C)).foldl Debugger.touch d)
          r.file r.lineNumber stop hfree
        exact ⟨.dropPending t :: .refresh :: xs, hxs⟩

theorem meet_announce (d : Debugger C) (t : ThreadId) (e : Exception) :
    d.meet (.announce t e false) =
      if d.coordinator.stopsOnUncaught then (d.pend t e).touch .refresh else d := by
  change { d with coordinator := (d.coordinator.announce t e false).2 } = _
  rw [Coordinator.announce, Bool.false_or]
  cases d.coordinator.stopsOnUncaught <;> rfl

/-- An announcement that is not disturbed. -/
theorem announce_alone (s : Course C) {t : ThreadId} (e : Exception)
    (hidle : s.notices t = .none) :
    ∃ ms, s.run ms = { s with debugger := s.debugger.meet (.announce t e false) } := by
  have hidle' : s.notice t .none = s := notice_eq_self hidle
  rw [meet_announce, Coordinator.stopsOnUncaught]
  by_cases huncaught : s.debugger.coordinator.breakOnUncaught = true
  · have hask : s.after (.ask t e) = s.notice t (.asked e) := by
      simp only [after, hidle, huncaught, if_true]
    have hlook : (s.notice t (.asked e)).after (.look t) =
        s.notice t (if s.debugger.coordinator.attached then .due e else .none) := by
      simp only [after, notice_notices_self, notice_notice]
      rfl
    rw [huncaught, Bool.true_and]
    by_cases hattached : s.debugger.coordinator.attached = true
    · rw [if_pos hattached] at hlook ⊢
      have hnote : (s.notice t (.due e)).after (.note t) =
          { s with debugger := s.debugger.pend t e } := by
        simp only [after, notice_notices_self]
        change ({ s with debugger := s.debugger.pend t e }.notice t (.due e)).notice t .none = _
        rw [notice_notice]
        exact notice_eq_self hidle
      refine ⟨[.ask t e, .look t, .note t, .touch .refresh], ?_⟩
      rw [run, List.foldl_cons, List.foldl_cons, List.foldl_cons, hask, hlook, hnote]
      rfl
    · rw [if_neg hattached] at hlook ⊢
      refine ⟨[.ask t e, .look t], ?_⟩
      rw [run, List.foldl_cons, List.foldl_cons, hask, hlook]
      exact hidle'
  · rw [Bool.not_eq_true] at huncaught
    rw [huncaught]
    exact ⟨[], rfl⟩

/-- Whatever happens in one piece is made up of sections. -/
theorem meet_alone (s : Course C) (hidle : ∀ t, s.notices t = .none) (i : Incident C) :
    ∃ ms, s.run ms = { s with debugger := s.debugger.meet i } := by
  have htouches : (∃ xs : List (Touch C), xs.foldl Debugger.touch s.debugger = s.debugger.meet i) →
      ∃ ms, s.run ms = { s with debugger := s.debugger.meet i } := by
    rintro ⟨xs, hxs⟩
    refine ⟨xs.map .touch, ?_⟩
    rw [run_touches, hxs]
  cases i with
  | report ctx r => exact htouches (exists_touches_report s.debugger ctx r)
  | announce t e caught =>
    cases caught with
    | true => exact htouches ⟨[], rfl⟩
    | false => exact announce_alone s e (hidle t)
  | exited t =>
    apply htouches
    rw [show s.debugger.meet (.exited t) =
      { s.debugger with coordinator := s.debugger.coordinator.exited t } from rfl,
      Coordinator.exited]
    split
    · exact ⟨[.dropStep t, .dropPause t, .dropPending t, .refresh], rfl⟩
    · exact ⟨[], rfl⟩
  | output text isError =>
    apply htouches
    rw [show s.debugger.meet (.output text isError) =
      { s.debugger with coordinator := s.debugger.coordinator.output text isError } from rfl,
      Coordinator.output]
    split
    · exact ⟨[.send (.output text isError)], rfl⟩
    · exact ⟨[], rfl⟩
  | reclaim p => exact htouches ⟨[.reclaim p], rfl⟩
  | passTo time => exact htouches ⟨[.passTo time], rfl⟩
  | goOn => exact htouches ⟨[.goOn], rfl⟩

/-! ## The end that is left to itself -/

theorem run_releases (s : Course C) (waiting : List (Suspension C)) (rest : List (Store C))
    (hclosing : s.closing = some (waiting.map .release ++ rest)) :
    s.run (List.replicate waiting.length .close) =
      { s with
        debugger := { s.debugger with
          coordinator := waiting.foldl Coordinator.release s.debugger.coordinator }
        closing := some rest } := by
  induction waiting generalizing s with
  | nil =>
    cases s
    cases hclosing
    rfl
  | cons x waiting ih =>
    have hafter : s.after .close =
        { s with
          debugger := { s.debugger with coordinator := s.debugger.coordinator.release x }
          closing := some (waiting.map .release ++ rest) } := by
      simp only [after, hclosing, List.map_cons, List.cons_append]
      rfl
    rw [List.length_cons, List.replicate_succ, run, List.foldl_cons, hafter]
    exact ih _ rfl

theorem close_alone (s : Course C) (hclosing : s.closing = some Store.all) :
    ∃ n, s.run (List.replicate n .close) =
      { s with debugger := s.debugger.detach, closing := some [] } := by
  let c : Coordinator C := { s.debugger.coordinator with
    attached := false, breakOnUncaught := false, consoleOutput := false, receiver := none }
  let rest : List (Store C) := [.steps, .pauses, .pending, .refresh, .frames, .pins, .handles]
  let s₁ : Course C := { s with
    debugger := { s.debugger with session := none, coordinator := c.drain.2 }
    closing := some (c.drain.1.map .release ++ rest) }
  have hdrain : s.run (List.replicate 6 .close) = s₁ := by
    simp [run, after, Debugger.store, hclosing, s₁, c, rest, List.replicate, Store.all]
  refine ⟨6 + (c.drain.1.length + 7), ?_⟩
  rw [List.replicate_add, List.replicate_add, run_append, run_append, hdrain,
    run_releases s₁ c.drain.1 rest rfl]
  simp [run, after, Debugger.store, s₁, c, rest, List.replicate, Debugger.detach, Coordinator.detach,
    Coordinator.resumeAll, Coordinator.drain, Inspector.clear]

theorem after_receive {s : Course C} (hopen : s.closing = none) (bytes : List UInt8) (ended : Bool)
    (p : Debugger C → Debuggee) :
    let read := readAll ended (s.session.buffer ++ bytes)
    let done := Session.handleAll p read.1 s.debugger
    let e := conclusion done.2.1 read.2.2
    s.after (.receive bytes ended p) =
      { s with
        session := (s.session.conclude done.2.2 done.1.length read.2.1 e).1
        debugger := done.2.2
        closing := e.map fun _ => Store.all } := by
  intro read done e
  rw [after, hopen, Option.isSome_none, if_neg Bool.false_ne_true]

/-- A piece of the stream together with the end that it may bring. -/
theorem receive_alone (s : Course C) (hopen : s.closing = none) (bytes : List UInt8) (ended : Bool)
    (p : Debugger C → Debuggee) :
    ∃ n, let s' := s.run (.receive bytes ended p :: List.replicate n .close)
      (s'.session, s'.debugger) = (s.session.receive s.debugger p bytes ended).2 := by
  have hafter := after_receive hopen bytes ended p
  have hrun : ∀ n, s.run (.receive bytes ended p :: List.replicate n .close) =
      (s.after (.receive bytes ended p)).run (List.replicate n .close) := fun _ => rfl
  simp only [receive_eq, hrun]
  dsimp only at hafter
  cases he : conclusion _ _ with
  | none =>
    rw [he] at hafter
    refine ⟨0, ?_⟩
    rw [hafter]
    rfl
  | some e =>
    rw [he] at hafter
    obtain ⟨n, hn⟩ := close_alone (s.after (.receive bytes ended p)) (congrArg closing hafter)
    refine ⟨n, ?_⟩
    rw [hn, hafter]
    rfl

/-! ## Along a course -/

section
variable {β : Type}

/-- What is noted of one section: of every message that is reacted to, and of every touch. -/
def notedAt (f : Debugger C → Debuggee → Received → List β) (g : Debugger C → Touch C → List β)
    (s : Course C) : Section C → List β
  | .receive bytes ended p =>
    if s.closing.isSome then []
    else notedOf f p (readAll ended (s.session.buffer ++ bytes)).1 s.debugger
  | .touch x => g s.debugger x
  | .forward | .close | .ask _ _ | .look _ | .note _ => []

def noted (f : Debugger C → Debuggee → Received → List β) (g : Debugger C → Touch C → List β)
    (s : Course C) : List (Section C) → List β
  | [] => []
  | m :: ms => s.notedAt f g m ++ noted f g (s.after m) ms

section
variable {P : Debugger C → Option (List (Store C)) → List β → Prop}
  {f : Debugger C → Debuggee → Received → List β} {g : Debugger C → Touch C → List β}

theorem noted_receive
    (hreact : ∀ d p m l, P d none l → P (react d p m).debugger none (l ++ f d p m))
    (hend : ∀ d l, P d none l → P d (some Store.all) l) {s : Course C} {l : List β}
    (h : P s.debugger s.closing l) (bytes : List UInt8) (ended : Bool)
    (p : Debugger C → Debuggee) :
    let s' := s.after (.receive bytes ended p)
    P s'.debugger s'.closing (l ++ s.notedAt f g (.receive bytes ended p)) := by
  intro s'
  cases hclosing : s.closing with
  | some todo =>
    have hs' : s' = s := by
      simp only [s', after, hclosing, Option.isSome_some, if_true]
    rw [notedAt, hclosing, Option.isSome_some, if_pos rfl, List.append_nil, hs']
    exact h
  | none =>
    rw [hclosing] at h
    have hall := handleAll_noted (P := fun d l => P d none l) hreact p
      (readAll ended (s.session.buffer ++ bytes)).1 h
    have hs' := after_receive hclosing bytes ended p
    dsimp only at hs'
    rw [notedAt, hclosing, Option.isSome_none, if_neg Bool.false_ne_true]
    simp only [s', hs']
    -- However the piece ends, what has been noted stands, and at most the end begins.
    generalize conclusion _ _ = e
    cases e with
    | none => exact hall
    | some e => exact hend _ _ hall

/-- What reactions, touches and the stores of the end keep between a debugger, what is left of the
end and the notes, a course keeps. -/
theorem noted_run
    (hreact : ∀ d p m l, P d none l → P (react d p m).debugger none (l ++ f d p m))
    (hend : ∀ d l, P d none l → P d (some Store.all) l)
    (hstore : ∀ d x todo l, P d (some (x :: todo)) l →
      P (d.store x).1 (some ((d.store x).2 ++ todo)) l)
    (htouch : ∀ d x o l, P d o l → P (d.touch x) o (l ++ g d x))
    (hpend : ∀ d t e o l, P d o l → P (d.pend t e) o l)
    (hforward : ∀ d o l, P d o l → P { d with coordinator := d.coordinator.takeOutbox.2 } o l)
    {s : Course C} {l : List β} (h : P s.debugger s.closing l) (ms : List (Section C)) :
    P (s.run ms).debugger (s.run ms).closing (l ++ noted f g s ms) := by
  induction ms generalizing s l with
  | nil =>
    rw [noted, List.append_nil]
    exact h
  | cons m ms ih =>
    rw [noted, ← List.append_assoc]
    apply ih
    cases m with
    | receive bytes ended p => exact noted_receive hreact hend h bytes ended p
    | touch x => exact htouch s.debugger x s.closing l h
    | forward =>
      rw [notedAt, List.append_nil]
      exact hforward s.debugger s.closing l h
    | close =>
      rw [notedAt, List.append_nil, after]
      split
      · rename_i x rest hclosing
        rw [hclosing] at h
        exact hstore s.debugger x rest l h
      · exact h
    | ask t e =>
      rw [notedAt, List.append_nil, after]
      split
      · split <;> exact h
      · exact h
    | look t =>
      rw [notedAt, List.append_nil, after]
      split <;> exact h
    | note t =>
      rw [notedAt, List.append_nil, after]
      split
      · exact hpend s.debugger t _ s.closing l h
      · exact h

/-- The same without notes. -/
theorem run_keeps {P : Debugger C → Option (List (Store C)) → Prop}
    (hreact : ∀ d p m, P d none → P (react d p m).debugger none)
    (hend : ∀ d, P d none → P d (some Store.all))
    (hstore : ∀ d x todo, P d (some (x :: todo)) → P (d.store x).1 (some ((d.store x).2 ++ todo)))
    (htouch : ∀ d x o, P d o → P (d.touch x) o)
    (hpend : ∀ d t e o, P d o → P (d.pend t e) o)
    (hforward : ∀ d o, P d o → P { d with coordinator := d.coordinator.takeOutbox.2 } o)
    {s : Course C} (h : P s.debugger s.closing) (ms : List (Section C)) :
    P (s.run ms).debugger (s.run ms).closing :=
  noted_run (β := Unit) (P := fun d o _ => P d o) (f := fun _ _ _ => []) (g := fun _ _ => []) (l := [])
    (fun d p m _ => hreact d p m) (fun d _ => hend d) (fun d x todo _ => hstore d x todo)
    (fun d x o _ => htouch d x o) (fun d t e o _ => hpend d t e o) (fun d o _ => hforward d o) h ms

end

end

end Wire.Course

end DebugAdapter
