import DebugAdapter.Proofs.Debugger.Setup
import DebugAdapter.Proofs.Wire.Reactions
import DebugAdapter.Proofs.Wire.Stream

/-!
# Sessions as they go on

While a client's bytes arrive in pieces, events are sent and the debuggee goes on, in any order. What
is of interest on the way is noted by one traversal (`noted`), of every message that is reacted to and
of everything that happens in the debuggee, in the state in which it comes. `noted_run` proves what
holds between a debugger and such notes from the single reactions.

Which messages are reacted to and how the session ends depends on the bytes and the options alone
(`heard_run`, `ending_run`), however the bytes are cut.
-/

namespace DebugAdapter

/-- What goes on in the debuggee and around it. -/
inductive Incident (C : Type) where
  | report (ctx : C) (r : Report)
  | announce (t : ThreadId) (e : Exception) (caught : Bool)
  | exited (t : ThreadId)
  | output (text : String) (isError : Bool)
  /-- Handles of values that are gone are taken out from time to time. -/
  | reclaim (p : Debuggee)
  | passTo (time : Nat)
  /-- Released threads go on. -/
  | goOn

/-- A thread that waits is blocked, so nothing is heard of it. -/
def Debugger.meet {C : Type} [Context C] (d : Debugger C) : Incident C → Debugger C
  | .report ctx r => d.undergo (.event (.report ctx r))
  | .announce t e caught => d.after (.announce t e caught)
  | .exited t => d.after (.exited t)
  | .output text isError => d.after (.output text isError)
  | .reclaim p => d.after (.reclaim p)
  | .passTo time => d.passTo time
  | .goOn => { d with coordinator := d.coordinator.takeReleased.2 }

namespace Wire

/-- A session and the debugger that it is with. -/
structure Service (C : Type) where
  session : Session
  debugger : Debugger C

/-- What happens next, as far as the session is concerned. -/
inductive Move (C : Type) where
  /-- Bytes arrive, perhaps the last ones. -/
  | receive (bytes : List UInt8) (ended : Bool) (p : Debugger C → Debuggee)
  | forward
  | incident (i : Incident C)

/-- All that the client sends. -/
def stream {C : Type} : List (Move C) → List UInt8 × Bool
  | [] => ([], false)
  | .receive bytes true _ :: _ => (bytes, true)
  | .receive bytes false _ :: ms => (bytes ++ (stream ms).1, (stream ms).2)
  | .forward :: ms | .incident _ :: ms => stream ms

/-- The frames that a client sends, as far as they can be read. -/
def received {C : Type} (ms : List (Move C)) : List Received :=
  (readAll (stream ms).2 (stream ms).1).1

/-- The elements up to the first one that satisfies `q`, this one included. -/
def upTo {α : Type} (q : α → Bool) : List α → List α
  | [] => []
  | a :: rest => if q a then [a] else a :: upTo q rest

theorem upTo_append {α : Type} (q : α → Bool) (as bs : List α) :
    upTo q (as ++ bs) = if as.any q then upTo q as else as ++ upTo q bs := by
  induction as with
  | nil => rfl
  | cons a as ih =>
    rw [List.cons_append, upTo, upTo, List.any_cons]
    cases hq : q a with
    | true => rfl
    | false =>
      rw [ih]
      cases as.any q <;> rfl

theorem upTo_eq_self {α : Type} {q : α → Bool} {as : List α} (h : as.any q = false) :
    upTo q as = as := by
  have happend := upTo_append q as []
  rw [List.append_nil, h] at happend
  exact happend.trans (List.append_nil as)

theorem upTo_subset {α : Type} (q : α → Bool) (as : List α) : upTo q as ⊆ as := by
  induction as with
  | nil => exact List.Subset.refl _
  | cons a as ih =>
    rw [upTo]
    split
    · exact List.cons_subset_cons a (List.nil_subset as)
    · exact List.cons_subset_cons a ih

variable {C : Type} [Context C]

namespace Service

def start (d : Debugger C) : Service C := ⟨.start, d⟩

/-- Nothing is read any more after the session has ended. -/
def after (s : Service C) : Move C → Service C
  | .receive bytes ended p =>
    if s.session.ending.isSome then s
    else
      let (_, session, debugger) := s.session.receive s.debugger p bytes ended
      ⟨session, debugger⟩
  | .forward =>
    let (_, session, debugger) := s.session.forward s.debugger
    ⟨session, debugger⟩
  | .incident i => { s with debugger := s.debugger.meet i }

def run (s : Service C) (ms : List (Move C)) : Service C := ms.foldl after s

def output (s : Service C) : Move C → List Json
  | .receive bytes ended p =>
    if s.session.ending.isSome then [] else (s.session.receive s.debugger p bytes ended).1
  | .forward => (s.session.forward s.debugger).1
  | .incident _ => []

/-- What is sent to the client along a session. -/
def written (s : Service C) : List (Move C) → List Json
  | [] => []
  | m :: ms => s.output m ++ (s.after m).written ms

end Service

section
variable {β : Type}

def notedOf (f : Debugger C → Debuggee → Received → List β) (p : Debugger C → Debuggee) :
    List Received → Debugger C → List β
  | [], _ => []
  | m :: rest, d =>
    f d (p d) m ++
      if (react d (p d) m).finished then [] else notedOf f p rest (react d (p d) m).debugger

/-- What is noted along a session. -/
def noted (f : Debugger C → Debuggee → Received → List β) (g : Debugger C → Incident C → List β)
    (s : Service C) : List (Move C) → List β
  | [] => []
  | .receive bytes ended p :: ms =>
    (if s.session.ending.isSome then []
      else notedOf f p (readAll ended (s.session.buffer ++ bytes)).1 s.debugger) ++
      noted f g (s.after (.receive bytes ended p)) ms
  | .forward :: ms => noted f g (s.after .forward) ms
  | .incident i :: ms => g s.debugger i ++ noted f g (s.after (.incident i)) ms

end

/-- The messages that are reacted to. -/
def handled (s : Service C) (ms : List (Move C)) : List Received :=
  noted (fun _ _ m => [m]) (fun _ _ => []) s ms

/-! ## A piece of the stream -/

theorem handleAll_messages (p : Debugger C → Debuggee) (frames : List Received) (d : Debugger C) :
    (Session.handleAll p frames d).1 = notedOf (fun d p m => (react d p m).messages) p frames d := by
  induction frames generalizing d with
  | nil => rfl
  | cons m frames ih =>
    rw [Session.handleAll, notedOf]
    cases hfinished : (react d (p d) m).finished with
    | true => exact (List.append_nil _).symm
    | false => exact congrArg ((react d (p d) m).messages ++ ·) (ih _)

theorem react_options (d : Debugger C) (p : Debuggee) (m : Received) :
    (react d p m).debugger.options = d.options := by
  refine react_keeps (P := fun d' => d'.options = d.options) ?_ rfl p
  intro d' e _ hd'
  exact (Debugger.after_options d' e).trans hd'

theorem handleAll_finished (p : Debugger C → Debuggee) (frames : List Received) (d : Debugger C) :
    (Session.handleAll p frames d).2.1 = frames.any (ends d.options) := by
  induction frames generalizing d with
  | nil => rfl
  | cons m frames ih =>
    rw [Session.handleAll, List.any_cons, ← react_finished d (p d) m]
    cases hfinished : (react d (p d) m).finished with
    | true => rfl
    | false =>
      rw [← react_options d (p d) m]
      exact ih _

theorem notedOf_self (p : Debugger C → Debuggee) (frames : List Received) (d : Debugger C) :
    notedOf (fun _ _ m => [m]) p frames d = upTo (ends d.options) frames := by
  induction frames generalizing d with
  | nil => rfl
  | cons m frames ih =>
    rw [notedOf, upTo, react_finished, ih, react_options]
    cases ends d.options m <;> rfl

/-- What reactions keep, reading keeps. -/
theorem handleAll_noted {β : Type} {P : Debugger C → List β → Prop}
    {f : Debugger C → Debuggee → Received → List β}
    (hreact : ∀ d p m l, P d l → P (react d p m).debugger (l ++ f d p m))
    (p : Debugger C → Debuggee) (frames : List Received) {d : Debugger C} {l : List β} (h : P d l) :
    P (Session.handleAll p frames d).2.2 (l ++ notedOf f p frames d) := by
  induction frames generalizing d l with
  | nil =>
    rw [notedOf, List.append_nil]
    exact h
  | cons m frames ih =>
    have hm := hreact d (p d) m l h
    rw [Session.handleAll, notedOf]
    cases hfinished : (react d (p d) m).finished with
    | true =>
      simp only [if_true, List.append_nil]
      exact hm
    | false =>
      rw [← List.append_assoc]
      exact ih hm

/-- How a session ends that has been told to, or whose stream has. -/
def conclusion (finished : Bool) (theEnd : Option StreamEnd) : Option (Except FrameError Unit) :=
  if finished then some (.ok ())
  else
    theEnd.map fun
      | .closed => .ok ()
      | .failed e => .error e

/-- What is left of a piece whose messages have been reacted to. -/
def Session.conclude (s : Session) (d : Debugger C) (count : Nat) (rest : List UInt8) :
    Option (Except FrameError Unit) → Session × Debugger C
  | none => ({ s with sent := s.sent + count, buffer := rest }, d)
  | some e => (⟨s.sent + count, [], some e⟩, d.detach)

theorem receive_eq (s : Session) (d : Debugger C) (p : Debugger C → Debuggee) (bytes : List UInt8)
    (ended : Bool) :
    let read := readAll ended (s.buffer ++ bytes)
    let done := Session.handleAll p read.1 d
    s.receive d p bytes ended =
      (s.number done.1,
        s.conclude done.2.2 done.1.length read.2.1 (conclusion done.2.1 read.2.2)) := by
  unfold Session.receive
  obtain ⟨frames, rest, theEnd⟩ := readAll ended (s.buffer ++ bytes)
  dsimp only
  obtain ⟨messages, finished, d'⟩ := Session.handleAll p frames d
  cases finished with
  | true => rfl
  | false =>
    cases theEnd with
    | none => rfl
    | some theEnd => cases theEnd <;> rfl

theorem after_receive {s : Service C} (hopen : s.session.ending = none) (bytes : List UInt8)
    (ended : Bool) (p : Debugger C → Debuggee) :
    let read := readAll ended (s.session.buffer ++ bytes)
    let done := Session.handleAll p read.1 s.debugger
    let left := s.session.conclude done.2.2 done.1.length read.2.1
      (conclusion done.2.1 read.2.2)
    s.after (.receive bytes ended p) = ⟨left.1, left.2⟩ := by
  intro read done left
  rw [Service.after, hopen, Option.isSome_none, if_neg Bool.false_ne_true, receive_eq]

theorem after_receive_of_ended {s : Service C} {e : Except FrameError Unit}
    (hended : s.session.ending = some e) (bytes : List UInt8) (ended : Bool)
    (p : Debugger C → Debuggee) : s.after (.receive bytes ended p) = s := by
  rw [Service.after, hended, Option.isSome_some, if_pos rfl]

/-! ## Along a session -/

/-- What reactions, incidents, the sending of events and the end of a session keep between a
debugger and the notes, a session keeps. -/
theorem noted_run {β : Type} {P : Debugger C → List β → Prop}
    {f : Debugger C → Debuggee → Received → List β} {g : Debugger C → Incident C → List β}
    (hreact : ∀ d p m l, P d l → P (react d p m).debugger (l ++ f d p m))
    (hmeet : ∀ d i l, P d l → P (d.meet i) (l ++ g d i))
    (hforward : ∀ d l, P d l → P { d with coordinator := d.coordinator.takeOutbox.2 } l)
    (hdetach : ∀ d l, P d l → P d.detach l) {s : Service C} {l : List β} (h : P s.debugger l)
    (ms : List (Move C)) : P (s.run ms).debugger (l ++ noted f g s ms) := by
  induction ms generalizing s l with
  | nil =>
    rw [noted, List.append_nil]
    exact h
  | cons move ms ih =>
    cases move with
    | forward => exact ih (hforward s.debugger l h)
    | incident i =>
      rw [noted, ← List.append_assoc]
      exact ih (hmeet s.debugger i l h)
    | receive bytes ended p =>
      rw [noted, ← List.append_assoc]
      apply ih
      cases hending : s.session.ending with
      | some e =>
        rw [after_receive_of_ended hending, Option.isSome_some, if_pos rfl, List.append_nil]
        exact h
      | none =>
        rw [after_receive hending]
        have hall := handleAll_noted hreact p (readAll ended (s.session.buffer ++ bytes)).1 h
        -- However the piece ends, at most a detach follows on its reactions.
        generalize conclusion _ _ = e
        cases e with
        | none => exact hall
        | some e => exact hdetach _ _ hall

theorem noted_append {β : Type} {f : Debugger C → Debuggee → Received → List β}
    {g : Debugger C → Incident C → List β} (s : Service C) (ms ms' : List (Move C)) :
    noted f g s (ms ++ ms') = noted f g s ms ++ noted f g (s.run ms) ms' := by
  induction ms generalizing s with
  | nil => rfl
  | cons move ms ih =>
    cases move with
    | forward => exact ih _
    | incident i | receive bytes ended p =>
      rw [List.cons_append, noted, noted, ih, List.append_assoc]
      rfl

theorem handled_of_ended {s : Service C} {e : Except FrameError Unit}
    (hended : s.session.ending = some e) (ms : List (Move C)) :
    handled s ms = [] ∧ (s.run ms).session.ending = some e := by
  induction ms generalizing s with
  | nil => exact ⟨rfl, hended⟩
  | cons move ms ih =>
    cases move with
    | forward => exact ih hended
    | incident i => exact ih hended
    | receive bytes ended p =>
      have hsame := after_receive_of_ended hended bytes ended p
      obtain ⟨hhandled, hending⟩ := ih hended
      constructor
      · rw [handled, noted, hended, hsame]
        exact hhandled
      · change ((s.after (.receive bytes ended p)).run ms).session.ending = _
        rw [hsame]
        exact hending

/-! ## The whole stream -/

/-- What is left behind decides nothing. -/
def Session.Stuck (s : Session) : Prop := readAll false s.buffer = ([], s.buffer, none)

theorem readAll_rest {bytes : List UInt8} (h : (readAll false bytes).2.2 = none) :
    readAll false (readAll false bytes).2.1 = ([], (readAll false bytes).2.1, none) := by
  induction bytes using frames_induction false with
  | step bytes ih =>
    have hread := readAll_eq false bytes
    cases hframe : readFrame false bytes with
    | pending =>
      simp only [hframe] at hread
      rw [hread]
      exact hread
    | closed => exact absurd hframe (readFrame_ne_closed bytes)
    | failed =>
      simp only [hframe] at hread
      rw [hread] at h
      contradiction
    | frame body rest =>
      simp only [hframe] at hread
      rw [hread] at h ⊢
      exact ih body rest hframe h

/-- What the debuggee does by itself. -/
def ofDebuggee : Debugger.Event C → Bool
  | .report _ _ | .announce _ _ _ | .exited _ | .output _ _ | .reclaim _ => true
  | _ => false

/-- What everything that the debuggee does keeps, whatever is taken over and however late it is, an
incident keeps. -/
theorem meet_keeps {P : Debugger C → Prop}
    (step : ∀ (d : Debugger C) e, ofDebuggee e = true → P d → P (d.after e))
    (hand : ∀ (d : Debugger C) released now, P d →
      P { d with
        coordinator := { d.coordinator with released }, inspector := { d.inspector with now } })
    {d : Debugger C} (h : P d) (i : Incident C) : P (d.meet i) := by
  cases i with
  | report ctx r =>
    rw [Debugger.meet, Debugger.undergo]
    split
    · exact h
    · exact step d _ rfl h
  | announce t e caught => exact step d (.announce t e caught) rfl h
  | exited t => exact step d (.exited t) rfl h
  | output text isError => exact step d (.output text isError) rfl h
  | reclaim p => exact step d (.reclaim p) rfl h
  | passTo time => exact hand d d.coordinator.released time h
  | goOn => exact hand d [] d.inspector.now h

theorem meet_options (d : Debugger C) (i : Incident C) : (d.meet i).options = d.options := by
  refine meet_keeps (P := fun d' => d'.options = d.options) ?_ ?_ rfl i
  · intro d' e _ hd'
    exact (Debugger.after_options d' e).trans hd'
  · intro d' released now hd'
    exact hd'

theorem handleAll_options (p : Debugger C → Debuggee) (frames : List Received) (d : Debugger C) :
    (Session.handleAll p frames d).2.2.options = d.options := by
  refine handleAll_noted (P := fun d' (_ : List Unit) => d'.options = d.options)
    (f := fun _ _ _ => []) ?_ p frames (l := []) ?_
  · intro d' p m _ hd'
    exact (react_options d' p m).trans hd'
  · rfl

theorem handled_receive {s : Service C} (hopen : s.session.ending = none) (bytes : List UInt8)
    (ended : Bool) (p : Debugger C → Debuggee) (ms : List (Move C)) :
    handled s (.receive bytes ended p :: ms) =
      upTo (ends s.debugger.options) (readAll ended (s.session.buffer ++ bytes)).1 ++
        handled (s.after (.receive bytes ended p)) ms := by
  rw [handled, noted, hopen, Option.isSome_none, if_neg Bool.false_ne_true, notedOf_self]
  rfl

section
variable {s : Service C} {bytes : List UInt8} {ended : Bool} {p : Debugger C → Debuggee}

/-- A piece that ends the session is the last one that is read. -/
theorem handled_receive_last (hopen : s.session.ending = none) {e : Except FrameError Unit}
    (hlast : conclusion ((readAll ended (s.session.buffer ++ bytes)).1.any (ends s.debugger.options))
      (readAll ended (s.session.buffer ++ bytes)).2.2 = some e) (ms : List (Move C)) :
    handled s (.receive bytes ended p :: ms) =
        upTo (ends s.debugger.options) (readAll ended (s.session.buffer ++ bytes)).1 ∧
      (s.run (.receive bytes ended p :: ms)).session.ending = some e := by
  have hafter := after_receive hopen bytes ended p
  simp only [handleAll_finished, hlast, Session.conclude] at hafter
  have hended : (s.after (.receive bytes ended p)).session.ending = some e := by rw [hafter]
  obtain ⟨hnothing, hstays⟩ := handled_of_ended hended ms
  constructor
  · rw [handled_receive hopen, hnothing, List.append_nil]
  · exact hstays

theorem after_receive_open (hopen : s.session.ending = none)
    (hgoes : conclusion ((readAll ended (s.session.buffer ++ bytes)).1.any (ends s.debugger.options))
      (readAll ended (s.session.buffer ++ bytes)).2.2 = none) :
    (s.after (.receive bytes ended p)).session.ending = none ∧
      (s.after (.receive bytes ended p)).session.buffer =
        (readAll ended (s.session.buffer ++ bytes)).2.1 ∧
      (s.after (.receive bytes ended p)).debugger.options = s.debugger.options := by
  have hafter := after_receive hopen bytes ended p
  simp only [handleAll_finished, hgoes, Session.conclude] at hafter
  rw [hafter]
  exact ⟨hopen, rfl, handleAll_options p _ _⟩

end

theorem conclusion_eq_none_iff {finished : Bool} {theEnd : Option StreamEnd} :
    conclusion finished theEnd = none ↔ finished = false ∧ theEnd = none := by
  cases finished <;> cases theEnd <;> simp [conclusion]

/-- What follows on the piece that ends a session does not matter. -/
theorem last_piece {q : Received → Bool} {a : List UInt8} (ended : Bool) (b : List UInt8)
    (hlast : (conclusion ((readAll false a).1.any q) (readAll false a).2.2).isSome = true) :
    upTo q (readAll false a).1 = upTo q (readAll ended (a ++ b)).1 ∧
      conclusion ((readAll false a).1.any q) (readAll false a).2.2 =
        conclusion ((readAll ended (a ++ b)).1.any q) (readAll ended (a ++ b)).2.2 := by
  cases hend : (readAll false a).2.2 with
  | some theEnd =>
    obtain ⟨hframes, hsame⟩ := readAll_append_of_failed ended b hend
    rw [hframes, hsame]
    exact ⟨rfl, rfl⟩
  | none =>
    have hany : (readAll false a).1.any q = true := by
      cases hany : (readAll false a).1.any q with
      | true => rfl
      | false =>
        rw [hend, hany] at hlast
        contradiction
    rw [readAll_append ended b hend, upTo_append, List.any_append, hany]
    exact ⟨rfl, rfl⟩

/-- However the stream is cut and whatever happens meanwhile: its messages are reacted to up to the
first one that ends the session, and the session ends with that message or with the stream. -/
theorem handled_run {s : Service C} (hopen : s.session.ending = none) (hstuck : s.session.Stuck)
    (ms : List (Move C)) :
    let read := readAll (stream ms).2 (s.session.buffer ++ (stream ms).1)
    handled s ms = upTo (ends s.debugger.options) read.1 ∧
      (s.run ms).session.ending =
        conclusion (read.1.any (ends s.debugger.options)) read.2.2 := by
  induction ms generalizing s with
  | nil =>
    intro read
    have hread : read = ([], s.session.buffer, none) := by
      simp only [read, stream, List.append_nil]
      exact hstuck
    rw [hread]
    exact ⟨rfl, hopen⟩
  | cons move ms ih =>
    cases move with
    | forward => exact ih hopen hstuck
    | incident i =>
      have hrest := ih (s := s.after (.incident i)) hopen hstuck
      have hoptions : (s.after (.incident i)).debugger.options = s.debugger.options :=
        meet_options s.debugger i
      rw [hoptions] at hrest
      exact hrest
    | receive bytes ended p =>
      cases hconclusion : conclusion
          ((readAll ended (s.session.buffer ++ bytes)).1.any (ends s.debugger.options))
          (readAll ended (s.session.buffer ++ bytes)).2.2 with
      | some e =>
        -- The last piece: what the client sends after it is not read, but counts as sent.
        obtain ⟨hhandled, hending⟩ := handled_receive_last (p := p) hopen hconclusion ms
        rw [hhandled, hending, ← hconclusion]
        cases ended with
        | true => exact ⟨rfl, rfl⟩
        | false =>
          simp only [stream, ← List.append_assoc]
          exact last_piece _ _ (hconclusion ▸ rfl)
      | none =>
        obtain ⟨hopen', hbuffer, hoptions⟩ := after_receive_open (p := p) hopen hconclusion
        obtain ⟨hany, hnone⟩ := conclusion_eq_none_iff.mp hconclusion
        cases ended with
        | true => exact absurd hnone (readAll_ended _)
        | false =>
          -- What this piece leaves unread is stuck again, and precedes the rest of the stream.
          have hstuck' : (s.after (.receive bytes false p)).session.Stuck := by
            rw [Session.Stuck, hbuffer]
            exact readAll_rest hnone
          obtain ⟨hhandled, hending⟩ := ih hopen' hstuck'
          rw [hbuffer, hoptions] at hhandled hending
          simp only [stream, ← List.append_assoc, readAll_append _ _ hnone, upTo_append,
            List.any_append, hany, Bool.false_or]
          constructor
          · rw [handled_receive hopen, hhandled, upTo_eq_self hany]
            rfl
          · exact hending

theorem handled_start (d : Debugger C) (ms : List (Move C)) :
    handled (.start d) ms = upTo (ends d.options) (received ms) :=
  (handled_run (s := .start d) rfl rfl ms).1

theorem ending_start (d : Debugger C) (ms : List (Move C)) :
    ((Service.start d).run ms).session.ending =
      conclusion ((received ms).any (ends d.options))
        (readAll (stream ms).2 (stream ms).1).2.2 :=
  (handled_run (s := .start d) rfl rfl ms).2

/-- The first message that ends a session is the last one that is reacted to. -/
theorem handled_until {d : Debugger C} {ms : List (Move C)} {before behind : List Received}
    {m : Received} (hreceived : received ms = before ++ m :: behind)
    (hbefore : before.any (ends d.options) = false) (hm : ends d.options m = true) :
    handled (.start d) ms = before ++ [m] ∧
      ((Service.start d).run ms).session.ending = some (.ok ()) := by
  constructor
  · rw [handled_start, hreceived, upTo_append, hbefore, upTo, hm]
    rfl
  · have hany : (received ms).any (ends d.options) = true := by
      rw [hreceived, List.any_append, List.any_cons, hm, Bool.true_or, Bool.or_true]
    rw [ending_start, hany]
    rfl

end Wire

end DebugAdapter
