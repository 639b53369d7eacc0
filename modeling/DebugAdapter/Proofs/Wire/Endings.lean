import DebugAdapter.Proofs.Wire.Records
import DebugAdapter.Proofs.Wire.Strays
import DebugAdapter.Suspension.Described

/-!
# How sessions end

A session ends with a message, with its stream, or with bytes that cannot be read. In each case the
debugger is detached, and what a session needs is gone: no thread waits, nothing is asked for, and no
handle, frame or pin of the client is left. Breakpoints stay, and so do announcements that come too
late.

A reaction to a message is one section of a course. What threads do in the middle of it is covered as
well: a session may begin in any state, so in the one that a reaction and the threads have left
together, with announcements on their way.
-/

namespace DebugAdapter.Wire

variable {C : Type}

/-- No client is there, and nothing of what it has asked for is in progress. -/
structure Vacant (c : Coordinator C) : Prop where
  attached : c.attached = false
  suspended : c.suspended = ∅
  steps : c.steps = ∅
  pauses : c.pauses = ∅
  breakOnUncaught : c.breakOnUncaught = false
  consoleOutput : c.consoleOutput = false
  active : c.active = false
  receiver : c.receiver = none

/-- What a client has been shown is forgotten. -/
structure Cleared (d : Debugger C) : Prop where
  session : d.session = none
  frames : d.frames.frames = ∅
  byPosition : d.frames.byPosition = ∅
  exceptions : d.frames.exceptions = ∅
  handles : d.inspector.handles.byId = ∅
  addresses : d.inspector.handles.byAddress = ∅
  paths : d.inspector.handles.paths = ∅
  handleFrames : d.inspector.handles.frames = ∅
  pins : d.inspector.pins.entries = ∅
  pinOrder : d.inspector.pins.order = []

theorem Underway.done {d : Debugger C} (h : Underway d []) (x : Store C) : x.Done d := by
  cases h with
  | begun htodo | unbound htodo => contradiction
  | gone _ _ hdone => exact hdone x List.not_mem_nil

theorem Underway.vacant {d : Debugger C} (h : Underway d []) : Vacant d.coordinator where
  attached := h.done .attached
  suspended := h.done .drain
  steps := h.done .steps
  pauses := h.done .pauses
  breakOnUncaught := h.done .uncaught
  consoleOutput := h.done .console
  active := h.done .refresh
  receiver := h.done .receiver

theorem Underway.cleared {d : Debugger C} (h : Underway d []) : Cleared d where
  session := h.done .session
  frames := (h.done .frames).1
  byPosition := (h.done .frames).2.1
  exceptions := (h.done .frames).2.2
  handles := (h.done .handles).1
  addresses := (h.done .handles).2.1
  paths := (h.done .handles).2.2.1
  handleFrames := (h.done .handles).2.2.2
  pins := (h.done .pins).1
  pinOrder := (h.done .pins).2

namespace Course

theorem closing_of_returned {s : Course C} (h : s.returned = true) : s.closing = some [] := by
  unfold returned at h
  cases hclosing : s.closing with
  | none =>
    rw [hclosing] at h
    contradiction
  | some todo =>
    rw [hclosing, Option.any_some, List.isEmpty_iff] at h
    rw [h]

variable [Context C]

/-- The end comes to an end. -/
theorem exists_returned {s : Course C} (h : s.closing.isSome = true) :
    ∃ n, (s.run (List.replicate n .close)).returned = true := by
  obtain ⟨todo, htodo⟩ := Option.isSome_iff_exists.mp h
  induction todo generalizing s with
  | nil =>
    refine ⟨0, ?_⟩
    change s.returned = true
    rw [returned, htodo]
    rfl
  | cons x rest ih =>
    obtain ⟨waiting, hwaiting⟩ := Store.exists_releases s.debugger x
    have hafter : (s.after .close).closing = some (waiting.map .release ++ rest) := by
      simp only [after, htodo, hwaiting]
    have hreleased := run_releases (s.after .close) waiting rest hafter
    obtain ⟨n, hn⟩ := ih (s := (s.after .close).run (List.replicate waiting.length .close))
      (by rw [hreleased]; rfl) (by rw [hreleased])
    refine ⟨1 + (waiting.length + n), ?_⟩
    rw [List.replicate_add, List.replicate_add, run_append, run_append]
    exact hn

/-- The session has read as much, and has ended in the same way. -/
structure Alike (s : Course C) (s' : Service C) : Prop where
  buffer : s.session.buffer = s'.session.buffer
  options : s.debugger.options = s'.debugger.options
  ending : s.closing.isSome = s'.session.ending.isSome

theorem options_after (s : Course C) (m : Section C) :
    (s.after m).debugger.options = s.debugger.options := by
  cases m with
  | receive bytes ended p =>
    rw [after]
    split
    · rfl
    · exact handleAll_options p _ _
  | close =>
    rw [after]
    split
    · rename_i x rest _
      cases x <;> rfl
    · rfl
  | forward => rfl
  | touch x => cases x <;> rfl
  | ask | look | note =>
    rw [after]
    repeat' split
    all_goals rfl

theorem Alike.receive {s : Course C} {s' : Service C} (h : Alike s s') (bytes : List UInt8)
    (ended : Bool) (p : Debugger C → Debuggee) :
    Alike (s.after (.receive bytes ended p)) (s'.after (.receive bytes ended p)) := by
  cases hclosing : s.closing with
  | some todo =>
    have hending := h.ending
    rw [hclosing, Option.isSome_some] at hending
    obtain ⟨e, he⟩ := Option.isSome_iff_exists.mp hending.symm
    have hsame : s.after (.receive bytes ended p) = s := by
      rw [after, hclosing, Option.isSome_some, if_pos rfl]
    rw [hsame, after_receive_of_ended he]
    exact h
  | none =>
    have hopen : s'.session.ending = none := by
      have hending := h.ending
      rw [hclosing, Option.isSome_none] at hending
      exact Option.isSome_eq_false_iff.mp hending.symm |> Option.isNone_iff_eq_none.mp
    have hleft := after_receive hclosing bytes ended p
    have hright := Wire.after_receive hopen bytes ended p
    -- Both read the same bytes and look for the same messages, so both end here or none does.
    simp only [handleAll_finished, h.buffer, h.options] at hleft hright
    rw [hleft, hright]
    generalize conclusion _ _ = e
    cases e with
    | none =>
      refine ⟨rfl, ?_, ?_⟩
      · exact (handleAll_options p _ _).trans (h.options.trans (handleAll_options p _ _).symm)
      · exact congrArg Option.isSome hopen.symm
    | some e =>
      refine ⟨rfl, ?_, rfl⟩
      exact (handleAll_options p _ _).trans (h.options.trans (handleAll_options p _ _).symm)

theorem Alike.after {s : Course C} {s' : Service C} (h : Alike s s') (m : Section C) :
    Alike (s.after m) (s'.run (moves [m])) := by
  have hown : (s.after m).session = s.session → (s.after m).closing.isSome = s.closing.isSome →
      Alike (s.after m) s' := by
    intro hsession hclosing
    refine ⟨?_, (options_after s m).trans h.options, hclosing.trans h.ending⟩
    rw [hsession]
    exact h.buffer
  cases m with
  | receive bytes ended p => exact h.receive bytes ended p
  | forward => exact ⟨h.buffer, h.options, h.ending⟩
  | touch x => exact hown rfl rfl
  | close | ask | look | note =>
    apply hown
    all_goals
      rw [Course.after]
      repeat' split
      all_goals simp_all [notice]

theorem alike_run {s : Course C} {s' : Service C} (h : Alike s s') (ms : List (Section C)) :
    Alike (s.run ms) (s'.run (moves ms)) := by
  induction ms generalizing s s' with
  | nil => exact h
  | cons m ms ih =>
    have hmoves : s'.run (moves (m :: ms)) = (s'.run (moves [m])).run (moves ms) := by
      rw [show moves (m :: ms) = moves [m] ++ moves ms from List.filterMap_append (l := [m])]
      exact List.foldl_append
    rw [hmoves]
    exact ih (h.after m)

/-- A session ends at the latest with its stream. -/
theorem closing_of_stream (d : Debugger C) (notices : ThreadId → Notice) {ms : List (Section C)}
    (hended : (stream (moves ms)).2 = true) :
    ((start d notices).run ms).closing.isSome = true := by
  have hbegin : Alike (start d notices) (Service.start d) := ⟨rfl, rfl, rfl⟩
  rw [(alike_run hbegin ms).ending]
  cases hending : ((Service.start d).run (moves ms)).session.ending with
  | some e => rfl
  | none =>
    have hconclusion := (ending_start d (moves ms)).symm.trans hending
    have hend := readAll_ended (stream (moves ms)).1
    rw [← hended] at hend
    exact absurd (conclusion_eq_none_iff.mp hconclusion).2 hend

end Course

variable [Context C]

/-- For every session, whatever state the debugger and its threads are in when it begins, whatever
bytes come, and in whatever order the sections of the threads fall between those of the session. The
session ends at the latest with its stream, and its end comes to an end. When it has returned,
nothing of it is in progress and nothing that the client was shown is left; everyone who waited before
or began to wait has been released, and has been or will be let go on once; the breakpoints are those
that were there, with what the client has set; and the exceptions that are announced are those that
came too late, so there is none exactly if no announcement strayed. -/
theorem session_end_leaves_strays (d : Debugger C) (notices : ThreadId → Notice)
    (ms : List (Section C)) :
    let start := Course.start d notices
    let s := start.run ms
    let record := start.noted (fun _ _ _ => []) passages ms
    ((stream (moves ms)).2 = true →
      ∃ n, (s.run (List.replicate n .close)).returned = true) ∧
    (s.returned = true →
      Vacant s.debugger.coordinator ∧ Cleared s.debugger ∧
      (record.filterMap Passage.wentOn? ++
          s.debugger.coordinator.released.map Suspension.site).Perm
        ((d.coordinator.released ++ d.coordinator.suspended.values).map Suspension.site ++
          record.filterMap Passage.parked?) ∧
      (s.debugger.coordinator.breakpoints, s.debugger.coordinator.functions) =
        (start.noted settings (fun _ _ => []) ms).foldl Setting.apply
          (d.coordinator.breakpoints, d.coordinator.functions) ∧
      (∀ t e, s.debugger.coordinator.pending.get? t = some e ↔ start.Stray ms t e) ∧
      (s.debugger.coordinator.pending = ∅ ↔ ∀ t e, ¬start.Stray ms t e)) := by
  intro start s record
  refine ⟨?_, ?_⟩
  · intro hended
    exact Course.exists_returned (Course.closing_of_stream d notices hended)
  · intro hreturned
    have hclosing : s.closing = some [] := Course.closing_of_returned hreturned
    have hunderway : Underway s.debugger [] :=
      Course.Orderly.run (s := start) nofun ms [] hclosing
    have hstrays := Course.pending_iff_stray (s := start) rfl ⟨[], hclosing, List.not_mem_nil⟩
    have hvacant := hunderway.vacant
    refine ⟨hvacant, hunderway.cleared, ?_, settings_run start ms, hstrays, ?_⟩
    · have hbalance := passages_run start rfl ms
      have hleft : s.left = [] := by rw [Course.left, hclosing, Option.getD_some]
      have hreleased : s.debugger.coordinator.sites =
          s.debugger.coordinator.released.map Suspension.site := by
        rw [Coordinator.sites, hvacant.suspended, Table.values_empty, List.append_nil]
      rw [Balanced, hleft, hreleased] at hbalance
      rw [show drained ([] : List (Store C)) = [] from rfl, List.append_nil] at hbalance
      exact hbalance
    · constructor
      · intro hnone t e hstray
        rw [← hstrays, hnone] at hstray
        contradiction
      · intro hnone
        apply Table.eq_empty_of_isEmpty
        rw [Table.isEmpty_iff]
        intro t
        exact Option.eq_none_iff_forall_not_mem.mpr fun e he => hnone t e ((hstrays t e).mp he)

/-- A thread is parked, another announces an exception in time, and a third one has looked for the
client when the stream ends in the middle of a message. -/
def cutShort : List (Section DescribedThread) :=
  let p : Debugger DescribedThread → Debuggee := fun _ => ⟨[⟨10, "ten"⟩], fun _ => [], [], []⟩
  let e : Exception := ⟨"Error", "no such row", none, "", none⟩
  [.receive (frame "[1,\"request\",\"attach\",\x7b\"secret\":\"s\"\x7d]").toUTF8.toList false p,
    .receive (frame "[2,\"request\",\"setExceptionBreakpoints\",\x7b\"filters\":[\"uncaught\"]\x7d]"
      ).toUTF8.toList false p,
    .touch (.park ⟨⟨10, "ten", [], []⟩, "/a", 3, { reason := .pause }⟩),
    .ask 11 e, .look 11, .ask 12 e, .look 12, .note 11,
    .receive "Content-Length: 9\r\n\r\n[3".toUTF8.toList true p]

/-- The third thread adds its exception when the announced ones have just been dropped, and the session
goes on to its end. -/
def crossing : List (Section DescribedThread) :=
  cutShort ++ List.replicate 10 .close ++ [.note 12, .touch .refresh] ++ List.replicate 4 .close

theorem run_crossing :
    let s := (Course.start (Debugger.new ⟨true, some "s", 8, none⟩) fun _ => Notice.none).run crossing
    s.returned = true ∧ s.debugger.coordinator.released.length = 1 ∧
      s.debugger.coordinator.pending.get? 11 = none ∧
      s.debugger.coordinator.pending.get? 12 = some ⟨"Error", "no such row", none, "", none⟩ := by
  decide +kernel

theorem session_end_leaves_strays_crossing :
    let start := Course.start (Debugger.new ⟨true, some "s", 8, none⟩) fun _ => Notice.none
    let s := start.run crossing
    (∃ n, ((start.run cutShort).run (List.replicate n .close)).returned = true) ∧
      s.returned = true ∧ Vacant s.debugger.coordinator ∧ Cleared s.debugger ∧
      s.debugger.coordinator.released.length = 1 ∧
      start.Stray crossing 12 ⟨"Error", "no such row", none, "", none⟩ ∧
      ∀ e, ¬start.Stray crossing 11 e := by
  intro start s
  have hreturns := (session_end_leaves_strays (Debugger.new ⟨true, some "s", 8, none⟩)
    (fun _ => Notice.none) cutShort).1 (by decide +kernel)
  obtain ⟨hreturned, hreleased, hdropped, hleft⟩ := run_crossing
  obtain ⟨hvacant, hcleared, _, _, hstrays, _⟩ := (session_end_leaves_strays
    (Debugger.new ⟨true, some "s", 8, none⟩) (fun _ => Notice.none) crossing).2 hreturned
  refine ⟨hreturns, hreturned, hvacant, hcleared, hreleased, (hstrays 12 _).mp hleft, ?_⟩
  intro e hstray
  have hsome := (hstrays 11 e).mpr hstray
  rw [hdropped] at hsome
  contradiction

/-- A session has returned, and an exception is still announced. -/
theorem announcement_outlasts_session :
    let s := (Course.start (Debugger.new ⟨true, some "s", 8, none⟩) fun _ => Notice.none).run crossing
    s.returned = true ∧ s.debugger.coordinator.pending ≠ ∅ := by
  intro s
  obtain ⟨hreturned, _, _, hleft⟩ := run_crossing
  refine ⟨hreturned, ?_⟩
  intro hempty
  rw [hempty] at hleft
  contradiction

end DebugAdapter.Wire
