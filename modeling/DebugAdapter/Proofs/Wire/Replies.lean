import DebugAdapter.Proofs.Wire.Service
import DebugAdapter.Suspension.Described

/-!
# What is written to a client

The messages that a client gets are read back from what is written. Notifications aside, they are a
function of the messages that are reacted to (`signs_written`): a response to each that can be
answered, and after some of these an event. So the responses are in one-to-one correspondence with
what they answer, and the numbers of all messages together are dense (`numbers_written`).
-/

namespace DebugAdapter.Wire

/-- What a written message is, apart from notifications. An attach that succeeds is `granted`. -/
inductive Sign where
  | response (requestSeq : Int) (command : String) (granted : Bool)
  | initialized
  | terminated
  deriving DecidableEq

/-- Which message is answered, and under which command. -/
def Sign.answered? : Sign → Option (Int × String)
  | .response seq command _ => some (seq, command)
  | .initialized | .terminated => none

def eventSign? : String → Option Sign
  | "initialized" => some .initialized
  | "terminated" => some .terminated
  | _ => none

def responseSign (seq : Int) (command : String) (success : Bool) : Sign :=
  .response seq command (command == "attach" && success)

def sign? (j : Json) : Option Sign :=
  match (j.get? "type").bind Json.str? with
  | some "response" => do
    let seq ← (j.get? "request_seq").bind Json.int?
    let command ← (j.get? "command").bind Json.str?
    let success ← (j.get? "success").bind Json.bool?
    return responseSign seq command success
  | some "event" => ((j.get? "event").bind Json.str?).bind eventSign?
  | _ => none

def number? (j : Json) : Option Int := (j.get? "seq").bind Json.int?

def Message.sign? : Message → Option Sign
  | .response seq command success _ _ => some (responseSign seq command success)
  | .event name _ => eventSign? name

section
variable (n seq : Int) (command name : String) (success : Bool) (body : Option Json)
  (text : Option String)

theorem get?_response (key : String) :
    (Message.toJson n (.response seq command success body text)).get? key =
      (List.lookup key [("seq", some (.ofInt n)), ("type", some (.str "response")),
        ("request_seq", some (.ofInt seq)), ("success", some (.bool success)),
        ("command", some (.str command)), ("message", text.map .str), ("body", body)]).join := by
  refine Json.get?_ofSome ?_ key
  change ["seq", "type", "request_seq", "success", "command", "message", "body"].Nodup
  decide

theorem get?_event (key : String) :
    (Message.toJson n (.event name body)).get? key =
      (List.lookup key [("seq", some (.ofInt n)), ("type", some (.str "event")),
        ("event", some (.str name)), ("body", body)]).join := by
  refine Json.get?_ofSome ?_ key
  change ["seq", "type", "event", "body"].Nodup
  decide

end

theorem sign?_toJson (n : Int) (m : Message) : sign? (m.toJson n) = m.sign? := by
  cases m with
  | response seq command success body text =>
    simp only [sign?, get?_response]
    rfl
  | event name body =>
    simp only [sign?, get?_event]
    rfl

theorem number?_toJson (n : Int) (m : Message) : number? (m.toJson n) = some n := by
  cases m with
  | response seq command success body text =>
    simp only [number?, get?_response]
    rfl
  | event name body =>
    simp only [number?, get?_event]
    rfl

/-! ## One message -/

def fits (n : Int) : Bool := -9223372036854775808 ≤ n && n ≤ 9223372036854775807

/-- Under which number and command a message is answered: a request is, and what cannot be read as a
message is if it says its number. -/
def answerable? : Received → Option (Int × String)
  | .malformed => none
  | .value j =>
    match Request.decode j with
    | .ok r => if r.kind = "request" then some (r.seq, r.command) else none
    | .error _ =>
      (((j.get? "seq").bind Json.int?).filter fits).map fun seq =>
        (seq, ((j.get? "command").bind Json.str?).getD "")

/-- What a client finds written, notifications aside, after a message. -/
def course (o : Options) (m : Received) : List Sign :=
  match requestOf? m with
  | some r =>
    if r.command = "attach" then
      [.response r.seq r.command (admits o r), if admits o r then .initialized else .terminated]
    else if r.command = "disconnect" then [.response r.seq r.command false, .terminated]
    else [.response r.seq r.command false]
  | none => (answerable? m).toList.map fun a => .response a.1 a.2 false

theorem answerable?_of_request {m : Received} {r : Request} (h : requestOf? m = some r) :
    answerable? m = some (r.seq, r.command) := by
  obtain ⟨j, rfl, hdecode, hkind⟩ := requestOf?_eq_some h
  simp only [answerable?, hdecode, if_pos hkind]

theorem answered?_course (o : Options) (m : Received) :
    (course o m).filterMap Sign.answered? = (answerable? m).toList := by
  unfold course
  cases h : requestOf? m with
  | none => cases answerable? m <;> rfl
  | some r =>
    rw [answerable?_of_request h]
    dsimp only
    split
    · split <;> rfl
    · split <;> rfl

theorem toOption_int64 (j : Json) : (Json.int64 j).toOption = j.int?.filter fits := by
  cases j with
  | num x =>
    cases x with
    | real => rfl
    | int n =>
      change (if fits n = true then Except.ok n else _ : Except Json.DecodeError Int).toOption = _
      cases hfits : fits n with
      | true => exact (Option.filter_some_pos hfits).symm
      | false => exact (Option.filter_some_neg hfits).symm
  | _ => rfl

variable {C : Type} [Context C]

theorem messages_of_none (d : Debugger C) (p : Debuggee) {m : Received} (h : requestOf? m = none) :
    ∃ text, (react d p m).messages =
      (answerable? m).toList.map fun a => .response a.1 a.2 false none (some text) := by
  rcases requestOf?_eq_none h with rfl | ⟨j, e, rfl, hdecode⟩ | ⟨j, r, rfl, hdecode, hkind⟩
  · exact ⟨"", rfl⟩
  · have hseq : ((j.get? "seq").bind fun s => (Json.int64 s).toOption) =
        ((j.get? "seq").bind Json.int?).filter fits := by
      cases j.get? "seq" with
      | none => rfl
      | some s => exact toOption_int64 s
    simp only [react, answerable?, hdecode, malformedResponse, hseq]
    refine ⟨"malformed request: " ++ Redaction.redact (Request.errorText e), ?_⟩
    cases ((j.get? "seq").bind Json.int?).filter fits <;> rfl
  · simp only [react, answerable?, hdecode, if_neg hkind]
    exact ⟨"", rfl⟩

theorem react_signs (d : Debugger C) (p : Debuggee) (m : Received) :
    (react d p m).messages.filterMap Message.sign? = course d.options m := by
  unfold course
  cases h : requestOf? m with
  | none =>
    obtain ⟨text, hmessages⟩ := messages_of_none d p h
    rw [hmessages]
    cases answerable? m with
    | none => rfl
    | some a => simp [Message.sign?, responseSign]
  | some r =>
    dsimp only
    by_cases hattach : r.command = "attach"
    · rw [if_pos hattach]
      cases hadmits : admits d.options r with
      | true =>
        rw [react_of_admitted h hattach hadmits, hattach]
        rfl
      | false =>
        obtain ⟨reason, hreact⟩ := react_of_rejected (p := p) h hattach hadmits
        rw [hreact, hattach]
        rfl
    · rw [if_neg hattach]
      have hsign : ∀ success, responseSign r.seq r.command success =
          .response r.seq r.command false := by
        intro success
        rw [responseSign, beq_eq_false_iff_ne.mpr hattach, Bool.false_and]
      by_cases hdisconnect : r.command = "disconnect"
      · rw [react_of_disconnect h hdisconnect, if_pos hdisconnect, hdisconnect]
        rfl
      · obtain ⟨success, body, text, d', hreply⟩ :=
          reply_inner (d := d) (p := p) ⟨hattach, hdisconnect⟩
        rw [react_of_request h, hreply, if_neg hdisconnect, ← hsign success]
        rfl

/-! ## A whole session -/

theorem notedOf_signs (p : Debugger C → Debuggee) (frames : List Received) (d : Debugger C) :
    (notedOf (fun d p m => (react d p m).messages) p frames d).filterMap Message.sign? =
      (notedOf (fun _ _ m => [m]) p frames d).flatMap (course d.options) := by
  induction frames generalizing d with
  | nil => rfl
  | cons m frames ih =>
    rw [notedOf, notedOf, List.filterMap_append, List.flatMap_append, react_signs,
      List.flatMap_singleton]
    cases (react d (p d) m).finished with
    | true => rfl
    | false =>
      have hrest := ih (react d (p d) m).debugger
      rw [react_options] at hrest
      exact congrArg (course d.options m ++ ·) hrest

def Service.sends (s : Service C) : Move C → List Message
  | .receive bytes ended p =>
    if s.session.ending.isSome then []
    else
      notedOf (fun d p m => (react d p m).messages) p
        (readAll ended (s.session.buffer ++ bytes)).1 s.debugger
  | .forward => s.debugger.coordinator.takeOutbox.1.map .ofNotification
  | .incident _ => []

theorem output_eq (s : Service C) (move : Move C) :
    s.output move = s.session.number (s.sends move) ∧
      (s.after move).session.sent = s.session.sent + (s.sends move).length := by
  cases move with
  | forward => exact ⟨rfl, rfl⟩
  | incident i => exact ⟨rfl, rfl⟩
  | receive bytes ended p =>
    rw [Service.output, Service.sends]
    cases hending : s.session.ending with
    | some e =>
      rw [after_receive_of_ended hending]
      exact ⟨rfl, rfl⟩
    | none =>
      rw [after_receive hending, receive_eq, handleAll_messages]
      refine ⟨rfl, ?_⟩
      cases conclusion _ _ <;> rfl

theorem number_cons (s : Session) (m : Message) (messages : List Message) :
    s.number (m :: messages) =
      m.toJson (s.sent + 1) :: { s with sent := s.sent + 1 }.number messages := by
  have hshift : (fun (i : Nat) (m : Message) => m.toJson (s.sent + (i + 1 : Nat) + 1)) =
      fun (i : Nat) (m : Message) => m.toJson ((s.sent + 1 : Nat) + i + 1) := by
    funext i m
    congr 1
    omega
  rw [Session.number, List.mapIdx_cons, hshift]
  congr 2

theorem number_signs (s : Session) (messages : List Message) :
    (s.number messages).filterMap sign? = messages.filterMap Message.sign? := by
  induction messages generalizing s with
  | nil => rfl
  | cons m messages ih => rw [number_cons, List.filterMap_cons, List.filterMap_cons, sign?_toJson, ih]

theorem number_numbers (s : Session) (messages : List Message) :
    (s.number messages).map number? =
      (List.range' (s.sent + 1) messages.length).map fun n : Nat => some (n : Int) := by
  induction messages generalizing s with
  | nil => rfl
  | cons m messages ih =>
    rw [number_cons, List.map_cons, number?_toJson, ih]
    rfl

theorem handled_cons (s : Service C) (move : Move C) (ms : List (Move C)) :
    handled s (move :: ms) = handled s [move] ++ handled (s.after move) ms :=
  noted_append s [move] ms

theorem after_options (s : Service C) (move : Move C) :
    (s.after move).debugger.options = s.debugger.options := by
  cases move with
  | forward => rfl
  | incident i => exact meet_options s.debugger i
  | receive bytes ended p =>
    cases hending : s.session.ending with
    | some e => rw [after_receive_of_ended hending]
    | none =>
      rw [after_receive hending]
      cases conclusion _ _ <;> exact handleAll_options p _ _

theorem signs_sends (s : Service C) (move : Move C) :
    (s.sends move).filterMap Message.sign? =
      (handled s [move]).flatMap (course s.debugger.options) := by
  cases move with
  | incident i => rfl
  | forward =>
    rw [Service.sends, List.filterMap_eq_nil_iff.mpr]
    · rfl
    · intro m hm
      obtain ⟨n, _, rfl⟩ := List.mem_map.mp hm
      cases n <;> rfl
  | receive bytes ended p =>
    rw [Service.sends, handled, noted, noted, List.append_nil]
    cases s.session.ending with
    | some e => rfl
    | none => exact notedOf_signs p _ _

/-- Whatever is sent in between, what is written of the messages of a session is their course. -/
theorem signs_written (s : Service C) (ms : List (Move C)) :
    (s.written ms).filterMap sign? = (handled s ms).flatMap (course s.debugger.options) := by
  induction ms generalizing s with
  | nil => rfl
  | cons move ms ih =>
    rw [Service.written, List.filterMap_append, ih, (output_eq s move).1, number_signs,
      signs_sends, after_options, handled_cons s move ms, List.flatMap_append]

theorem numbers_written (s : Service C) (ms : List (Move C)) :
    (s.written ms).map number? =
      (List.range' (s.session.sent + 1) (s.written ms).length).map fun n : Nat => some (n : Int) := by
  induction ms generalizing s with
  | nil => rfl
  | cons move ms ih =>
    obtain ⟨houtput, hsent⟩ := output_eq s move
    have hlength : (s.output move).length = (s.sends move).length := by
      rw [houtput]
      exact List.length_mapIdx
    rw [Service.written, List.map_append, ih, hsent, houtput, number_numbers, List.length_append,
      ← houtput, hlength, ← List.map_append, Nat.add_right_comm, List.range'_append_1]

/-- For every stream of frames, however it is cut and whatever is sent and happens in between. The
messages that are reacted to are those up to and including the first disconnect or refused attach,
with which the session ends. The responses are in one-to-one correspondence with those of them that
are requests or values that cannot be read as messages but say a number of 64 bits, in order, and
repeat number and command; the event that a session has begun follows each attach that is granted,
and the event that it is over the response that ends it, and neither appears elsewhere. Anything
else is passed over. All messages together are numbered from one on. -/
theorem every_request_answered (d : Debugger C) (ms : List (Move C)) :
    let s := Service.start d
    let out := s.written ms
    handled s ms = upTo (ends d.options) (received ms) ∧
    ((received ms).any (ends d.options) = true → (s.run ms).session.ending = some (.ok ())) ∧
    (out.filterMap sign?).filterMap Sign.answered? = (handled s ms).filterMap answerable? ∧
    out.filterMap sign? = (handled s ms).flatMap (course d.options) ∧
    (∀ m, requestOf? m = none → ends d.options m = false ∧ ∀ (d' : Debugger C) p,
      (react d' p m).debugger = d' ∧ (answerable? m = none → (react d' p m).messages = [])) ∧
    out.map number? = (List.range' 1 out.length).map fun n : Nat => some (n : Int) := by
  intro s out
  have hsigns : out.filterMap sign? = (handled s ms).flatMap (course d.options) :=
    signs_written s ms
  refine ⟨handled_start d ms, ?_, ?_, hsigns, ?_, numbers_written s ms⟩
  · intro hends
    rw [ending_start, hends]
    rfl
  · rw [hsigns, List.filterMap_flatMap, List.filterMap_eq_flatMap_toList]
    congr 1
    funext m
    exact answered?_course d.options m
  · intro m hm
    refine ⟨?_, ?_⟩
    · rw [ends, hm]
      rfl
    · intro d' p
      refine ⟨(react_of_none hm).1, ?_⟩
      intro hunanswered
      obtain ⟨text, hmessages⟩ := messages_of_none d' p hm
      rw [hmessages, hunanswered]
      rfl

/-- What cannot be read as a message and says a number beyond 64 bits is passed over. -/
theorem wide_number_unanswered :
    let text :=
      "\x7b\"seq\":9223372036854775808,\"type\":\"request\",\"command\":\"threads\"\x7d"
    let ms : List (Move DescribedThread) :=
      [.receive (frame text).toUTF8.toList true fun _ => ⟨[], fun _ => [], [], []⟩]
    let s := Service.start (Debugger.new ⟨true, some "secret", 8, none⟩)
    (handled s ms).map (fun
      | .value j => ((Request.decode j).toOption.isSome, (j.get? "seq").bind Json.int?)
      | .malformed => (true, none)) = [(false, some 9223372036854775808)] ∧
    (s.written ms).length = 0 := by
  decide +kernel

end DebugAdapter.Wire
