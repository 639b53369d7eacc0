import DebugAdapter.Wire.Frame
import DebugAdapter.Wire.Handler

/-!
# Sessions

A client's connection from its beginning to its end.  Requests are handled one after the other;
every one gets a response, and messages that are no requests get none unless they can be answered.
However the session ends, the debugger is detached.
-/

namespace DebugAdapter.Wire

/-- What handling a message leads to. -/
structure Reaction (C : Type) where
  messages : List Message
  debugger : Debugger C
  /-- The session is over. -/
  finished : Bool

section

variable {C : Type}

/-- The event that ends a session. -/
def terminated : Message := .event "terminated" none

/-- The response to a value that is no request, if it says which message it is. -/
def malformedResponse (j : Json) (e : Json.DecodeError) : List Message :=
  match (j.get? "seq").bind fun s => (Json.int64 s).toOption with
  | none => []
  | some seq =>
    [.response seq (((j.get? "command").bind Json.str?).getD "") false none
      (some ("malformed request: " ++ Redaction.redact (Request.errorText e)))]

/-- Sends the answer to a request, or its error.  A refused client is sent away. -/
def reply (r : Request) (o : Outcome C) : Reaction C :=
  let respond (success : Bool) (body : Option Json) (text : Option String) : Message :=
    .response r.seq r.command success body text
  match o with
  | (.ok (.answer body), d) => ⟨[respond true body none], d, false⟩
  | (.ok (.answerThen body event), d) => ⟨[respond true body none, .event event none], d, false⟩
  | (.ok (.finish body), d) => ⟨[respond true body none, terminated], d, true⟩
  | (.error (.attachRejected reason), d) =>
    ⟨[respond false none (some (RequestError.attachRejected reason).message), terminated], d, true⟩
  | (.error e, d) => ⟨[respond false none (some e.message)], d, false⟩

variable [Context C]

/-- Reacts to a frame. -/
def react (d : Debugger C) (p : Debuggee) : Received → Reaction C
  | .malformed => ⟨[], d, false⟩
  | .value j =>
    match Request.decode j with
    | .error e => ⟨malformedResponse j e, d, false⟩
    | .ok r => if r.kind = "request" then reply r (handle d p r) else ⟨[], d, false⟩

end

/-- A connection.  `sent` counts the messages that have been sent on it. -/
structure Session where
  sent : Nat
  /-- Bytes that have arrived and are not read yet. -/
  buffer : List UInt8
  /-- How the session has ended; the reading of its stream may have failed. -/
  ending : Option (Except FrameError Unit)

namespace Session

def start : Session := ⟨0, [], none⟩

/-- The number of a message is the count of those sent with it. -/
def number (s : Session) (messages : List Message) : List Json :=
  messages.mapIdx fun i m => m.toJson (s.sent + i + 1)

/-- Sends messages, under the numbers that follow. -/
def send (s : Session) (messages : List Message) : List Json × Session :=
  (s.number messages, { s with sent := s.sent + messages.length })

/-- The number of bytes that have to arrive at least before anything can happen. -/
def needed (s : Session) : Nat :=
  match readFrame false s.buffer with
  | .pending n => n
  | _ => 1

variable {C : Type}

/-- Ends a session. -/
def finish (s : Session) (e : Except FrameError Unit) (d : Debugger C) : Session × Debugger C :=
  ({ s with ending := some e, buffer := [] }, d.detach)

variable [Context C]

/-- Handles frames until the session is over.  What is known of the debuggee is asked for with each. -/
def handleAll (p : Debugger C → Debuggee) :
    List Received → Debugger C → List Message × Bool × Debugger C
  | [], d => ([], false, d)
  | m :: rest, d =>
    let r := react d (p d) m
    if r.finished then (r.messages, true, r.debugger)
    else
      let (messages, finished, d) := handleAll p rest r.debugger
      (r.messages ++ messages, finished, d)

/-- Takes bytes in, or the end of the client's stream, and reacts to all that they complete. -/
def receive (s : Session) (d : Debugger C) (p : Debugger C → Debuggee) (bytes : List UInt8)
    (ended : Bool) : List Json × Session × Debugger C :=
  let (frames, rest, theEnd) := readAll ended (s.buffer ++ bytes)
  let (messages, finished, d) := handleAll p frames d
  let (out, s) := { s with buffer := rest }.send messages
  if finished then (out, s.finish (.ok ()) d)
  else
    match theEnd with
    | none => (out, s, d)
    | some .closed => (out, s.finish (.ok ()) d)
    | some (.failed e) => (out, s.finish (.error e) d)

/-- Sends the events that tell of what has happened. -/
def forward (s : Session) (d : Debugger C) : List Json × Session × Debugger C :=
  let (news, coordinator) := d.coordinator.takeOutbox
  let (out, s) := s.send (news.map .ofNotification)
  (out, s, { d with coordinator })

end Session

end DebugAdapter.Wire
