import DebugAdapter.Json.Decode
import DebugAdapter.Suspension.Stop

/-!
# Messages

What clients send, and what is sent to them: one response to every request, and events.
-/

namespace DebugAdapter.Wire

open Json (Fields)

structure Request where
  seq : Int
  kind : String
  command : String
  arguments : Json

namespace Request

/-- Members of other names are passed over, but not items beyond the fields. -/
def strictness : Fields.Strictness := ⟨true, false⟩

def fields : Fields Request :=
  Request.mk <$> .required "seq" Json.int64
    <*> .required "type" Json.text
    <*> .required "command" Json.text
    <*> .withDefault "arguments" .ok .null

def decode : Json.Decoder Request := fields.decode "Request" strictness

/-- The text of an error in a message. -/
def errorText (e : Json.DecodeError) : String := e.message Decimal.compact

def toJson (r : Request) : Json :=
  .ofMembers [("seq", .ofInt r.seq), ("type", .str r.kind), ("command", .str r.command),
    ("arguments", r.arguments)]

end Request

/-- What is sent to a client. -/
inductive Message where
  | response (requestSeq : Int) (command : String) (success : Bool) (body : Option Json)
      (text : Option String)
  | event (name : String) (body : Option Json)

namespace Message

/-- A message as the one of the given number. -/
def toJson (seq : Int) : Message → Json
  | response requestSeq command success body text =>
    .ofSome [("seq", some (.ofInt seq)), ("type", some (.str "response")),
      ("request_seq", some (.ofInt requestSeq)), ("success", some (.bool success)),
      ("command", some (.str command)), ("message", text.map .str), ("body", body)]
  | event name body =>
    .ofSome [("seq", some (.ofInt seq)), ("type", some (.str "event")), ("event", some (.str name)),
      ("body", body)]

/-- The event that tells of a notification. -/
def ofNotification : Notification → Message
  | .stopped thread reason description text hits =>
    event "stopped" (some (.ofSome [
      ("reason", some (.str reason.text)), ("threadId", some (.ofInt thread)),
      ("allThreadsStopped", some (.bool false)), ("description", description.map .str),
      ("text", text.map .str),
      ("hitBreakpointIds", if hits.isEmpty then none else some (.ofList .ofNat hits))]))
  | .output text isError =>
    event "output" (some (.ofMembers [("category", .str (if isError then "stderr" else "stdout")),
      ("output", .str text)]))

end Message

end DebugAdapter.Wire
