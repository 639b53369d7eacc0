import DebugAdapter.Decimal.Reading
import DebugAdapter.Json.Printer
import DebugAdapter.Json.Reader
import DebugAdapter.Text.Blank

/-!
# Frames

Messages follow each other on a byte stream.  Each is a block of header lines, a blank line, and a
body of the length that the header tells.  The reader is given the bytes that have arrived, and
whether more can come; as long as they do not decide what the next frame is, it says so.
-/

namespace DebugAdapter.Wire

/-- The largest accepted body, in bytes. -/
def maxBody : Nat := 16 * 1024 * 1024

/-- The largest accepted header block, in bytes. -/
def maxHeader : Nat := 8 * 1024

/-- Why a stream cannot be read on. -/
inductive FrameError where
  /-- The stream ends in the middle of a body. -/
  | truncated
  /-- A header line is no text. -/
  | notText
  | headerTooLarge
  | invalidLength
  | missingLength
  | bodyTooLarge (length : Nat)
  deriving DecidableEq

/-- The errors that are breaches of the protocol and not failures of the stream have a text. -/
def FrameError.message? : FrameError → Option String
  | truncated => none
  | notText => none
  | headerTooLarge =>
    some ("dap protocol error: header block exceeds " ++ toString maxHeader ++ " bytes")
  | invalidLength => some "dap protocol error: invalid Content-Length header"
  | missingLength => some "dap protocol error: missing Content-Length header"
  | bodyTooLarge n => some ("dap protocol error: message of " ++ toString n ++
      " bytes exceeds the " ++ toString maxBody ++ " byte limit")

/-- What the bytes at hand say of the next frame. -/
inductive Arrival where
  /-- More bytes are needed: as many at least. -/
  | pending (atLeast : Nat)
  /-- The stream has ended. -/
  | closed
  | failed (e : FrameError)
  /-- The body of a frame, and the bytes behind it. -/
  | frame (body rest : List UInt8)
  deriving DecidableEq

/-- What is known of a header block so far. -/
structure Header where
  length : Option Nat
  /-- The number of its bytes. -/
  size : Nat
  /-- A line that is not blank has been read. -/
  begun : Bool
  deriving DecidableEq

namespace Header

def start : Header := ⟨none, 0, false⟩

/-- The header line that tells the length of the body. -/
def lengthName : String := "content-length"

/-- Lengths are below this number. -/
def lengthLimit : Nat := Nat.pow 2 64

/-- Reads a line without its ending.  The length is noted; everything else is passed over. -/
def readField (h : Header) (line : List Char) : Except FrameError Header :=
  match Text.splitFirst? (· == ':') line with
  | none => .ok h
  | some (name, value) =>
    if (Text.trimChars name).map Char.toLower = lengthName.toList then
      match Decimal.readNat? lengthLimit (Text.trimChars value) with
      | some n => .ok { h with length := some n }
      | none => .error .invalidLength
    else .ok h

/-- Reads a line, and tells whether it ends the block: it does if it is blank, unless it stands
before the first line that is not. -/
def readLine (h : Header) (bytes : List UInt8) : Except FrameError (Bool × Header) :=
  match String.fromUTF8? ⟨bytes.toArray⟩ with
  | none => .error .notText
  | some text =>
    let h := { h with size := h.size + bytes.length }
    if maxHeader < h.size then .error .headerTooLarge
    else
      let line := Text.dropTrailing (fun c => c == '\r' || c == '\n') text.toList
      if line.isEmpty then .ok (h.begun, h)
      else (readField { h with begun := true } line).map (false, ·)

end Header

/-- The body that follows a header block. -/
def readBody (ended : Bool) (h : Header) (bytes : List UInt8) : Arrival :=
  match h.length with
  | none => .failed .missingLength
  | some n =>
    if maxBody < n then .failed (.bodyTooLarge n)
    else if bytes.length < n then
      if ended then .failed .truncated else .pending (n - bytes.length)
    else .frame (bytes.take n) (bytes.drop n)

/-- Reads a frame whose header block has been read in part; `line` holds the bytes of its unfinished
line in reverse.  A stream that ends within the block counts as ended before it. -/
def readFrom (ended : Bool) (h : Header) (line : List UInt8) : List UInt8 → Arrival
  | [] =>
    if !ended then .pending 1
    else if line.isEmpty then .closed
    else
      match h.readLine line.reverse with
      | .error e => .failed e
      | .ok (true, h) => readBody ended h []
      | .ok (false, _) => .closed
  | b :: rest =>
    if b = 10 then
      match h.readLine (b :: line).reverse with
      | .error e => .failed e
      | .ok (true, h) => readBody ended h rest
      | .ok (false, h) => readFrom ended h [] rest
    else readFrom ended h (b :: line) rest

/-- The next frame of a stream. -/
def readFrame (ended : Bool) (bytes : List UInt8) : Arrival := readFrom ended .start [] bytes

/-! ## Values -/

/-- A frame whose body has been read. -/
inductive Received where
  | value (j : Json)
  /-- The body is no JSON. -/
  | malformed

/-- What the body of a frame holds. -/
def Received.ofBody (body : List UInt8) : Received :=
  match Json.ofBytes? body with
  | some j => .value j
  | none => .malformed

/-- How the reading of a stream ends. -/
inductive StreamEnd where
  | closed
  | failed (e : FrameError)
  deriving DecidableEq

/-- Reads frames until the bytes at hand decide no more, and tells how the stream ends if it does.
Every frame takes bytes, so fuel of one more than there are bytes is never used up. -/
def readFrames (ended : Bool) : Nat → List UInt8 → List Received × List UInt8 × Option StreamEnd
  | 0, bytes => ([], bytes, none)
  | fuel + 1, bytes =>
    match readFrame ended bytes with
    | .pending _ => ([], bytes, none)
    | .closed => ([], [], some .closed)
    | .failed e => ([], bytes, some (.failed e))
    | .frame body rest =>
      let (more, rest, theEnd) := readFrames ended fuel rest
      (.ofBody body :: more, rest, theEnd)

/-- Reads all frames that the bytes at hand decide. -/
def readAll (ended : Bool) (bytes : List UInt8) : List Received × List UInt8 × Option StreamEnd :=
  readFrames ended (bytes.length + 1) bytes

/-- A body with its header block. -/
def frame (body : String) : String :=
  "Content-Length: " ++ toString body.utf8ByteSize ++ "\r\n\r\n" ++ body

/-- A value as it is sent. -/
def written (j : Json) : String := frame j.render

end DebugAdapter.Wire
