import DebugAdapter.CommandLine
import DebugAdapter.Script.Host
import DebugAdapter.Wire.Session

/-!
# The program

A debug adapter on standard input and output, for scripts that it runs itself.
-/

open DebugAdapter DebugAdapter.Script DebugAdapter.Wire

namespace DebugAdapter.Main

/-- The steps that threads may take before the input is looked at again. -/
def slice : Nat := 1000

/-- The configuration in a file, or the default one. -/
def loadConfig (path : Option String) : IO Config := do
  match path with
  | none => return .default
  | some path =>
    let result ← (Config.ofText <$> IO.FS.readFile path).toBaseIO
    match result with
    | .ok (.ok config) => return config
    | .ok (.error e) => report path e.message
    | .error e => report path (toString e)
where
  report (path problem : String) : IO Config := do
    IO.eprintln ("failed to load config from " ++ path ++ ": " ++ problem ++
      "; continuing with defaults")
    return .default

/-- Loads a script and starts threads of the given names. -/
def startScript (h : Host) (path : String) (names : List String) : IO Host := do
  let source ← IO.FS.readFile path
  match h.load path source with
  | .error e => throw (IO.userError e.message)
  | .ok h =>
    names.foldlM (fun h name =>
      match h.spawn path name with
      | .ok (_, h) => pure h
      | .error e => throw (IO.userError e.message)) h

def send (messages : List Json) : IO Unit := do
  let out ← IO.getStdout
  for m in messages do
    out.putStr (written m)
  out.flush

/-- Waits for the bytes that a session needs, elsewhere. -/
def receive (s : Session) : IO (Task (Except IO.Error ByteArray)) :=
  IO.asTask do (← IO.getStdin).read (.ofNat s.needed)

/-- Lets threads run, tells what happens, and handles requests, until the session is over. -/
partial def serve (h : Host) (s : Session) (input : Task (Except IO.Error ByteArray)) : IO Session := do
  let h := (h.wake (← IO.monoMsNow)).runReady slice
  let (news, s, debugger) := s.forward h.debugger
  send news
  let h := { h with debugger }
  if ← IO.hasFinished input then
    let bytes ← IO.ofExcept input.get
    let (out, s, debugger) := s.receive h.debugger (fun d => { h with debugger := d }.debuggee)
      bytes.toList bytes.isEmpty
    send out
    if s.ending.isSome then return s
    serve { h with debugger } s (← receive s)
  else
    if h.ready.isEmpty then IO.sleep 1
    serve h s input

end DebugAdapter.Main

open DebugAdapter.Main in
def main (args : List String) : IO UInt32 := do
  match CommandLine.parse .empty args with
  | .error e =>
    IO.eprintln ("error: " ++ e.message)
    return 2
  | .ok line =>
    let fallback ← IO.getEnv "LUMEN_CONFIG"
    let config ← loadConfig (line.config.or fallback)
    let secret ← IO.getEnv "LUMEN_DEBUGGER_SECRET"
    let h := { Host.new (.ofConfig config secret) with waitForAttach := line.waitForAttach }
    let h ← line.threads.foldlM (fun h (path, names) => startScript h path names)
      (h.wake (← IO.monoMsNow))
    let s ← serve h .start (← receive .start)
    match s.ending with
    | some (.error e) =>
      IO.eprintln ("error: " ++ e.message?.getD "the stream cannot be read")
      return 1
    | _ => return 0
