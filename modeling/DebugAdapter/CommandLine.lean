import DebugAdapter.Config.Basic
import DebugAdapter.Debugger.Basic
import DebugAdapter.Decimal.Reading

/-!
# Command line

What the program is told when it is started: where its configuration is, which scripts to run and by
how many threads, and whether they wait for a client.
-/

namespace DebugAdapter

structure CommandLine where
  config : Option String
  /-- Scripts, in the order in which they are started. -/
  scripts : List String
  /-- Threads for each script. -/
  workers : Nat
  waitForAttach : Bool

namespace CommandLine

inductive Error where
  | unexpected (argument : String)
  | missingValue (option : String)
  | badNumber (value : String)
  deriving DecidableEq

def Error.message : Error → String
  | unexpected argument => "unexpected argument '" ++ argument ++ "'"
  | missingValue option => "a value is required for '" ++ option ++ "'"
  | badNumber value => "'" ++ value ++ "' is no number"

def empty : CommandLine := ⟨none, [], 1, false⟩

/-- Reads options after those that have been read. -/
def parse (c : CommandLine) : List String → Except Error CommandLine
  | [] => .ok c
  | "--config" :: path :: rest => parse { c with config := some path } rest
  | "--demo" :: path :: rest => parse { c with scripts := c.scripts ++ [path] } rest
  | "--workers" :: n :: rest =>
    match Decimal.readNat? (Nat.pow 2 64) n.toList with
    | some workers => parse { c with workers } rest
    | none => .error (.badNumber n)
  | "--wait-for-attach" :: rest => parse { c with waitForAttach := true } rest
  | "--config" :: [] => .error (.missingValue "--config")
  | "--demo" :: [] => .error (.missingValue "--demo")
  | "--workers" :: [] => .error (.missingValue "--workers")
  | argument :: _ => .error (.unexpected argument)

/-- The scripts with the names of the threads that execute them.  Threads are numbered through, and
every script has one. -/
def threads (c : CommandLine) : List (String × List String) :=
  let each := max c.workers 1
  c.scripts.mapIdx fun i path =>
    (path, (List.range each).map fun j => "Worker-" ++ toString (i * each + j + 1))

end CommandLine

/-- The options that a configuration and the secret of the environment give. -/
def Options.ofConfig (c : Config) (environment : Option String) : Options where
  caseSensitive := c.paths.caseSensitive
  secret := c.expectedSecret environment
  pinCapacity := c.inspection.pinCacheSize
  pinLifetime := some (1000 * c.inspection.pinLifetime)

end DebugAdapter
