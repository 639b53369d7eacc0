import DebugAdapter.Json.Decode
import DebugAdapter.Path.Canonical
import DebugAdapter.Text.Blank
import DebugAdapter.Toml.Document

/-!
# Configuration

What can be configured, and with which defaults.  A configuration file names no setting that is not
here.
-/

namespace DebugAdapter

namespace Config

structure Logging where
  level : String
  json : Bool
  stderr : Bool
  file : Option String
  includeBacktrace : Bool

structure Dap where
  host : String
  port : Option Nat
  secret : Option String

structure Inspection where
  pinCacheSize : Nat
  pinLifetime : Nat
  reclaimInterval : Nat

structure Paths where
  caseSensitive : Bool

def defaultLevel : String := "info"

def Logging.default : Logging := ⟨defaultLevel, false, true, none, false⟩

def Dap.default : Dap := ⟨"127.0.0.1", none, none⟩

def Inspection.default : Inspection := ⟨50, 600, 1000⟩

def Paths.default : Paths := ⟨true⟩

end Config

structure Config where
  logging : Config.Logging
  dap : Config.Dap
  inspection : Config.Inspection
  paths : Config.Paths

namespace Config

open Json Json.Fields

def default : Config := ⟨.default, .default, .default, .default⟩

/-- Names that are not there are errors; items beyond the fields of a list are not. -/
def strictness : Strictness := ⟨false, true⟩

def Logging.fields : Fields Logging :=
  Logging.mk <$> withDefault "level" text defaultLevel
    <*> withDefault "json" boolean false
    <*> withDefault "stderr" boolean true
    <*> withDefault "file" (optional (textFor "path string")) none
    <*> withDefault "include_backtrace" boolean false

def Dap.fields : Fields Dap :=
  Dap.mk <$> withDefault "host" text Dap.default.host
    <*> withDefault "port" (optional nat16) none
    <*> withDefault "secret" (optional text) none

def Inspection.fields : Fields Inspection :=
  Inspection.mk <$> withDefault "pin_cache_size" sizeNat Inspection.default.pinCacheSize
    <*> withDefault "pin_ttl_secs" nat64 Inspection.default.pinLifetime
    <*> withDefault "reclaim_interval_ms" nat64 Inspection.default.reclaimInterval

def Paths.fields : Fields Paths :=
  Paths.mk <$> withDefault "case_sensitive" boolean Paths.default.caseSensitive

def fields : Fields Config :=
  Config.mk <$> withDefault "logging" (Logging.fields.decode "LoggingConfig" strictness) .default
    <*> withDefault "dap" (Dap.fields.decode "DapConfig" strictness) .default
    <*> withDefault "inspection" (Inspection.fields.decode "InspectionConfig" strictness) .default
    <*> withDefault "paths" (Paths.fields.decode "PathsConfig" strictness) .default

/-- Why there is no configuration. -/
inductive Error where
  | unreadable (path : String) (reason : String)
  | malformed
  | wrongShape (error : DecodeError)

def Error.message : Error → String
  | .unreadable path reason => "failed to read config file " ++ path ++ ": " ++ reason
  | .malformed => "failed to parse toml config"
  | .wrongShape e => "failed to parse toml config: " ++ e.message Decimal.pointed

/-- The configuration that a text gives. -/
def ofText (s : String) : Except Error Config :=
  match Toml.read? s with
  | none => .error .malformed
  | some j =>
    match fields.decode "LumenConfig" strictness j with
    | .ok c => .ok c
    | .error e => .error (.wrongShape e)

/-- The configuration in a file, given by its path and its text if it exists. -/
def ofFile (path : String) (content : Option String) : Except Error Config :=
  match content with
  | some s => ofText s
  | none => .error (.unreadable path Path.notFound)

/-- The secret that a client must present: the configured one, else that of the environment, each
trimmed and not blank.  Without one every attach is refused. -/
def expectedSecret (c : Config) (environment : Option String) : Option String :=
  (c.dap.secret.bind Text.nonBlank?).or (environment.bind Text.nonBlank?)

/-- The time between two reclaims, in milliseconds; one at least. -/
def reclaimInterval (c : Config) : Nat := max c.inspection.reclaimInterval 1

end Config

end DebugAdapter
