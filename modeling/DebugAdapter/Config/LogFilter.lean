import DebugAdapter.Config.Basic
import DebugAdapter.Text.Case

/-!
# Log filters

A filter is a list of directives, each a level or a target with a level.  The environment's
directives come after the configured ones, and the later of two directives for one target counts.
-/

namespace DebugAdapter.Config

/-- A directive: a level for one target, or for everything. -/
structure Directive where
  target : Option String
  level : String
  deriving DecidableEq

/-- A level as it is configured, some words for levels being replaced by their proper names.
A blank level is the default one. -/
def normalizeLevel (level : String) : String :=
  let trimmed := Text.trim level
  if trimmed.isEmpty then defaultLevel
  else
    let word := Text.asciiLower trimmed
    if ["trace", "debug", "info", "warn", "error"].contains word then word
    else if word == "warning" then "warn"
    else trimmed

/-- The proper name of a level, which may also be given by its number. -/
def levelName? (s : String) : Option String :=
  let names := ["off", "error", "warn", "info", "debug", "trace"]
  let word := Text.asciiLower s
  if names.contains word then some word
  else (Decimal.readNat? 6 s.toList).bind (names[·]?)

/-- Reads one directive.  A target without a level logs everything. -/
def Directive.ofText? (s : String) : Option Directive :=
  match Text.splitFirst? (· == '=') s.toList with
  | some (target, level) =>
    if target.isEmpty then none
    else (levelName? (String.ofList level)).map (⟨some (String.ofList target), ·⟩)
  | none =>
    match levelName? s with
    | some level => some ⟨none, level⟩
    | none => if s.isEmpty then none else some ⟨some s, "trace"⟩

/-- The directives between commas. -/
def splitDirectives (s : String) : List String :=
  ((s.splitOn ",").map Text.trim).filter (!·.isEmpty)

/-- The directives of a text, the later of two for one target counting. -/
def directives? (s : String) : Option (List Directive) := do
  let all ← (splitDirectives s).mapM Directive.ofText?
  return all.foldl (fun acc d => acc.filter (·.target != d.target) ++ [d]) []

def Directive.render (d : Directive) : String :=
  match d.target with
  | some t => t ++ "=" ++ d.level
  | none => d.level

/-- The written form: targets first. -/
def renderDirectives (ds : List Directive) : String :=
  let (targets, levels) := ds.partition (·.target.isSome)
  ",".intercalate ((targets ++ levels).map Directive.render)

/-- The filter of the configured level alone.  One that cannot be read counts as the default. -/
def configuredFilter (c : Config) : List Directive :=
  (directives? (normalizeLevel c.logging.level)).getD [⟨none, defaultLevel⟩]

/-- The effective filter: the configured level with the environment's directives merged over it. -/
def logFilter (c : Config) (environment : Option String) : List Directive :=
  match environment.bind Text.nonBlank? with
  | none => c.configuredFilter
  | some extra =>
    (directives? (normalizeLevel c.logging.level ++ "," ++ extra)).or (directives? extra)
      |>.getD c.configuredFilter

end DebugAdapter.Config
