import DebugAdapter.Breakpoint.Function
import DebugAdapter.Json.Decode
import DebugAdapter.Wire.Message

/-!
# Arguments

The records that the commands take.  Each has the name by which errors call it.
-/

namespace DebugAdapter.Wire

open Json Json.Fields

/-- A decoder of a record of the given name. -/
def record {α : Type} (name : String) (r : Json.Fields α) : Decoder α :=
  r.decode name Request.strictness

/-- A source file by its path. -/
def source : Decoder (Option String) :=
  record "SourceArgument" (withDefault "path" (optional text) none)

/-- A source file that may be left out; it has an empty path then. -/
def sourceField : Json.Fields String := (·.getD "") <$> withDefault "source" source none

def lineBreakpoint : Decoder Breakpoint.Request :=
  record "SourceBreakpointArgument" (Breakpoint.Request.mk <$> required "line" nat32
    <*> withDefault "condition" (optional text) none)

structure SetBreakpoints where
  path : String
  breakpoints : List Breakpoint.Request
  lines : List Nat

def SetBreakpoints.decode : Decoder SetBreakpoints :=
  record "SetBreakpointsArguments" (SetBreakpoints.mk <$> sourceField
    <*> withDefault "breakpoints" (list lineBreakpoint) []
    <*> withDefault "lines" (list nat32) [])

/-- The breakpoints that are asked for; plain lines count only if there are no others. -/
def SetBreakpoints.requested (a : SetBreakpoints) : List Breakpoint.Request :=
  if a.breakpoints.isEmpty then a.lines.map (⟨·, none⟩) else a.breakpoints

def functionBreakpoint : Decoder FunctionBreakpoint.Request :=
  record "FunctionBreakpointArgument" (FunctionBreakpoint.Request.mk <$> required "name" text
    <*> withDefault "condition" (optional text) none)

def functionBreakpoints : Decoder (List FunctionBreakpoint.Request) :=
  record "SetFunctionBreakpointsArguments"
    (withDefault "breakpoints" (list functionBreakpoint) [])

def exceptionFilters : Decoder (List String) :=
  record "SetExceptionBreakpointsArguments" (withDefault "filters" (list text) [])

structure Locations where
  path : String
  line : Nat
  endLine : Option Nat

def Locations.decode : Decoder Locations :=
  record "BreakpointLocationsArguments" (Locations.mk <$> sourceField <*> required "line" nat32
    <*> withDefault "endLine" (optional nat32) none)

/-- A thread; none is zero. -/
def thread : Decoder ThreadId := record "ThreadArguments" (withDefault "threadId" int64 0)

structure StackTrace where
  thread : ThreadId
  start : Nat
  levels : Option Nat

def StackTrace.decode : Decoder StackTrace :=
  record "StackTraceArguments" (StackTrace.mk <$> required "threadId" int64
    <*> withDefault "startFrame" sizeNat 0 <*> withDefault "levels" (optional sizeNat) none)

def frameId : Decoder Int := record "ScopesArguments" (required "frameId" int64)

structure Listing where
  reference : Nat
  filter : Option String
  start : Option Nat
  count : Option Nat

def Listing.decode : Decoder Listing :=
  record "VariablesArguments" (Listing.mk <$> required "variablesReference" nat64
    <*> withDefault "filter" (optional text) none
    <*> withDefault "start" (optional sizeNat) none
    <*> withDefault "count" (optional sizeNat) none)

structure Evaluation where
  expression : String
  frame : Option Int

def Evaluation.decode : Decoder Evaluation :=
  record "EvaluateArguments" (Evaluation.mk <$> required "expression" text
    <*> withDefault "frameId" (optional int64) none)

end DebugAdapter.Wire
