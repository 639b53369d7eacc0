import DebugAdapter.Debugger.Requests
import DebugAdapter.Json.Basic

/-!
# Rows

How the debugger's answers are written as JSON.
-/

namespace DebugAdapter

open Json

/-- The members that say what a value shows and how to list its children. -/
def Variable.members (v : Variable) (text : String) : List (String × Option Json) :=
  [(text, some (.str v.value)), ("type", some (.str v.typeName)),
    ("variablesReference", some (ofNat v.reference)), ("namedVariables", v.named.map ofNat),
    ("indexedVariables", v.indexed.map ofNat)]

/-- A row of a listing. -/
def Variable.toJson (v : Variable) : Json :=
  ofSome (("name", some (.str v.name)) :: v.members "value")

/-- The result of an evaluation. -/
def Variable.resultJson (v : Variable) : Json := ofSome (v.members "result")

def Thread.Row.toJson (r : Thread.Row) : Json :=
  ofMembers [("id", ofInt r.id), ("name", .str r.name)]

namespace Debugger

def ScopeRow.toJson (r : ScopeRow) : Json :=
  ofMembers [("name", .str r.name), ("variablesReference", ofNat r.reference),
    ("expensive", .bool false)]

/-- A frame stands at the first column of its line. -/
def FrameRow.toJson (r : FrameRow) : Json :=
  ofMembers [("id", ofInt r.id), ("name", .str r.name), ("line", ofNat r.line),
    ("column", ofNat 1), ("source", ofMembers [("name", .str (Path.baseName r.path)),
      ("path", .str r.path)])]

def ExceptionDetails.toJson (e : ExceptionDetails) : Json :=
  ofSome [("message", some (.str e.message)), ("typeName", some (.str e.typeName)),
    ("stackTrace", some (.str e.stackTrace)), ("innerException", e.inner.map .str)]

/-- Exceptions stop a thread only if nobody handles them. -/
def ExceptionInfo.toJson (e : ExceptionInfo) : Json :=
  ofSome [("exceptionId", some (.str e.id)), ("description", some (.str e.description)),
    ("breakMode", some (.str "unhandled")), ("details", e.details.map ExceptionDetails.toJson)]

def Bindings.toJson (b : Bindings) : Json :=
  ofMembers [("canonicalFilenames", ofList .str b.files),
    ("breakpoints", ofList (fun p : Breakpoint => ofMembers [("file", .str p.file),
      ("line", ofNat p.line), ("id", ofNat p.id), ("verified", .bool p.verified)]) b.breakpoints),
    ("pathTransforms", ofList (fun t => .str t.describe) b.transforms)]

end Debugger

end DebugAdapter
