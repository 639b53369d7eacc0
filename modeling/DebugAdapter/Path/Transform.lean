import DebugAdapter.Path.Canonical
import DebugAdapter.Json.Basic

/-!
# Path transforms

The client and the debuggee may see the same files under different roots.  A transform exchanges
one leading part of a path for another, in either direction; a mapper tries a list of them in
order.  Paths of the debuggee's side are kept canonical.
-/

namespace DebugAdapter.Path

/-- Two leading parts that name the same place: as the client and as the debuggee write it. -/
structure Transform where
  client : String
  debuggee : String
  deriving DecidableEq

namespace Transform

/-- Reads one transform.  The older name of the debuggee's part counts before the present one,
even if it does not hold a text. -/
def ofJson? (j : Json) : Option Transform := do
  let client ← (← j.get? "idePrefix").str?
  let debuggee ← (← (j.get? "cfPrefix").or (j.get? "serverPrefix")).str?
  return ⟨client, debuggee⟩

/-- Reads one transform or a list of them.  What is not a transform is left out. -/
def listOfJson : Option Json → List Transform
  | some (.arr items) => items.filterMap ofJson?
  | some (.obj members) => (ofJson? (.obj members)).toList
  | _ => []

def toDebuggee? (fold : Folding) (t : Transform) (path : String) : Option String :=
  (rest? fold path t.client).map (t.debuggee ++ ·)

def toClient? (fold : Folding) (t : Transform) (path : String) : Option String :=
  (rest? fold path t.debuggee).map (t.client ++ ·)

/-- The transform as it is reported to the client. -/
def describe (t : Transform) : String :=
  "PathTransform\x7bidePrefix='" ++ t.client ++ "', serverPrefix='" ++ t.debuggee ++ "'\x7d"

end Transform

/-- The transforms of a session, and how letter case counts. -/
structure Mapper where
  transforms : List Transform
  fold : Folding

namespace Mapper

/-- The canonical path on the debuggee's side of a path as the client writes it.  The first
transform that applies counts. -/
def toDebuggee (m : Mapper) (path : String) : String :=
  canonical m.fold ((m.transforms.findSome? (·.toDebuggee? m.fold path)).getD path)

/-- The client's path for a path of the debuggee.  It is not made canonical. -/
def toClient (m : Mapper) (path : String) : String :=
  (m.transforms.findSome? (·.toClient? m.fold path)).getD path

end Mapper

end DebugAdapter.Path
