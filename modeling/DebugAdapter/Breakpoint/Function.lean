import DebugAdapter.Breakpoint.Line
import DebugAdapter.Text.Case

/-!
# Function breakpoints

Breakpoints on the entry of functions, by name and without regard to case.  A name may be qualified
by a component, and a star at its end stands for any continuation.  The whole set is replaced at
once.  The sizes of the names bound the functions that are looked up at all.
-/

namespace DebugAdapter

/-- A function breakpoint as the client asks for it. -/
structure FunctionBreakpoint.Request where
  name : String
  condition : Option String

/-- A function breakpoint as it is reported to the client. -/
structure FunctionBreakpoint where
  id : Nat
  name : String
  verified : Bool

/-- What a function breakpoint matches: names in lowercase, without the star. -/
structure FunctionPattern where
  name : String
  component : Option String
  wildcard : Bool
  deriving DecidableEq

namespace FunctionPattern

/-- The pattern that a trimmed name writes.  The last dot separates the component, unless nothing
stands before it. -/
def ofName (full : String) : FunctionPattern :=
  let cs := full.toList
  let last := Text.afterLast (· == '.') cs
  let before := cs.take (cs.length - last.length - 1)
  let (component, function) :=
    if last.length < cs.length && !before.isEmpty then
      (some (Text.lower (String.ofList before)), last)
    else (none, cs)
  { name := Text.lower (String.ofList (Text.dropTrailing (· == '*') function))
    component
    wildcard := function.getLast? == some '*' }

/-- The pattern matches a function, given in lowercase with its component. -/
def matchesLower (p : FunctionPattern) (function : String) (component : Option String) : Bool :=
  (p.component.isNone || p.component == component) &&
    if p.wildcard then p.name.toList.isPrefixOf function.toList else p.name == function

end FunctionPattern

namespace FunctionBreakpoints

structure Entry where
  id : Nat
  pattern : FunctionPattern
  condition : Option String

end FunctionBreakpoints

/-- The function breakpoints in force, with bounds on the size of the names they match; there is no
upper bound behind a wildcard. -/
structure FunctionBreakpoints where
  entries : List FunctionBreakpoints.Entry
  minSize : Option Nat
  maxSize : Option Nat
  nextId : Nat

namespace FunctionBreakpoints

def new : FunctionBreakpoints := ⟨[], none, some 0, 1⟩

def Entry.hit (e : Entry) : Hit := ⟨e.id, e.condition⟩

/-- The entries for the requests, with identifiers from `id` on. -/
def created (id : Nat) : List FunctionBreakpoint.Request → List Entry
  | [] => []
  | q :: qs =>
    ⟨id, .ofName (Text.trim q.name), q.condition.bind Text.nonBlank?⟩ :: created (id + 1) qs

/-- The least size of a name. -/
def leastSize (entries : List Entry) : Option Nat :=
  (entries.map (·.pattern.name.utf8ByteSize)).min?

/-- The greatest size of a name so far, after one more entry.  A wildcard lifts the bound; an exact
name never lowers it. -/
def widen (bound : Option Nat) (e : Entry) : Option Nat :=
  if e.pattern.wildcard then none else bound.map (max · e.pattern.name.utf8ByteSize)

/-- Replaces all function breakpoints. -/
def replace (r : FunctionBreakpoints) (requested : List FunctionBreakpoint.Request) :
    List FunctionBreakpoint × FunctionBreakpoints :=
  let entries := created r.nextId requested
  (entries.zipWith (fun e q => ⟨e.id, Text.trim q.name, true⟩) requested,
    { entries
      minSize := leastSize entries
      maxSize := entries.foldl widen (some 0)
      nextId := r.nextId + requested.length })

def clear (r : FunctionBreakpoints) : FunctionBreakpoints :=
  { r with entries := [], minSize := none, maxSize := some 0 }

def isEmpty (r : FunctionBreakpoints) : Bool := r.entries.isEmpty

/-- The first breakpoint that matches a function of a component.  The bounds are compared with the
size of the name as it is given. -/
def check (r : FunctionBreakpoints) (function : String) (component : Option String) :
    Option Hit :=
  let size := function.utf8ByteSize
  if r.entries.isEmpty || r.minSize.any (size < ·) || r.maxSize.any (· < size) then none
  else
    let function := Text.lower function
    let component := component.map Text.lower
    (r.entries.find? (·.pattern.matchesLower function component)).map Entry.hit

end FunctionBreakpoints

end DebugAdapter
