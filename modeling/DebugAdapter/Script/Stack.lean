import DebugAdapter.Script.Eval
import DebugAdapter.Suspension.Context

/-!
# The stack of a running script

Variables belong to scopes.  The frame of a function has two of them, for its parameters and for what
is assigned in it; the variables of the script itself are global and seen from everywhere.
-/

namespace DebugAdapter.Script

/-- A scope: its variables in the order in which they came up.  A scope is one allocation for as
long as its frame lives, whatever is assigned. -/
structure Variables where
  identity : Identity
  values : List (String × Value)

namespace Variables

/-- The value of a variable; of two of one name the first counts. -/
def get? (v : Variables) (name : String) : Option Value := v.values.lookup name

def contains (v : Variables) (name : String) : Bool := (v.get? name).isSome

/-- The list with the first value of a name replaced, or with a new name at its end. -/
def setIn (name : String) (x : Value) : List (String × Value) → List (String × Value)
  | [] => [(name, x)]
  | (k, d) :: rest => if name == k then (k, x) :: rest else (k, d) :: setIn name x rest

def set (v : Variables) (name : String) (x : Value) : Variables :=
  { v with values := setIn name x v.values }

/-- A scope as one structured value. -/
def view (v : Variables) : Value := .mk v.identity none (.struct v.values)

end Variables

/-- The scopes of a function's frame. -/
structure OwnScopes where
  locals : Variables
  args : Variables

/-- A frame.  That of the script itself has no scopes of its own. -/
structure Frame where
  function : String
  file : String
  line : Nat
  own : Option OwnScopes

/-- The scopes of a frame as they are listed. -/
def Frame.scopes (f : Frame) (globals : Variables) : List Scope :=
  (match f.own with
  | some s => [⟨"Local", s.locals.view⟩, ⟨"Arguments", s.args.view⟩]
  | none => []) ++ [⟨"Variables", globals.view⟩]

/-- The frames, innermost first, and the global variables. -/
structure Stack where
  frames : List Frame
  globals : Variables

namespace Stack

/-- The value of a name as seen from a frame: of a local variable, a parameter or a global one. -/
def lookup (s : Stack) (index : Nat) (name : String) : Option Value :=
  match s.frames[index]? with
  | none => none
  | some f =>
    match f.own with
    | some own => (own.locals.get? name).or ((own.args.get? name).or (s.globals.get? name))
    | none => s.globals.get? name

/-- Assigns to a name in the innermost frame: to the parameter of that name, or else to a local
variable.  The script itself assigns to global ones. -/
def assign (s : Stack) (name : String) (x : Value) : Stack :=
  match s.frames with
  | f :: rest =>
    match f.own with
    | some own =>
      let own := if own.args.contains name then { own with args := own.args.set name x }
        else { own with locals := own.locals.set name x }
      { s with frames := { f with own := some own } :: rest }
    | none => { s with globals := s.globals.set name x }
  | [] => { s with globals := s.globals.set name x }

def push (s : Stack) (f : Frame) : Stack := { s with frames := f :: s.frames }

def pop (s : Stack) : Stack := { s with frames := s.frames.tail }

/-- Notes the line that the innermost frame executes. -/
def setLine (s : Stack) (line : Nat) : Stack :=
  match s.frames with
  | f :: rest => { s with frames := { f with line } :: rest }
  | [] => s

/-- The file of the innermost frame. -/
def file (s : Stack) : String := s.frames.head?.elim "" (·.file)

/-- The text of the stack in an exception: a line for every frame. -/
def trace (s : Stack) : String :=
  "\n".intercalate (s.frames.map fun f =>
    "  at " ++ f.function ++ " (" ++ f.file ++ ":" ++ toString f.line ++ ")")

/-- The frames as the debugger sees them. -/
def shown (s : Stack) : List StackFrame :=
  s.frames.map fun f => ⟨f.function, f.file, f.line, f.scopes s.globals⟩

/-- The scopes that are alive. -/
def held (s : Stack) : List Value :=
  s.globals.view :: s.frames.flatMap fun f =>
    match f.own with
    | some own => [own.locals.view, own.args.view]
    | none => []

end Stack

end DebugAdapter.Script
