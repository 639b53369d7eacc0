import DebugAdapter.Decimal.Positional
import DebugAdapter.Script.Program.Basic

/-!
# Debuggee values

A value as scripts compute with it and as the inspector sees it: what it shows, the source file it
was defined in, and which allocation it is.  One value may be part of several others.  Handles are
given per allocation, so two equal values have two handles.
-/

namespace DebugAdapter

/-- An exception raised in the debuggee. -/
structure Exception where
  typeName : String
  message : String
  detail : Option String
  stackTrace : String
  inner : Option String
  deriving DecidableEq

/-- A place in memory.  Every maker of values (the adapter, each thread) has a region of its own. -/
structure Address where
  region : Nat
  offset : Nat
  deriving DecidableEq

/-- Which allocation a value is.  An address may be used again once its value is gone; `use` tells
the allocations at one address apart. -/
structure Identity where
  address : Address
  use : Nat
  deriving DecidableEq

/-- The first allocation at an offset of a region. -/
def Identity.first (region offset : Nat) : Identity := ⟨⟨region, offset⟩, 0⟩

/-- The region of the values that the adapter makes itself. -/
def adapterRegion : Nat := 0

/-- A number, which may be known by its text alone. -/
inductive Value.Number where
  | int (n : Int)
  | real (x : Float)
  | written (text : String)

/-- The text of a number. -/
def Value.Number.text : Number → String
  | int n => toString n
  | real x => Decimal.ofFloat x
  | written s => s

mutual

inductive Value where
  | mk (identity : Identity) (source : Option String) (shape : Shape)

/-- What a value shows. -/
inductive Shape where
  | null
  | bool (b : Bool)
  | number (n : Value.Number)
  | text (s : String)
  | array (items : List Value)
  | struct (fields : List (String × Value))
  | table (columns : List String) (rows : List (List Value))
  /-- A function, and the fields by which it is shown. -/
  | function (definition : Script.FunctionDef) (fields : List (String × Value))
  | other (typeName summary : String)

end

namespace Value

instance : Inhabited Value := ⟨.mk (.first 0 0) none .null⟩

def identity : Value → Identity
  | .mk i _ _ => i

/-- The debuggee's path of the file that the value was defined in. -/
def source : Value → Option String
  | .mk _ s _ => s

def shape : Value → Shape
  | .mk _ _ s => s

end Value

namespace Shape

@[match_pattern] abbrev int (n : Int) : Shape := number (.int n)

@[match_pattern] abbrev real (x : Float) : Shape := number (.real x)

/-- The values that are shown as parts. -/
def parts : Shape → List Value
  | array items => items
  | struct fields => fields.map (·.2)
  | table _ rows => rows.flatten
  | function _ fields => fields.map (·.2)
  | _ => []

end Shape

/-- The values that a value is made of directly. -/
def Value.parts (v : Value) : List Value := v.shape.parts

end DebugAdapter
