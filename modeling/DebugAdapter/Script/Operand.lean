import DebugAdapter.Value.Basic

/-!
# Operands

What scripts can tell of values: the names of their types, which of them count as true, their text
and their equality.
-/

namespace DebugAdapter

namespace Shape

/-- The type of a value, by the name that scripts have for it. -/
def typeName : Shape → String
  | null => "null"
  | bool _ => "boolean"
  | number _ => "number"
  | text _ => "string"
  | array _ => "list"
  | struct _ => "record"
  | table _ _ => "table"
  | function _ _ => "function"
  | other name _ => name

/-- What counts as true in a branch or loop: everything but null, false, zero and what is empty. -/
def isTrue : Shape → Bool
  | null => false
  | bool b => b
  | int n => n != 0
  | real x => x != 0.0
  | number (.written s) => !s.isEmpty
  | text s => !s.isEmpty
  | array items => !items.isEmpty
  | struct fields => !fields.isEmpty
  | table _ rows => !rows.isEmpty
  | function _ _ => true
  | other _ _ => true

/-- A number as floating-point. -/
def real? : Shape → Option Float
  | int n => some (Float.ofInt n)
  | real x => some x
  | _ => none

end Shape

mutual

/-- The text of a value, as it is printed. -/
def Value.printed : Value → String
  | .mk _ _ shape => shape.printed

def Shape.printed : Shape → String
  | .null => "null"
  | .bool b => if b then "true" else "false"
  | .number n => n.text
  | .text s => s
  | .array items => "[" ++ printedItems items ++ "]"
  | .struct fields => "\x7b" ++ printedFields fields ++ "\x7d"
  | .table _ rows => "table(" ++ toString rows.length ++ " rows)"
  | .function d _ => "function " ++ d.name
  | .other _ summary => summary

def printedItems : List Value → String
  | [] => ""
  | [v] => v.printed
  | v :: rest => v.printed ++ ", " ++ printedItems rest

def printedFields : List (String × Value) → String
  | [] => ""
  | [(k, v)] => k ++ ": " ++ v.printed
  | (k, v) :: rest => k ++ ": " ++ v.printed ++ ", " ++ printedFields rest

end

mutual

/-- The equality of scripts.  Lists are equal item by item, and functions if they come from one
definition; numbers of different kinds compare as floating-point; records and tables are not
compared. -/
def Value.equals : Value → Value → Bool
  | .mk _ _ a, .mk _ _ b => a.equals b

def Shape.equals : Shape → Shape → Bool
  | .null, .null => true
  | .bool a, .bool b => a == b
  | .text a, .text b => a == b
  | .int a, .int b => a == b
  | .array as, .array bs => equalItems as bs
  | .function a _, .function b _ => a.same b
  | a, b =>
    match a.real?, b.real? with
    | some x, some y => x == y
    | _, _ => false

def equalItems : List Value → List Value → Bool
  | [], [] => true
  | a :: as, b :: bs => a.equals b && equalItems as bs
  | _, _ => false

end

end DebugAdapter
