import DebugAdapter.Value.Basic
import DebugAdapter.Decimal.Reading
import DebugAdapter.Text.Blank
import DebugAdapter.Text.Case

/-!
# Truth of conditions

Which values a condition may have: booleans, numbers (true unless zero) and the texts that spell one
of these or say yes or no.  Anything else is not a condition, and why is told.
-/

namespace DebugAdapter.Value

/-- What cannot be taken for a truth value. -/
inductive NotBoolean where
  | null
  | number (written : String)
  | text
  | array
  | struct
  | table
  | other (typeName : String)

def NotBoolean.message : NotBoolean → String
  | .null => "cannot convert null to boolean"
  | .number written => "cannot convert number " ++ written ++ " to boolean"
  | .text => "cannot convert string to boolean"
  | .array => "cannot convert array to boolean"
  | .struct => "cannot convert struct to boolean"
  | .table => "cannot convert table to boolean"
  | .other typeName => "cannot convert " ++ typeName ++ " to boolean"

/-- The truth value that a text spells. -/
def spelledTruth? (text : String) : Option Bool :=
  let word := Text.asciiLower (Text.trim text)
  if word == "true" || word == "yes" then some true
  else if word == "false" || word == "no" then some false
  else Decimal.isNonzero? (Text.trim word)

/-- The truth value of what a value shows. -/
def shapeTruth : Shape → Except NotBoolean Bool
  | .bool b => .ok b
  | .number n =>
    match Decimal.isNonzero? (Text.trim n.text) with
    | some b => .ok b
    | none => .error (.number n.text)
  | .text s =>
    match spelledTruth? s with
    | some b => .ok b
    | none => .error .text
  | .null => .error .null
  | .array _ => .error .array
  | .struct _ | .function _ _ => .error .struct
  | .table _ _ => .error .table
  | .other typeName _ => .error (.other typeName)

def truth (v : Value) : Except NotBoolean Bool := shapeTruth v.shape

end DebugAdapter.Value
