/-!
# Expressions
-/

namespace DebugAdapter.Script

inductive BinOp where
  | add | sub | mul | div
  | eq | ne | lt | gt | le | ge
  deriving DecidableEq

/-- The name of an operator in messages. -/
def BinOp.name : BinOp → String
  | add => "Add"
  | sub => "Sub"
  | mul => "Mul"
  | div => "Div"
  | eq => "Eq"
  | ne => "Ne"
  | lt => "Lt"
  | gt => "Gt"
  | le => "Le"
  | ge => "Ge"

inductive Expr where
  | null
  | bool (b : Bool)
  | int (n : Nat)
  | decimal (digits places : Nat)
  | str (s : String)
  | list (items : List Expr)
  | record (fields : List (String × Expr))
  | table (columns : List String) (rows : List (List Expr))
  | var (name : String)
  | field (target : Expr) (name : String)
  | index (target position : Expr)
  | neg (operand : Expr)
  | binary (op : BinOp) (left right : Expr)

/-- A call of a function by its name. -/
structure Call where
  function : String
  args : List Expr

end DebugAdapter.Script
