import DebugAdapter.Script.Operand

/-!
# Evaluation

The value of an expression, given those of variables.  Evaluation makes new values but changes
nothing and calls nothing, so the debugger can do it in a thread that waits.  Whole numbers that do
not fit 64 bits are errors.
-/

namespace DebugAdapter.Script

/-- Why an expression has no value. -/
inductive EvalError where
  | undefined (name : String)
  | notRecord (field typeName : String)
  | noField (field : String)
  | badIndex (typeName : String)
  | indexOutOfRange (n : Int)
  | rowOutOfRange (n : Int)
  | notIndexable (typeName : String)
  | notNegatable (typeName : String)
  | unsupported (left right : String) (op : BinOp)
  | overflow
  | divisionByZero
  deriving DecidableEq

def EvalError.message : EvalError → String
  | undefined name => name ++ " is not defined"
  | notRecord field typeName => "cannot read field " ++ field ++ " of " ++ typeName
  | noField field => "record has no field " ++ field
  | badIndex typeName => "index must be a number, got " ++ typeName
  | indexOutOfRange n => "index " ++ toString n ++ " out of range"
  | rowOutOfRange n => "row " ++ toString n ++ " out of range"
  | notIndexable typeName => "cannot index " ++ typeName
  | notNegatable typeName => "cannot negate " ++ typeName
  | unsupported left right op =>
    "unsupported operands " ++ left ++ " and " ++ right ++ " for " ++ op.name
  | overflow => "integer overflow"
  | divisionByZero => "division by zero"

/-- Makes values at offsets of a region, counting them. -/
abbrev Eval (α : Type) := Nat → Except EvalError (α × Nat)

/-- The file that a function is defined in. -/
def fileOf? : Shape → Option String
  | .function d _ => some d.file
  | _ => none

/-- A new value. -/
def allocate (region : Nat) (s : Shape) (n : Nat) : Value × Nat :=
  (.mk (.first region n) (fileOf? s) s, n + 1)

/-- A whole number, if it fits 64 bits. -/
def checked (n : Int) : Except EvalError Shape :=
  if -Nat.pow 2 63 ≤ n ∧ n < Nat.pow 2 63 then .ok (.int n) else .error .overflow

/-- Arithmetic on numbers of which one is floating-point. -/
def realArith (op : BinOp) (x y : Float) : Float :=
  match op with
  | .sub => x - y
  | .mul => x * y
  | .div => x / y
  | _ => x + y

/-- Arithmetic on whole numbers.  Division goes toward zero. -/
def intArith (op : BinOp) (a b : Int) : Except EvalError Shape :=
  match op with
  | .sub => checked (a - b)
  | .mul => checked (a * b)
  | .div => if b = 0 then .error .divisionByZero else checked (Int.tdiv a b)
  | _ => checked (a + b)

/-- The operands do not go with the operator. -/
def mismatch (op : BinOp) (a b : Shape) : EvalError := .unsupported a.typeName b.typeName op

/-- Arithmetic on any operands. -/
def arith (op : BinOp) (a b : Shape) : Except EvalError Shape :=
  match a, b with
  | .int m, .int n => intArith op m n
  | a, b =>
    match a.real?, b.real? with
    | some x, some y => .ok (.real (realArith op x y))
    | _, _ => .error (mismatch op a b)

/-- A sum.  A text takes the text of the other operand; two lists are joined. -/
def plus (a b : Shape) : Except EvalError Shape :=
  match a, b with
  | .text s, b => .ok (.text (s ++ b.printed))
  | a, .text s => .ok (.text (a.printed ++ s))
  | .array xs, .array ys => .ok (.array (xs ++ ys))
  | a, b => arith .add a b

/-- What a comparison says of floating-point numbers; nothing holds of an undefined one. -/
def realCompare (op : BinOp) (x y : Float) : Bool :=
  match op with
  | .lt => x < y
  | .gt => y < x
  | .le => x ≤ y
  | _ => y ≤ x

/-- What a comparison says of texts. -/
def textCompare (op : BinOp) (s t : String) : Bool :=
  match op with
  | .lt => s < t
  | .gt => t < s
  | .le => s ≤ t
  | _ => t ≤ s

/-- A comparison for order: of texts, or of numbers as floating-point. -/
def ordered (op : BinOp) (a b : Shape) : Except EvalError Shape :=
  match a, b with
  | .text s, .text t => .ok (.bool (textCompare op s t))
  | a, b =>
    match a.real?, b.real? with
    | some x, some y => .ok (.bool (realCompare op x y))
    | _, _ => .error (mismatch op a b)

/-- The value of an operator. -/
def binary (op : BinOp) (a b : Shape) : Except EvalError Shape :=
  match op with
  | .eq => .ok (.bool (a.equals b))
  | .ne => .ok (.bool (!a.equals b))
  | .add => plus a b
  | .sub => arith .sub a b
  | .mul => arith .mul a b
  | .div => arith .div a b
  | op => ordered op a b

/-- The value of a minus. -/
def negated (s : Shape) : Except EvalError Shape :=
  match s with
  | .int n => checked (-n)
  | .real x => .ok (.real (-x))
  | s => .error (.notNegatable s.typeName)

/-- A field of a record, its name being compared without regard to ASCII case. -/
def fieldOf (s : Shape) (name : String) : Except EvalError Value :=
  match s with
  | .struct fields =>
    match fields.find? fun f => f.1.map Char.toLower == name.map Char.toLower with
    | some f => .ok f.2
    | none => .error (.noField name)
  | s => .error (.notRecord name s.typeName)

/-- The item of a list at a position, counted from one. -/
def itemAt? {α : Type} (xs : List α) (n : Int) : Option α :=
  if 1 ≤ n then xs[(n - 1).toNat]? else none

/-- An item of a list, or a row of a table as a new record. -/
def indexed (region : Nat) (s : Shape) (n : Int) : Eval Value := fun next =>
  if n < 1 then .error (.indexOutOfRange n)
  else
    match s with
    | .array items =>
      match itemAt? items n with
      | some v => .ok (v, next)
      | none => .error (.indexOutOfRange n)
    | .table columns rows =>
      match itemAt? rows n with
      | some row => .ok (allocate region (.struct (columns.zip row)) next)
      | none => .error (.rowOutOfRange n)
    | s => .error (.notIndexable s.typeName)

mutual

/-- The value of an expression; new values are of the given region. -/
def eval (region : Nat) (lookup : String → Option Value) : Expr → Eval Value
  | .null, n => .ok (allocate region .null n)
  | .bool b, n => .ok (allocate region (.bool b) n)
  | .int k, n => .ok (allocate region (.int k) n)
  | .decimal digits places, n =>
    .ok (allocate region (.real (Float.ofScientific digits true places)) n)
  | .str s, n => .ok (allocate region (.text s) n)
  | .list items, n => do
    let (values, n) ← evalAll region lookup items n
    return allocate region (.array values) n
  | .record fields, n => do
    let (fields, n) ← evalFields region lookup fields n
    return allocate region (.struct fields) n
  | .table columns rows, n => do
    let (rows, n) ← evalRows region lookup rows n
    return allocate region (.table columns rows) n
  | .var name, n =>
    match lookup name with
    | some v => .ok (v, n)
    | none => .error (.undefined name)
  | .field target name, n => do
    let (v, n) ← eval region lookup target n
    return (← fieldOf v.shape name, n)
  | .index target position, n => do
    let (v, n) ← eval region lookup target n
    let (i, n) ← eval region lookup position n
    match i.shape with
    | .int k => indexed region v.shape k n
    | s => throw (.badIndex s.typeName)
  | .neg operand, n => do
    let (v, n) ← eval region lookup operand n
    return allocate region (← negated v.shape) n
  | .binary op left right, n => do
    let (a, n) ← eval region lookup left n
    let (b, n) ← eval region lookup right n
    return allocate region (← binary op a.shape b.shape) n

def evalAll (region : Nat) (lookup : String → Option Value) : List Expr → Eval (List Value)
  | [], n => .ok ([], n)
  | e :: es, n => do
    let (v, n) ← eval region lookup e n
    let (vs, n) ← evalAll region lookup es n
    return (v :: vs, n)

def evalFields (region : Nat) (lookup : String → Option Value) :
    List (String × Expr) → Eval (List (String × Value))
  | [], n => .ok ([], n)
  | (k, e) :: es, n => do
    let (v, n) ← eval region lookup e n
    let (vs, n) ← evalFields region lookup es n
    return ((k, v) :: vs, n)

def evalRows (region : Nat) (lookup : String → Option Value) :
    List (List Expr) → Eval (List (List Value))
  | [], n => .ok ([], n)
  | r :: rs, n => do
    let (v, n) ← evalAll region lookup r n
    let (vs, n) ← evalRows region lookup rs n
    return (v :: vs, n)

end

end DebugAdapter.Script
