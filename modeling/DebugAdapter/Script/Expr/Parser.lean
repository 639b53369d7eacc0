import DebugAdapter.Script.Expr.Basic
import DebugAdapter.Script.Token

/-!
# Reading expressions

At most one comparison, of sums of products.  A minus before an operand binds tighter than the
product, and field access and indexing tighter than the minus.  Sums, products and accesses
associate to the left.  Every reader takes the tokens and returns those it leaves.

The readers call each other along the levels of the grammar, and every turn takes a token, so fuel
of eight for every token (and the end) is never used up.
-/

namespace DebugAdapter.Script

/-- A reader of tokens: what it reads, and the tokens after it. -/
abbrev Reader (α : Type) := List Token → Except ExprError (α × List Token)

/-- The comparison that a token stands for. -/
def comparison? : Token → Option BinOp
  | .punct .eq => some .eq
  | .punct .ne => some .ne
  | .punct .lt => some .lt
  | .punct .gt => some .gt
  | .punct .le => some .le
  | .punct .ge => some .ge
  | _ => none

/-- The operator of a sum that a token stands for. -/
def additive? : Token → Option BinOp
  | .punct .plus => some .add
  | .punct .minus => some .sub
  | _ => none

/-- The operator of a product that a token stands for. -/
def multiplicative? : Token → Option BinOp
  | .punct .star => some .mul
  | .punct .slash => some .div
  | _ => none

/-- Takes a punctuation mark off, which has to be there. -/
def expect (p : Punct) : List Token → Except ExprError (List Token)
  | .punct q :: rest => if q = p then .ok rest else .error (.expected p)
  | _ => .error (.expected p)

def readName : Reader String
  | .ident name :: rest => .ok (name, rest)
  | _ => .error .expectedName

/-- The items of a list after its opening mark: none, or items with commas between them.  `fuel`
bounds their number. -/
def readItems {α : Type} (item : Reader α) (close : Punct) : Nat → Reader (List α)
  | 0, _ => .error .unexpectedEnd
  | fuel + 1, ts => do
    let (x, ts) ← item ts
    match ts with
    | .punct q :: rest =>
      if q = close then return ([x], rest)
      else if q = .comma then
        let (xs, rest) ← readItems item close fuel rest
        return (x :: xs, rest)
      else throw (.expected .comma)
    | _ => throw (.expected .comma)

/-- A list after its opening mark. -/
def readList {α : Type} (item : Reader α) (close : Punct) (fuel : Nat) : Reader (List α)
  | .punct q :: rest =>
    if q = close then .ok ([], rest) else readItems item close fuel (.punct q :: rest)
  | ts => readItems item close fuel ts

/-- A column of a table: a text or a name. -/
def columnName? : Expr → Except ExprError String
  | .str name => .ok name
  | .var name => .ok name
  | _ => .error .badColumn

/-- The cells of a row, as many as there are columns. -/
def rowCells (width : Nat) : Expr → Except ExprError (List Expr)
  | .list cells => if cells.length = width then .ok cells else .error (.badRow width)
  | _ => .error (.badRow width)

/-- The table that a list of arguments makes: the columns first and then the rows. -/
def tableOf : List Expr → Except ExprError Expr
  | .list header :: rest => do
    let columns ← header.mapM columnName?
    let rows ← rest.mapM (rowCells columns.length)
    return .table columns rows
  | _ => .error .noColumns

mutual

def readExpr : Nat → Reader Expr
  | 0, _ => .error .unexpectedEnd
  | fuel + 1, ts => do
    let (left, ts) ← readSum fuel ts
    match ts with
    | t :: rest =>
      match comparison? t with
      | some op =>
        let (right, rest) ← readSum fuel rest
        return (.binary op left right, rest)
      | none => return (left, t :: rest)
    | [] => return (left, [])

def readSum : Nat → Reader Expr
  | 0, _ => .error .unexpectedEnd
  | fuel + 1, ts => do
    let (left, ts) ← readProduct fuel ts
    readTerms fuel left ts

/-- The further terms of a sum that begins with `left`. -/
def readTerms : Nat → Expr → Reader Expr
  | 0, _, _ => .error .unexpectedEnd
  | _ + 1, left, [] => .ok (left, [])
  | fuel + 1, left, t :: rest =>
    match additive? t with
    | some op => do
      let (right, rest) ← readProduct fuel rest
      readTerms fuel (.binary op left right) rest
    | none => .ok (left, t :: rest)

def readProduct : Nat → Reader Expr
  | 0, _ => .error .unexpectedEnd
  | fuel + 1, ts => do
    let (left, ts) ← readUnary fuel ts
    readFactors fuel left ts

/-- The further factors of a product that begins with `left`. -/
def readFactors : Nat → Expr → Reader Expr
  | 0, _, _ => .error .unexpectedEnd
  | _ + 1, left, [] => .ok (left, [])
  | fuel + 1, left, t :: rest =>
    match multiplicative? t with
    | some op => do
      let (right, rest) ← readUnary fuel rest
      readFactors fuel (.binary op left right) rest
    | none => .ok (left, t :: rest)

def readUnary : Nat → Reader Expr
  | 0, _ => .error .unexpectedEnd
  | fuel + 1, .punct .minus :: rest => do
    let (e, rest) ← readUnary fuel rest
    return (.neg e, rest)
  | fuel + 1, ts => do
    let (e, ts) ← readPrimary fuel ts
    readAccesses fuel e ts

/-- The field accesses and indices behind an operand. -/
def readAccesses : Nat → Expr → Reader Expr
  | 0, _, _ => .error .unexpectedEnd
  | fuel + 1, e, .punct .dot :: rest => do
    let (name, rest) ← readName rest
    readAccesses fuel (.field e name) rest
  | fuel + 1, e, .punct .openBracket :: rest => do
    let (position, rest) ← readExpr fuel rest
    let rest ← expect .closeBracket rest
    readAccesses fuel (.index e position) rest
  | _ + 1, e, ts => .ok (e, ts)

def readPrimary : Nat → Reader Expr
  | 0, _ => .error .unexpectedEnd
  | _ + 1, .int n :: rest => .ok (.int n, rest)
  | _ + 1, .decimal digits places :: rest => .ok (.decimal digits places, rest)
  | _ + 1, .str s :: rest => .ok (.str s, rest)
  | fuel + 1, .ident name :: rest =>
    if name = "null" then .ok (.null, rest)
    else if name = "true" then .ok (.bool true, rest)
    else if name = "false" then .ok (.bool false, rest)
    else if name = "table" then
      match rest with
      | .punct .openParen :: rest => do
        let (args, rest) ← readList (readExpr fuel) .closeParen fuel rest
        return (← tableOf args, rest)
      | _ => .ok (.var name, rest)
    else .ok (.var name, rest)
  | fuel + 1, .punct .openParen :: rest => do
    let (e, rest) ← readExpr fuel rest
    return (e, ← expect .closeParen rest)
  | fuel + 1, .punct .openBracket :: rest => do
    let (items, rest) ← readList (readExpr fuel) .closeBracket fuel rest
    return (.list items, rest)
  | fuel + 1, .punct .openBrace :: rest => do
    let (fields, rest) ← readList (readField fuel) .closeBrace fuel rest
    return (.record fields, rest)
  | _ + 1, .punct p :: _ => .error (.unexpectedToken p)
  | _ + 1, [] => .error .unexpectedEnd

/-- A field of a record: its name, a colon and its value. -/
def readField : Nat → Reader (String × Expr)
  | 0, _ => .error .unexpectedEnd
  | fuel + 1, .ident name :: rest => do
    let rest ← expect .colon rest
    let (e, rest) ← readExpr fuel rest
    return ((name, e), rest)
  | fuel + 1, .str name :: rest => do
    let rest ← expect .colon rest
    let (e, rest) ← readExpr fuel rest
    return ((name, e), rest)
  | _ + 1, _ => .error .expectedFieldName

end

/-- Fuel that suffices for so many tokens. -/
def enoughFuel (ts : List Token) : Nat := 8 * (ts.length + 1)

/-- What a reader reads from all the tokens. -/
def readAll {α : Type} (r : Reader α) (ts : List Token) : Except ExprError α := do
  let (x, rest) ← r ts
  if rest.isEmpty then return x else throw .trailingInput

/-- The expression that the tokens make. -/
def Expr.ofTokens (ts : List Token) : Except ExprError Expr := readAll (readExpr (enoughFuel ts)) ts

/-- The expression that a text writes. -/
def Expr.ofText (cs : List Char) : Except ExprError Expr := do Expr.ofTokens (← tokens cs)

/-- A name and a list of items in parentheses behind it. -/
def readApplied {α : Type} (item : Reader α) (fuel : Nat) : Reader (String × List α) := fun ts => do
  let (name, ts) ← readName ts
  let ts ← expect .openParen ts
  let (items, ts) ← readList item .closeParen fuel ts
  return ((name, items), ts)

/-- The call that a text writes. -/
def Call.ofText (cs : List Char) : Except ExprError Call := do
  let ts ← tokens cs
  let fuel := enoughFuel ts
  let (function, args) ← readAll (readApplied (readExpr fuel) fuel) ts
  return ⟨function, args⟩

/-- The name and the parameters of a function, as its definition begins. -/
def readSignature (cs : List Char) : Except ExprError (String × List String) := do
  let ts ← tokens cs
  readAll (readApplied readName (enoughFuel ts)) ts

end DebugAdapter.Script
