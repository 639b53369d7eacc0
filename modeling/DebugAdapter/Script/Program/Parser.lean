import DebugAdapter.Script.Expr.Parser
import DebugAdapter.Script.Program.Basic

/-!
# Reading programs

Every line that is neither blank nor a comment is a statement or closes a block.  The bodies of
functions and loops are closed by `end`, and so are branches, which may be divided by `else`.
-/

namespace DebugAdapter.Script

/-- Why a script is no program. -/
inductive Problem where
  | expr (e : ExprError)
  | missingEnd
  | badLet
  | badName (name : String)
  | badThrow
  | unexpectedWord (word : String)
  | unknownStatement (word : String)
  deriving DecidableEq

def Problem.message : Problem → String
  | expr e => e.message
  | missingEnd => "block is missing `end`"
  | badLet => "expected `let name = value`"
  | badName name => "invalid variable name " ++ Text.quoted name
  | badThrow => "expected `throw Type [message]`"
  | unexpectedWord word => "unexpected `" ++ word ++ "`"
  | unknownStatement word => "unknown statement `" ++ word ++ "`"

/-- A problem and the line it is on. -/
structure SyntaxError where
  line : Nat
  problem : Problem
  deriving DecidableEq

/-- A line of a script: its number, and its text without the blanks around it. -/
structure Line where
  number : Nat
  text : List Char
  deriving DecidableEq

/-- The lines that count: neither blank nor comments. -/
def significantLines (source : List Char) : List Line :=
  ((Text.lines source).mapIdx fun i cs => (⟨i + 1, Text.trimChars cs⟩ : Line)).filter fun l =>
    !l.text.isEmpty && l.text.head? != some '#'

/-- What a block stands in, and so what can close it. -/
inductive Enclosure where
  | script
  | body
  | branch
  deriving DecidableEq

/-- What closes a block. -/
inductive Closer where
  | atEnd
  | atElse
  deriving DecidableEq

/-- Whether a line closes a block. -/
def closer? (e : Enclosure) (text : List Char) : Option Closer :=
  if e = .script then none
  else if text = "end".toList then some .atEnd
  else if e = .branch ∧ text = "else".toList then some .atElse
  else none

/-- Names the line of a problem. -/
def atLine {α : Type} (line : Nat) : Except ExprError α → Except SyntaxError α
  | .ok a => .ok a
  | .error e => .error ⟨line, .expr e⟩

/-- An assignment, after its keyword. -/
def readLet (n : Nat) (rest : List Char) : Except SyntaxError Stmt :=
  match Text.splitFirst? (· == '=') rest with
  | none => .error ⟨n, .badLet⟩
  | some (name, value) =>
    let name := Text.trimChars name
    let value := Text.trimChars value
    if !isName name then .error ⟨n, .badName (String.ofList name)⟩
    else if "call ".toList.isPrefixOf value then do
      return .assignCall n (String.ofList name) (← atLine n (Call.ofText (value.drop 5)))
    else do
      return .assign n (String.ofList name) (← atLine n (Expr.ofText value))

/-- A raised exception, after its keyword. -/
def readThrow (n : Nat) (rest : List Char) : Except SyntaxError Stmt :=
  let (typeName, message) := Text.firstWord rest
  if !isName typeName then .error ⟨n, .badThrow⟩
  else if message.isEmpty then .ok (.throw n (String.ofList typeName) none)
  else do
    return .throw n (String.ofList typeName) (some (← atLine n (Expr.ofText message)))

/-- A statement without a block, given its keyword and what follows that. -/
def readSimple (n : Nat) (word : String) (rest : List Char) : Except SyntaxError Stmt :=
  match word with
  | "let" => readLet n rest
  | "call" => do return .call n (← atLine n (Call.ofText rest))
  | "print" => do return .print n (← atLine n (Expr.ofText rest))
  | "return" =>
    if rest.isEmpty then .ok (.ret n none)
    else do return .ret n (some (← atLine n (Expr.ofText rest)))
  | "throw" => readThrow n rest
  | "break" => .ok (.halt n (if rest.isEmpty then none else some (String.ofList rest)))
  | "sleep" => do return .sleep n (← atLine n (Expr.ofText rest))
  | "end" => .error ⟨n, .unexpectedWord word⟩
  | "else" => .error ⟨n, .unexpectedWord word⟩
  | _ => .error ⟨n, .unknownStatement word⟩

/-- A block and the lines after it: its statements and what closed it.  `opened` is the line that
opened it.  Every turn takes a line, so fuel of one more than there are lines is never used up. -/
def readBlock (e : Enclosure) (opened : Nat) :
    Nat → List Line → Except SyntaxError (List Stmt × Closer × List Line)
  | 0, _ => .error ⟨opened, .missingEnd⟩
  | _ + 1, [] =>
    if e = .script then .ok ([], .atEnd, []) else .error ⟨opened, .missingEnd⟩
  | fuel + 1, l :: ls =>
    match closer? e l.text with
    | some c => .ok ([], c, ls)
    | none => do
      let n := l.number
      let (word, rest) := Text.firstWord l.text
      let (s, ls) ← match String.ofList word with
        | "func" => do
          let (name, params) ← atLine n (readSignature rest)
          let (body, _, ls) ← readBlock .body n fuel ls
          pure (Stmt.func n name params body, ls)
        | "if" => do
          let test ← atLine n (Expr.ofText rest)
          let (yes, c, ls) ← readBlock .branch n fuel ls
          match c with
          | .atElse =>
            let (no, _, ls) ← readBlock .body n fuel ls
            pure (Stmt.branch n test yes no, ls)
          | .atEnd => pure (Stmt.branch n test yes [], ls)
        | "while" => do
          let test ← atLine n (Expr.ofText rest)
          let (body, _, ls) ← readBlock .body n fuel ls
          pure (Stmt.loop n test body, ls)
        | word => do pure (← readSimple n word rest, ls)
      let (rest, c, ls) ← readBlock e opened fuel ls
      return (s :: rest, c, ls)

/-- The program that a script writes; `file` is the path it is loaded under. -/
def Program.ofText (file source : String) : Except SyntaxError Program := do
  let lines := significantLines source.toList
  let (body, _, _) ← readBlock .script 1 (lines.length + 1) lines
  return ⟨file, body⟩

end DebugAdapter.Script
