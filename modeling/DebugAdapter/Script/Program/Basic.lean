import DebugAdapter.Script.Expr.Basic

/-!
# Programs

A program is a list of statements, each on a line of its own.  Some contain blocks of further
statements.
-/

namespace DebugAdapter.Script

inductive Stmt where
  | func (line : Nat) (name : String) (params : List String) (body : List Stmt)
  | branch (line : Nat) (test : Expr) (yes no : List Stmt)
  | loop (line : Nat) (test : Expr) (body : List Stmt)
  | assign (line : Nat) (name : String) (value : Expr)
  | assignCall (line : Nat) (name : String) (call : Call)
  | call (line : Nat) (call : Call)
  | print (line : Nat) (value : Expr)
  | ret (line : Nat) (value : Option Expr)
  | throw (line : Nat) (typeName : String) (message : Option Expr)
  | halt (line : Nat) (label : Option String)
  | sleep (line : Nat) (millis : Expr)

namespace Stmt

/-- The line that a statement begins on. -/
def line : Stmt → Nat
  | func n .. | branch n .. | loop n .. | assign n .. | assignCall n .. | call n .. | print n ..
  | ret n .. | throw n .. | halt n .. | sleep n .. => n

mutual

/-- The lines of a statement and of those inside it, in the order they are written. -/
def lines : Stmt → List Nat
  | func n _ _ body => n :: blockLines body
  | branch n _ yes no => n :: (blockLines yes ++ blockLines no)
  | loop n _ body => n :: blockLines body
  | assign n .. => [n]
  | assignCall n .. => [n]
  | call n .. => [n]
  | print n .. => [n]
  | ret n .. => [n]
  | throw n .. => [n]
  | halt n .. => [n]
  | sleep n .. => [n]

def blockLines : List Stmt → List Nat
  | [] => []
  | s :: rest => lines s ++ blockLines rest

end

end Stmt

structure Program where
  /-- The path under which it was loaded. -/
  file : String
  body : List Stmt

/-- The lines where execution can stop: those of all statements, in ascending order. -/
def Program.executableLines (p : Program) : List Nat :=
  ((Stmt.blockLines p.body).mergeSort (· ≤ ·)).eraseReps

/-- A function.  A script has at most one definition on a line. -/
structure FunctionDef where
  name : String
  params : List String
  body : List Stmt
  file : String
  line : Nat

/-- Two functions are the same if they come from one definition. -/
def FunctionDef.same (a b : FunctionDef) : Bool := a.file == b.file && a.line == b.line

end DebugAdapter.Script
