import DebugAdapter.Text.Case
import DebugAdapter.Text.Letters

/-!
# The order of threads

Thread names are compared piece by piece: runs of digits as numbers, other runs as text without
regard to case, numbers before text.  Names that agree in that are told apart by their spelling, and
threads of one name by their identifiers.
-/

namespace DebugAdapter.Thread

/-- A run of a thread's name. -/
inductive Chunk where
  /-- A number, by the size of its significant digits and those digits. -/
  | number (size : Nat) (digits : String)
  | text (text : String)
  deriving DecidableEq

namespace Chunk

/-- The chunk for a run.  Digits of other scripts than ASCII make a number only if an ASCII digit
comes first. -/
def ofRun (run : List Char) : Chunk :=
  if run.head?.any Char.isDigit then
    let digits := String.ofList (run.dropWhile (· == '0'))
    .number digits.utf8ByteSize digits
  else .text (String.ofList (Text.lowerChars run))

/-- Numbers by size and then digits, before all text. -/
def compare : Chunk → Chunk → Ordering
  | .number m a, .number n b => (Ord.compare m n).then (Ord.compare a b)
  | .number _ _, .text _ => .lt
  | .text _, .number _ _ => .gt
  | .text a, .text b => Ord.compare a b

end Chunk

/-- The maximal runs of digits and of other characters. -/
def runs : List Char → List (List Char)
  | [] => []
  | c :: cs =>
    match runs cs with
    | (d :: run) :: rest =>
      if Text.isDecimal c == Text.isDecimal d then (c :: d :: run) :: rest
      else [c] :: (d :: run) :: rest
    | rest => [c] :: rest

/-- The pieces by which a name is compared. -/
def chunks (name : String) : List Chunk := (runs name.toList).map Chunk.ofRun

/-- Lexicographic comparison: a list comes before those it begins. -/
def compareChunks : List Chunk → List Chunk → Ordering
  | [], [] => .eq
  | [], _ :: _ => .lt
  | _ :: _, [] => .gt
  | a :: as, b :: bs => (a.compare b).then (compareChunks as bs)

/-- The order of thread names. -/
def compareNames (a b : String) : Ordering :=
  (compareChunks (chunks a) (chunks b)).then (compare a b)

/-- A thread as it is listed for the client. -/
structure Row where
  id : Int
  name : String
  deriving DecidableEq

/-- Rows by name and then by identifier. -/
def Row.compare (a b : Row) : Ordering := (compareNames a.name b.name).then (Ord.compare a.id b.id)

def sortRows (rows : List Row) : List Row := rows.mergeSort fun a b => (a.compare b).isLE

end DebugAdapter.Thread
