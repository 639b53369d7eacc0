import DebugAdapter.Text.Blank
import DebugAdapter.Text.CaseTable

/-!
# Letter case

Lowercase of one character and of a whole text.  The two differ in the capital sigma, whose small
form at the end of a word is another letter than inside it.
-/

namespace DebugAdapter.Text

/-- The small letter that a run of capitals gives for code point `n`. -/
def CapitalRun.small? (run : CapitalRun) (n : Nat) : Option Nat :=
  if run.first ≤ n && n ≤ run.last && (n - run.first) % run.step == 0 then
    some (run.small + (n - run.first))
  else none

/-- The small letters for one character.  Only the dotted capital I becomes two characters. -/
def lowerChar (c : Char) : List Char :=
  if c.toNat < 128 then [c.toLower]
  else if c == 'İ' then ['i', '\u0307']
  else match capitals.findSome? (·.small? c.toNat) with
    | some n => [Char.ofNat n]
    | none => [c]

/-- The character is capital, small or title case. -/
def isCased (c : Char) : Bool :=
  if c.toNat < 128 then c.isAlpha else inRanges cased c

/-- The character is passed over when looking for a cased neighbour. -/
def isCaseIgnorable (c : Char) : Bool := inRanges caseIgnorable c

/-- The first character that is not passed over is cased. -/
def nextIsCased (cs : List Char) : Bool :=
  match cs.dropWhile isCaseIgnorable with
  | [] => false
  | c :: _ => isCased c

/-- Lowercase of the characters `cs` that follow `before` (given in reverse). -/
def lowerFrom (before : List Char) : List Char → List Char
  | [] => []
  | c :: cs =>
    let small :=
      if c == 'Σ' then if nextIsCased before && !nextIsCased cs then ['ς'] else ['σ']
      else lowerChar c
    small ++ lowerFrom (c :: before) cs

/-- Lowercase of a text.  A capital sigma that ends a word becomes the final small sigma. -/
def lowerChars (cs : List Char) : List Char := lowerFrom [] cs

/-- Lowercase of a text. -/
def lower (s : String) : String := String.ofList (lowerChars s.toList)

/-- The text with its ASCII capitals made small. -/
def asciiLower (s : String) : String := s.map Char.toLower

end DebugAdapter.Text
