import DebugAdapter.Text.Case

/-!
# Canonical paths

Two spellings of a path name the same file if they have the same canonical form: every run of
separators is one slash, and letters are folded where case does not count.  A path can also be
matched against the canonical form of a leading part without building its own canonical form.
-/

namespace DebugAdapter.Path

/-- What the operating system says of a path at which there is no file. -/
def notFound : String := "No such file or directory (os error 2)"

/-- How letter case counts: the characters that stand for a character when paths are compared. -/
abbrev Folding := Char → List Char

/-- Every character stands for itself. -/
def Folding.exact : Folding := fun c => [c]

/-- Capitals stand for their small letters, each character on its own. -/
def Folding.ignoreCase : Folding := Text.lowerChar

def Folding.ofCaseSensitive (sensitive : Bool) : Folding := if sensitive then exact else ignoreCase

def isSeparator (c : Char) : Bool := c == '/' || c == '\\'

/-- The canonical form of what follows a separator (or does not). -/
def canonicalFrom (fold : Folding) (afterSeparator : Bool) : List Char → List Char
  | [] => []
  | c :: cs =>
    if isSeparator c then
      if afterSeparator then canonicalFrom fold true cs else '/' :: canonicalFrom fold true cs
    else fold c ++ canonicalFrom fold false cs

/-- The canonical form of a path. -/
def canonical (fold : Folding) (path : String) : String :=
  String.ofList (canonicalFrom fold false path.toList)

/-- What is left of a list that begins with the given one. -/
def dropStart? : List Char → List Char → Option (List Char)
  | [], cs => some cs
  | _ :: _, [] => none
  | x :: xs, c :: cs => if x == c then dropStart? xs cs else none

/-- Walks along the path while it spells the canonical characters `wanted`.  A separator that only
prolongs a run is passed over, also behind the end of `wanted`. -/
def restFrom? (fold : Folding) (afterSeparator : Bool) (wanted : List Char) :
    List Char → Option (List Char)
  | [] => if wanted.isEmpty then some [] else none
  | c :: cs =>
    if isSeparator c && afterSeparator then restFrom? fold true wanted cs
    else match wanted with
      | [] => some (c :: cs)
      | w :: ws =>
        if isSeparator c then if w == '/' then restFrom? fold true ws cs else none
        else match dropStart? (fold c) (w :: ws) with
          | some ws => restFrom? fold false ws cs
          | none => none

/-- The rest of the path after a leading part that names the same as `start`, as the path spells
it. -/
def rest? (fold : Folding) (path start : String) : Option String :=
  (restFrom? fold false (canonicalFrom fold false start.toList) path.toList).map String.ofList

/-- The last component of a path. -/
def baseName (path : String) : String :=
  String.ofList (path.toList.reverse.takeWhile fun c => !isSeparator c).reverse

end DebugAdapter.Path
