/-!
# Stems

The name of a file without its extension.
-/

namespace DebugAdapter.Path

/-- The parts of a path between slashes that count: neither empty nor a dot, unless the dot comes
first. -/
def parts (path : List Char) : List (List Char) :=
  match path.splitOn '/' with
  | [] => []
  | first :: rest =>
    (if first.isEmpty then [] else [first]) ++ rest.filter fun p => !p.isEmpty && p != ['.']

/-- A name without what follows its last dot.  A dot at its start begins no extension. -/
def withoutExtension (name : List Char) : List Char :=
  let stem := (name.reverse.dropWhile (· != '.')).tail.reverse
  if stem.isEmpty then name else stem

/-- The stem of the last part of a path, if that is a name. -/
def stem? (path : String) : Option String :=
  match (parts path.toList).getLast? with
  | none => none
  | some name =>
    if name = ['.'] ∨ name = ['.', '.'] then none else some (String.ofList (withoutExtension name))

end DebugAdapter.Path
