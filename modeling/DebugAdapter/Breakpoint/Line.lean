import DebugAdapter.Path.Canonical
import DebugAdapter.Text.Blank

/-!
# Line breakpoints

The breakpoints on lines of source files.  They are looked up before every line that a thread
executes, so a summary of the bound ones is kept that rejects most lines at once; it is made anew
with every change.  Identifiers are never used twice.
-/

namespace DebugAdapter

/-- What a lookup finds: the breakpoint that applies, and its condition if it has one. -/
structure Hit where
  id : Nat
  condition : Option String
  deriving DecidableEq

/-- A breakpoint on a line.  The file is canonical; a breakpoint that is not verified never fires. -/
structure Breakpoint where
  id : Nat
  file : String
  line : Nat
  condition : Option String
  verified : Bool
  deriving DecidableEq

def Breakpoint.hit (b : Breakpoint) : Hit := ⟨b.id, b.condition⟩

/-- A line breakpoint as the client asks for it. -/
structure Breakpoint.Request where
  line : Nat
  condition : Option String
  deriving DecidableEq

namespace LineBreakpoints

/-- The verified breakpoints, with bounds on their lines and on the size of their paths. -/
structure Summary where
  bound : List Breakpoint
  minLine : Nat
  maxLine : Nat
  maxPathSize : Nat

/-- The largest line number. -/
def lineLimit : Nat := Nat.pow 2 32 - 1

def Summary.of (all : List Breakpoint) : Summary :=
  let bound := all.filter (·.verified)
  { bound
    minLine := bound.foldl (fun n b => min n b.line) lineLimit
    maxLine := bound.foldl (fun n b => max n b.line) 0
    maxPathSize := bound.foldl (fun n b => max n b.file.utf8ByteSize) 0 }

end LineBreakpoints

/-- All line breakpoints, verified or not, in the order they were made. -/
structure LineBreakpoints where
  fold : Path.Folding
  all : List Breakpoint
  summary : LineBreakpoints.Summary
  nextId : Nat

namespace LineBreakpoints

def new (fold : Path.Folding) : LineBreakpoints := ⟨fold, [], .of [], 1⟩

/-- Replaces the breakpoints, and the summary with them. -/
def setAll (r : LineBreakpoints) (all : List Breakpoint) : LineBreakpoints :=
  { r with all, summary := .of all }

/-- Adds a verified breakpoint and gives its identifier. -/
def add (r : LineBreakpoints) (file : String) (line : Nat) (condition : Option String) :
    Nat × LineBreakpoints :=
  let b : Breakpoint :=
    ⟨r.nextId, Path.canonical r.fold file, line, condition.bind Text.nonBlank?, true⟩
  (b.id, { r.setAll (r.all ++ [b]) with nextId := r.nextId + 1 })

/-- Removes the breakpoints of one line, and tells whether there were any. -/
def remove (r : LineBreakpoints) (file : String) (line : Nat) : Bool × LineBreakpoints :=
  let file := Path.canonical r.fold file
  let kept := r.all.filter fun b => !(b.line == line && b.file == file)
  (kept.length != r.all.length, r.setAll kept)

def clearFile (r : LineBreakpoints) (file : String) : LineBreakpoints :=
  let file := Path.canonical r.fold file
  r.setAll (r.all.filter (·.file != file))

def clear (r : LineBreakpoints) : LineBreakpoints := r.setAll []

/-- The breakpoints for a file's requests, with identifiers from `id` on. -/
def created (file : String) (valid : List Nat) (id : Nat) :
    List Breakpoint.Request → List Breakpoint
  | [] => []
  | q :: qs =>
    ⟨id, file, q.line, q.condition.bind Text.nonBlank?, valid.contains q.line⟩ ::
      created file valid (id + 1) qs

/-- Replaces the breakpoints of a file.  Those on `valid` lines are verified; all are new. -/
def replace (r : LineBreakpoints) (file : String) (requested : List Breakpoint.Request)
    (valid : List Nat) : List Breakpoint × LineBreakpoints :=
  let file := Path.canonical r.fold file
  let new := created file valid r.nextId requested
  (new, { r.setAll (r.all.filter (·.file != file) ++ new) with
    nextId := r.nextId + requested.length })

/-- The first verified breakpoint on a line of a file.  The path is made canonical only if some
breakpoint is on that line at all. -/
def check (r : LineBreakpoints) (file : String) (line : Nat) : Option Hit :=
  let s := r.summary
  if s.bound.isEmpty || line < s.minLine || s.maxLine < line then none
  else match s.bound.filter (·.line == line) with
    | [] => none
    | candidates =>
      let file := Path.canonical r.fold file
      if s.maxPathSize < file.utf8ByteSize then none
      else (candidates.find? (·.file == file)).map Breakpoint.hit

/-- The number of verified breakpoints. -/
def boundCount (r : LineBreakpoints) : Nat := r.summary.bound.length

/-- No breakpoint is verified. -/
def isEmpty (r : LineBreakpoints) : Bool := r.boundCount == 0

end LineBreakpoints

end DebugAdapter
