import DebugAdapter.Text.Case
import DebugAdapter.Text.Quoted
import DebugAdapter.Value.Handles
import DebugAdapter.Value.PinCache

/-!
# Inspection

How values are shown to the client.  A row names a value and says how many children it has; they are
listed only when the client asks for the handle in that row.  Tables are shown as arrays of rows,
which the inspector makes itself: nothing of the debuggee holds such values, so they are pinned.
-/

namespace DebugAdapter

/-- One row of a listing of values. -/
structure Variable where
  name : String
  value : String
  typeName : String
  /-- The handle of the children; zero if there are none. -/
  reference : Nat
  named : Option Nat
  indexed : Option Nat
  deriving DecidableEq

/-- Which children a client wants to see. -/
inductive ChildFilter where
  | all
  | named
  | indexed
  deriving DecidableEq

def ChildFilter.ofName : Option String → ChildFilter
  | some "named" => .named
  | some "indexed" => .indexed
  | _ => .all

/-- The handles given so far, the pinned values, how many values the adapter has made itself, and
the time. -/
structure Inspector where
  handles : Handles
  pins : PinCache Nat Value
  made : Nat
  now : Nat

namespace Inspector

def new (capacity : Nat) (lifetime : Option Nat) : Inspector := ⟨.new, .new capacity lifetime, 0, 0⟩

/-- What is held besides `outside`: the pinned values. -/
def held (s : Inspector) (outside : List Value) : List Value := outside ++ s.pins.values

/-- The value behind a handle, as long as it is held. -/
def resolve? (s : Inspector) (outside : List Value) (id : Nat) : Option Value :=
  s.handles.resolve? (s.held outside) id

/-- Makes a new value. -/
def make (s : Inspector) (shape : Shape) : Value × Inspector :=
  (.mk (.first adapterRegion s.made) none shape, { s with made := s.made + 1 })

/-- Makes one value for each shape. -/
def makeAll (s : Inspector) : List Shape → List Value × Inspector
  | [] => ([], s)
  | x :: xs =>
    let (v, s) := s.make x
    let (vs, s) := s.makeAll xs
    (v :: vs, s)

/-- The rows of a table as structures that name the columns.  Cells beyond the columns are left
out, and so are columns beyond the cells. -/
def rowShapes (columns : List String) (rows : List (List Value)) : List Shape :=
  rows.map fun row => .struct (columns.zip row)

/-- The fields that show an exception.  What it does not have is left out. -/
def exceptionFields (e : Exception) : List (String × String) :=
  [("type", e.typeName), ("message", e.message)] ++
    (e.detail.map ("detail", ·)).toList ++
    (if e.stackTrace.isEmpty then [] else [("stackTrace", e.stackTrace)]) ++
    (e.inner.map ("innerException", ·)).toList

/-- Makes a value that shows an exception. -/
def makeException (s : Inspector) (e : Exception) : Value × Inspector :=
  let fields := exceptionFields e
  let (texts, s) := s.makeAll (fields.map fun f => .text f.2)
  s.make (.struct ((fields.map (·.1)).zip texts))

/-- The handle of a value. -/
def register (s : Inspector) (v : Value) : Nat × Inspector :=
  let (id, handles) := s.handles.register v.identity
  (id, { s with handles })

/-- The handle of a value that is kept alive by pinning it. -/
def pin (s : Inspector) (v : Value) : Nat × Inspector :=
  let (id, s) := s.register v
  (id, { s with pins := s.pins.put id v s.now })

def pinAll (s : Inspector) : List Value → Inspector
  | [] => s
  | v :: vs => (s.pin v).2.pinAll vs

/-- Looks a handle up among the pins, which makes it the most recently used one. -/
def pinned? (s : Inspector) (id : Nat) : Option Value × Inspector :=
  let (v, pins) := s.pins.get id s.now
  (v, { s with pins })

/-- The handle to list the children by; zero without children. -/
def reference (s : Inspector) (v : Value) (count : Nat) : Nat × Inspector :=
  if count == 0 then (0, s) else s.register v

/-- The handle to list the rows of a table by: that of a pinned array of them. -/
def tableReference (s : Inspector) (columns : List String) (rows : List (List Value)) :
    Nat × Inspector :=
  if rows.isEmpty then (0, s)
  else
    let (rows, s) := s.makeAll (rowShapes columns rows)
    let (array, s) := s.make (.array rows)
    s.pin array

/-- The row that shows a value under a name. -/
def row (s : Inspector) (name : String) (v : Value) : Variable × Inspector :=
  match v.shape with
  | .null => (⟨name, "null", "null", 0, none, none⟩, s)
  | .bool b => (⟨name, if b then "true" else "false", "boolean", 0, none, none⟩, s)
  | .number n => (⟨name, n.text, "number", 0, none, none⟩, s)
  | .text text => (⟨name, Text.quoted text, "string", 0, none, none⟩, s)
  | .other typeName summary => (⟨name, summary, typeName, 0, none, none⟩, s)
  | .array items =>
    let n := items.length
    let (id, s) := s.reference v n
    (⟨name, "Array (" ++ toString n ++ ")", "array", id, none, some n⟩, s)
  | .struct fields | .function _ fields =>
    let n := fields.length
    let (id, s) := s.reference v n
    (⟨name, "\x7b\x7d (" ++ toString n ++ " members)", "struct", id, some n, none⟩, s)
  | .table columns rows =>
    let n := rows.length
    let (id, s) := s.tableReference columns rows
    (⟨name, "Table (" ++ toString n ++ " rows)", "table", id, none, some n⟩, s)

/-- The rows that show values under names, one after the other. -/
def rows (s : Inspector) : List (String × Value) → List Variable × Inspector
  | [] => ([], s)
  | (name, v) :: rest =>
    let (row, s) := s.row name v
    let (rows, s) := s.rows rest
    (row :: rows, s)

/-- Names without regard to case, then by their spelling. -/
def compareNames (a b : String) : Ordering :=
  (compare (Text.lower a) (Text.lower b)).then (compare a b)

def sortFields (fields : List (String × Value)) : List (String × Value) :=
  fields.mergeSort fun a b => (compareNames a.1 b.1).isLE

/-- The items with their names: positions from one on. -/
def nameItems (items : List Value) : List (String × Value) :=
  items.mapIdx fun i v => ("[" ++ toString (i + 1) ++ "]", v)

/-- A page of a listing.  No count, or a count of zero, means all the rest. -/
def page {α : Type} (start count : Option Nat) (xs : List α) : List α :=
  let rest := xs.drop (start.getD 0)
  match count with
  | none | some 0 => rest
  | some n => rest.take n

theorem page_sublist {α : Type} (start count : Option Nat) (xs : List α) :
    (page start count xs).Sublist xs := by
  simp only [page]
  split
  · exact List.drop_sublist _ _
  · exact List.drop_sublist _ _
  · exact (List.take_sublist _ _).trans (List.drop_sublist _ _)

theorem getElem?_of_page {α : Type} {start count : Option Nat} {xs : List α} {k : Nat} {x : α}
    (h : (page start count xs)[k]? = some x) : xs[start.getD 0 + k]? = some x := by
  rw [← List.getElem?_drop]
  simp only [page] at h
  split at h
  · exact h
  · exact h
  · rw [List.getElem?_take, Option.ite_none_right_eq_some] at h
    exact h.2

/-- The rows for the children of a value that has just been resolved. -/
def childrenOf (s : Inspector) (v : Value) (filter : ChildFilter) (start count : Option Nat) :
    List Variable × Inspector :=
  match v.shape with
  | .struct fields | .function _ fields =>
    if filter == .indexed then ([], s) else s.rows (sortFields fields)
  | .array items =>
    if filter == .named then ([], s) else s.rows (page start count (nameItems items))
  | .table columns rows =>
    if filter == .named then ([], s)
    else
      let (rows, s) := s.makeAll (rowShapes columns rows)
      (s.pinAll rows).rows (page start count (nameItems rows))
  | _ => ([], s)

/-- The children of a handle.  A handle whose value is gone has none.  If the value is pinned, that
counts as a use of the pin. -/
def children (s : Inspector) (outside : List Value) (id : Nat) (filter : ChildFilter)
    (start count : Option Nat) : List Variable × Inspector :=
  match s.resolve? outside id with
  | none => ([], s)
  | some v => (s.pinned? id).2.childrenOf v filter start count

/-- Takes out the handles of values that are no longer held. -/
def reclaim (s : Inspector) (outside : List Value) : Nat × Inspector :=
  let s := { s with pins := (s.pins.purge s.now).2 }
  let holding := Value.holding (s.held outside)
  let (n, handles) := s.handles.reclaim holding.contains
  (n, { s with handles })

/-- Drops all pins and handles. -/
def clear (s : Inspector) : Inspector :=
  { s with pins := s.pins.clear, handles := s.handles.clear }

end Inspector

end DebugAdapter
