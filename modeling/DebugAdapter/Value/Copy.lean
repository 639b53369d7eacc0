import DebugAdapter.Value.Basic

/-!
# Copies

A copy of a value shows the same and is made of new allocations throughout.
-/

namespace DebugAdapter.Value

mutual

/-- A copy made of allocations of a region, at offsets from the given one on; and the next free
offset. -/
def copy (region : Nat) : Value → Nat → Value × Nat
  | .mk _ source shape, n =>
    let (shape, m) := copyShape region shape (n + 1)
    (.mk (.first region n) source shape, m)

def copyShape (region : Nat) : Shape → Nat → Shape × Nat
  | .array items, n =>
    let (items, n) := copyItems region items n
    (.array items, n)
  | .struct fields, n =>
    let (fields, n) := copyFields region fields n
    (.struct fields, n)
  | .table columns rows, n =>
    let (rows, n) := copyRows region rows n
    (.table columns rows, n)
  | .function definition fields, n =>
    let (fields, n) := copyFields region fields n
    (.function definition fields, n)
  | shape, n => (shape, n)

def copyItems (region : Nat) : List Value → Nat → List Value × Nat
  | [], n => ([], n)
  | v :: vs, n =>
    let (v, n) := copy region v n
    let (vs, n) := copyItems region vs n
    (v :: vs, n)

def copyFields (region : Nat) : List (String × Value) → Nat → List (String × Value) × Nat
  | [], n => ([], n)
  | (name, v) :: fs, n =>
    let (v, n) := copy region v n
    let (fs, n) := copyFields region fs n
    ((name, v) :: fs, n)

def copyRows (region : Nat) : List (List Value) → Nat → List (List Value) × Nat
  | [], n => ([], n)
  | r :: rs, n =>
    let (r, n) := copyItems region r n
    let (rs, n) := copyRows region rs n
    (r :: rs, n)

end

end DebugAdapter.Value
