import DebugAdapter.Data.Table

/-!
# Pins

Values that nothing else keeps alive stay available to the client for a while: a bounded cache that
drops the least recently used entry first and forgets entries of a certain age.  A hit makes an
entry the most recently used one but does not make it younger.
-/

namespace DebugAdapter

/-- A kept value and when it was put. -/
structure Pin (α : Type) where
  value : α
  since : Nat

/-- The entries, and their keys from the least to the most recently used. -/
structure PinCache (κ α : Type) where
  capacity : Nat
  /-- The greatest age of an entry; without it entries do not age. -/
  lifetime : Option Nat
  entries : Table κ (Pin α)
  order : List κ

namespace PinCache

variable {κ α : Type} [DecidableEq κ]

/-- An empty cache.  There is room for one entry at least. -/
def new (capacity : Nat) (lifetime : Option Nat) : PinCache κ α where
  capacity := max capacity 1
  lifetime := lifetime
  entries := ∅
  order := []

def size (c : PinCache κ α) : Nat := c.entries.size

def isEmpty (c : PinCache κ α) : Bool := c.entries.isEmpty

def values (c : PinCache κ α) : List α := c.entries.values.map (·.value)

def expired (c : PinCache κ α) (now : Nat) (p : Pin α) : Bool :=
  c.lifetime.any fun t => t < now - p.since

/-- Drops the least recently used entries until the rest fits. -/
def evict (capacity : Nat) : List κ → Table κ (Pin α) → List κ × Table κ (Pin α)
  | [], entries => ([], entries)
  | k :: order, entries =>
    if capacity < entries.size then evict capacity order (entries.erase k)
    else (k :: order, entries)

/-- Puts a value; a former one of that key is replaced. -/
def put (c : PinCache κ α) (k : κ) (v : α) (now : Nat) : PinCache κ α :=
  let (order, entries) :=
    evict c.capacity (c.order.filter (· ≠ k) ++ [k]) (c.entries.insert k ⟨v, now⟩)
  { c with order, entries }

/-- The value of a key, which becomes the most recently used.  An entry that is too old is dropped
and not found. -/
def get (c : PinCache κ α) (k : κ) (now : Nat) : Option α × PinCache κ α :=
  match c.entries.get? k with
  | none => (none, c)
  | some p =>
    let others := c.order.filter (· ≠ k)
    if c.expired now p then (none, { c with order := others, entries := c.entries.erase k })
    else (some p.value, { c with order := others ++ [k] })

/-- Drops every entry that is too old, and tells how many there were. -/
def purge (c : PinCache κ α) (now : Nat) : Nat × PinCache κ α :=
  let kept := c.entries.filter fun _ p => !c.expired now p
  (c.entries.size - kept.size,
    { c with entries := kept, order := c.order.filter (kept.contains ·) })

def clear (c : PinCache κ α) : PinCache κ α := { c with entries := ∅, order := [] }

end PinCache

end DebugAdapter
