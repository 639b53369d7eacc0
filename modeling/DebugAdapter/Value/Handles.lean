import DebugAdapter.Data.Table
import DebugAdapter.Value.Parts

/-!
# Handles

The numbers by which a client refers to values.  A handle does not keep its value alive: it names an
allocation, and the value is found through it only while something else holds that value.  Handles
of values that are gone stay in the table until they are reclaimed.  Zero is no handle, and no
number is given twice.
-/

namespace DebugAdapter

structure Handles where
  nextId : Nat
  byId : Table Nat Identity
  /-- The latest handle given at an address. -/
  byAddress : Table Address Nat
  /-- Display paths of handles. -/
  paths : Table Nat String
  /-- Stack frames of handles. -/
  frames : Table Nat Int

namespace Handles

def new : Handles := ⟨1, ∅, ∅, ∅, ∅⟩

def size (h : Handles) : Nat := h.byId.size

def isEmpty (h : Handles) : Bool := h.byId.isEmpty

/-- The handle that was given for this very allocation. -/
def idOf? (h : Handles) (i : Identity) : Option Nat := do
  let id ← h.byAddress.get? i.address
  if h.byId.get? id = some i then some id else none

/-- Takes a handle out of every table. -/
def forget (h : Handles) (id : Nat) : Handles where
  nextId := h.nextId
  byId := h.byId.erase id
  byAddress :=
    match h.byId.get? id with
    | some i => if h.byAddress.get? i.address = some id then h.byAddress.erase i.address
        else h.byAddress
    | none => h.byAddress
  paths := h.paths.erase id
  frames := h.frames.erase id

/-- Takes out the handle of a former allocation at the address. -/
def forgetAt (h : Handles) (a : Address) : Handles :=
  match h.byAddress.get? a with
  | some stale => h.forget stale
  | none => h

/-- The handle of an allocation, a new one on first sight. -/
def register (h : Handles) (i : Identity) : Nat × Handles :=
  match h.idOf? i with
  | some id => (id, h)
  | none =>
    let h := h.forgetAt i.address
    (h.nextId, { h with
      nextId := h.nextId + 1
      byId := h.byId.insert h.nextId i
      byAddress := h.byAddress.insert i.address h.nextId })

/-- The value behind a handle, found in what is held. -/
def resolve? (h : Handles) (held : List Value) (id : Nat) : Option Value :=
  (h.byId.get? id).bind fun i => (Value.holding held)[i]?

/-- Gives a handle a display path; an unknown handle gets none. -/
def setPath (h : Handles) (id : Nat) (path : String) : Handles :=
  if h.byId.contains id then { h with paths := h.paths.insert id path } else h

def path? (h : Handles) (id : Nat) : Option String := h.paths.get? id

/-- Gives a handle a stack frame; an unknown handle gets none. -/
def setFrame (h : Handles) (id : Nat) (frame : Int) : Handles :=
  if h.byId.contains id then { h with frames := h.frames.insert id frame } else h

def frame? (h : Handles) (id : Nat) : Option Int := h.frames.get? id

/-- The handles whose allocation is not alive. -/
def dead (h : Handles) (alive : Identity → Bool) : List Nat :=
  (h.byId.filter fun _ i => !alive i).keys

/-- Takes out every handle whose allocation is not alive, and tells how many there were. -/
def reclaim (h : Handles) (alive : Identity → Bool) : Nat × Handles :=
  let dead := h.dead alive
  (dead.length, dead.foldl forget h)

/-- Takes out every handle.  The numbers are still not given again. -/
def clear (h : Handles) : Handles := { new with nextId := h.nextId }

end Handles

end DebugAdapter
