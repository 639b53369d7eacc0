import DebugAdapter.Suspension.Context

/-!
# Known frames

The numbers under which the client knows the stack frames of suspended threads.  A frame keeps its
number as long as its thread waits, and no number is given twice.  The values that show the
exceptions of suspended threads are kept with them.
-/

namespace DebugAdapter

/-- A frame that the client has been shown. -/
structure KnownFrame where
  thread : ThreadId
  /-- Its index in the thread's own list. -/
  index : Nat
  /-- It is the innermost one. -/
  top : Bool
  frame : StackFrame

structure KnownFrames where
  lastId : Int
  frames : Table Int KnownFrame
  byPosition : Table (ThreadId × Nat) Int
  exceptions : Table ThreadId Value

namespace KnownFrames

def new : KnownFrames := ⟨0, ∅, ∅, ∅⟩

/-- Notes a frame under the number that its place has, or a new one. -/
def insert (k : KnownFrames) (f : KnownFrame) : Int × KnownFrames :=
  match k.byPosition.get? (f.thread, f.index) with
  | some id => (id, { k with frames := k.frames.insert id f })
  | none =>
    let id := k.lastId + 1
    (id, { k with
      lastId := id
      byPosition := k.byPosition.insert (f.thread, f.index) id
      frames := k.frames.insert id f })

def insertAll (k : KnownFrames) : List KnownFrame → List Int × KnownFrames
  | [] => ([], k)
  | f :: fs =>
    let (id, k) := k.insert f
    let (ids, k) := k.insertAll fs
    (id :: ids, k)

def get? (k : KnownFrames) (id : Int) : Option KnownFrame := k.frames.get? id

/-- Forgets the frames and the exception of a thread. -/
def forgetThread (k : KnownFrames) (t : ThreadId) : KnownFrames where
  lastId := k.lastId
  frames := k.frames.filter fun _ f => f.thread != t
  byPosition := k.byPosition.filter fun p _ => p.1 != t
  exceptions := k.exceptions.erase t

def clear (k : KnownFrames) : KnownFrames := { new with lastId := k.lastId }

/-- What the known frames keep alive. -/
def held (k : KnownFrames) : List Value :=
  k.frames.values.flatMap (fun f => f.frame.scopes.map (·.value)) ++ k.exceptions.values

end KnownFrames

end DebugAdapter
