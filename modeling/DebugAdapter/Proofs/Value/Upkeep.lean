import DebugAdapter.Debugger.Requests
import DebugAdapter.Proofs.Value.Listing
import DebugAdapter.Proofs.Value.Pins

/-!
# Pins and their handles along a history

A value is pinned under its handle, and a handle that is known never leads to another allocation than
the one it was given for (`Later`). So in every state of an inspector whose pins do not age, the handle
of a pin leads to the pinned value or to nothing (`Kept`). Nothing is assumed of memory here.
-/

namespace DebugAdapter

/-! ## Handles keep their meaning -/

/-- The handles that there were lead where they led or nowhere. -/
structure Handles.Later (h h' : Handles) : Prop where
  consistent : h'.Consistent
  nextId : h.nextId ≤ h'.nextId
  byId : ∀ id i, id < h.nextId → h'.byId.get? id = some i → h.byId.get? id = some i

namespace Handles
variable {h h' : Handles}

theorem Later.of_byId_eq (hc : h'.Consistent) (hbyId : h'.byId = h.byId)
    (hnext : h'.nextId = h.nextId) : Later h h' :=
  ⟨hc, Nat.le_of_eq hnext.symm, fun _ _ _ hi => hbyId ▸ hi⟩

theorem later_register (hc : h.Consistent) (i : Identity) : Later h (h.register i).2 := by
  refine ⟨consistent_register hc i, nextId_le_register hc i, fun id j hid hj => ?_⟩
  rcases register_cases hc i with ⟨_, _, heq⟩ | ⟨_, heq⟩
  · rwa [heq] at hj
  · rw [get?_register hc, heq, if_neg (Nat.ne_of_lt hid)] at hj
    exact (Option.filter_eq_some_iff.mp hj).1

theorem later_reclaim (hc : h.Consistent) (alive : Identity → Bool) :
    Later h (h.reclaim alive).2 where
  consistent := (without_reclaim hc alive).consistent
  nextId := Nat.le_of_eq (without_reclaim hc alive).nextId.symm
  byId id i _ hi := by
    rw [get?_reclaim hc, Option.filter_eq_some_iff] at hi
    exact hi.1

theorem later_clear (hc : h.Consistent) : Later h h.clear :=
  ⟨hc.clear, Nat.le_refl _, fun _ _ _ hi => by simp [clear, new] at hi⟩

end Handles

namespace Inspector

/-! ## The state of an inspector -/

/-- There is room for so many pins, they do not age, and each is under the handle of its value. -/
structure Kept (room : Nat) (s : Inspector) : Prop where
  consistent : s.handles.Consistent
  sound : s.pins.Sound
  lifetime : s.pins.lifetime = none
  capacity : s.pins.capacity = room
  keyed : ∀ id p, s.pins.entries.get? id = some p → id < s.handles.nextId ∧
    ∀ i, s.handles.byId.get? id = some i → i = p.value.identity

section
variable {room : Nat} {s s' : Inspector}

theorem kept_new (capacity : Nat) : Kept (max capacity 1) (new capacity none) where
  consistent := Handles.consistent_new
  sound := PinCache.sound_new _ _
  lifetime := rfl
  capacity := rfl
  keyed := by simp [new, PinCache.new]

/-- Handles come and go while the pins are left alone. -/
theorem Kept.of_later (h : Kept room s) (hpins : s'.pins = s.pins)
    (hlater : s.handles.Later s'.handles) : Kept room s' := by
  refine ⟨hlater.consistent, hpins ▸ h.sound, hpins ▸ h.lifetime, hpins ▸ h.capacity, ?_⟩
  intro id p hp
  rw [hpins] at hp
  obtain ⟨hid, hvalue⟩ := h.keyed id p hp
  exact ⟨Nat.lt_of_lt_of_le hid hlater.nextId, fun i hi => hvalue i (hlater.byId id i hid hi)⟩

theorem Kept.of_eq (h : Kept room s) (hpins : s'.pins = s.pins) (hhandles : s'.handles = s.handles) :
    Kept room s' :=
  h.of_later hpins (.of_byId_eq (hhandles ▸ h.consistent) (congrArg _ hhandles)
    (congrArg _ hhandles))

theorem Kept.withMade (h : Kept room s) (n : Nat) : Kept room { s with made := n } :=
  h.of_eq rfl rfl

theorem Kept.register (h : Kept room s) (v : Value) : Kept room (s.register v).2 :=
  h.of_later rfl (Handles.later_register h.consistent v.identity)

theorem Kept.put (h : Kept room s) {id : Nat} {v : Value}
    (hid : s.handles.byId.get? id = some v.identity) :
    Kept room { s with pins := s.pins.put id v s.now } where
  consistent := h.consistent
  sound := (PinCache.put_spec h.sound id v s.now).1
  lifetime := h.lifetime
  capacity := h.capacity
  keyed x p hp := by
    rcases PinCache.get?_put h.sound hp with ⟨rfl, rfl⟩ | ⟨_, hp⟩
    · refine ⟨(h.consistent.numbered x _ hid).2, fun i hi => ?_⟩
      exact Option.some.inj (hi.symm.trans hid)
    · exact h.keyed x p hp

theorem Kept.pin (h : Kept room s) (v : Value) : Kept room (s.pin v).2 :=
  (h.register v).put (Handles.get?_register_self h.consistent v.identity)

theorem recent_pin (h : Kept room s) (hroom : 0 < room) (v : Value) :
    (s.pin v).2.pins.Recent 1 (s.pin v).1 ⟨v, s.now⟩ :=
  PinCache.recent_put_self h.sound (h.capacity ▸ hroom)

theorem Kept.pinAll (h : Kept room s) (vs : List Value) : Kept room (s.pinAll vs) := by
  induction vs generalizing s with
  | nil => exact h
  | cons v vs ih => exact ih (h.pin v)

theorem Kept.look (h : Kept room s) (id : Nat) : Kept room (s.pinned? id).2 := by
  obtain ⟨hsound, hentries, _⟩ := PinCache.get_spec h.sound h.lifetime id s.now
  have hsame : (s.pins.get id s.now).2.lifetime = s.pins.lifetime ∧
      (s.pins.get id s.now).2.capacity = s.pins.capacity := by
    unfold PinCache.get
    split
    · exact ⟨rfl, rfl⟩
    · split <;> exact ⟨rfl, rfl⟩
  refine ⟨h.consistent, hsound, hsame.1.trans h.lifetime, hsame.2.trans h.capacity, ?_⟩
  intro x p hp
  exact h.keyed x p (hentries ▸ hp)

theorem Listed.kept {v : Value} {r : Nat × Inspector} (hr : Listed s v r) (h : Kept room s) :
    Kept room r.2 := by
  cases hr with
  | plain => exact h
  | parts => exact h.register v
  | table => exact (h.withMade _).pin _

theorem Kept.rows (h : Kept room s) (xs : List (String × Value)) : Kept room (s.rows xs).2 := by
  induction xs generalizing s with
  | nil => exact h
  | cons x xs ih => exact ih ((listed_row s x.1 x.2).kept h)

theorem Kept.children (h : Kept room s) (outside : List Value) (id : Nat) (filter : ChildFilter)
    (start count : Option Nat) : Kept room (s.children outside id filter start count).2 := by
  unfold Inspector.children
  split
  · exact h
  · rename_i v _
    have hlook := h.look id
    have hlisting := listing_childrenOf (s.pinned? id).2 v filter start count
    generalize (s.pinned? id).2.childrenOf v filter start count = r at hlisting
    cases hlisting with
    | nothing => exact hlook
    | parts => exact hlook.rows _
    | table => exact ((hlook.withMade _).pinAll _).rows _

theorem keep_cases (s : Inspector) (id : Nat) (v : Value) :
    Debugger.keep s id v = s ∨ Debugger.keep s id v = (s.pinned? id).2 ∨
      (s.pinned? id).1 = none ∧ Debugger.keep s id v =
        { (s.pinned? id).2 with pins := (s.pinned? id).2.pins.put id v (s.pinned? id).2.now } := by
  unfold Debugger.keep
  split
  · exact Or.inl rfl
  · split
    · rename_i hpin
      exact Or.inr (Or.inl (by rw [hpin]))
    · rename_i hpin
      exact Or.inr (Or.inr (by simp [hpin]))

/-- A value is kept under the handle in its row. If that is not the value's own, it is that of an
array which is pinned already. -/
theorem Listed.kept_keep {v : Value} {r : Nat × Inspector} (hr : Listed s v r) (h : Kept room s)
    (hroom : 0 < room) : Kept room (Debugger.keep r.2 r.1 v) := by
  have hrow := hr.kept h
  rcases keep_cases r.2 r.1 v with heq | heq | ⟨hnone, heq⟩
  · rw [heq]
    exact hrow
  · rw [heq]
    exact hrow.look r.1
  · cases hr with
    | plain => exact hrow
    | parts =>
      rw [heq]
      exact (hrow.look _).put (Handles.get?_register_self h.consistent v.identity)
    | @table columns rows =>
      have hpinned := recent_pin (h.withMade (s.made + rows.length + 1)) hroom
        (tableArray s.made columns rows)
      obtain ⟨_, _, hfound⟩ := PinCache.get_spec hrow.sound hrow.lifetime _ s.now
      exact absurd ((hfound _ hpinned.entry).1.symm.trans hnone) (by simp)

end

/-! ## Histories -/

inductive Action where
  | register (v : Value)
  | pin (v : Value)
  | row (name : String) (v : Value)
  /-- A row is shown for a value, and the value is kept. -/
  | keep (name : String) (v : Value)
  | exception (e : Exception)
  | look (id : Nat)
  | children (outside : List Value) (id : Nat) (filter : ChildFilter) (start count : Option Nat)
  | setPath (id : Nat) (path : String)
  | setFrame (id : Nat) (frame : Int)
  | reclaim (outside : List Value)
  | passTo (time : Nat)
  | clear
  | clearHandles
  | clearPins

def after (s : Inspector) : Action → Inspector
  | .register v => (s.register v).2
  | .pin v => (s.pin v).2
  | .row name v => (s.row name v).2
  | .keep name v =>
    let (row, s) := s.row name v
    Debugger.keep s row.reference v
  | .exception e => (s.makeException e).2
  | .look id => (s.pinned? id).2
  | .children outside id filter start count => (s.children outside id filter start count).2
  | .setPath id path => { s with handles := s.handles.setPath id path }
  | .setFrame id frame => { s with handles := s.handles.setFrame id frame }
  | .reclaim outside => (s.reclaim outside).2
  | .passTo time => { s with now := time }
  | .clear => s.clear
  | .clearHandles => { s with handles := s.handles.clear }
  | .clearPins => { s with pins := s.pins.clear }

def run (s : Inspector) (actions : List Action) : Inspector := actions.foldl after s

section
variable {room : Nat} {s : Inspector}

theorem Kept.clearPins (h : Kept room s) : Kept room { s with pins := s.pins.clear } where
  consistent := h.consistent
  sound := PinCache.sound_clear _
  lifetime := h.lifetime
  capacity := h.capacity
  keyed := by simp [PinCache.clear]

theorem Kept.clearHandles (h : Kept room s) : Kept room { s with handles := s.handles.clear } :=
  h.of_later rfl (Handles.later_clear h.consistent)

theorem Kept.reclaim (h : Kept room s) (outside : List Value) : Kept room (s.reclaim outside).2 := by
  unfold Inspector.reclaim
  rw [PinCache.purge_eq_self h.sound h.lifetime]
  exact h.of_later rfl (Handles.later_reclaim h.consistent _)

theorem Kept.after (h : Kept room s) (hroom : 0 < room) (a : Action) : Kept room (s.after a) := by
  cases a with
  | register v => exact h.register v
  | pin v => exact h.pin v
  | row name v => exact (listed_row s name v).kept h
  | keep name v => exact (listed_row s name v).kept_keep h hroom
  | exception e =>
    simp only [Inspector.after, makeException, makeAll_eq]
    exact h.withMade _
  | look id => exact h.look id
  | children outside id filter start count => exact h.children outside id filter start count
  | setPath id path =>
    exact h.of_later rfl (.of_byId_eq (h.consistent.setPath id path) (Handles.setPath_byId ..)
      (Handles.setPath_nextId ..))
  | setFrame id frame =>
    exact h.of_later rfl (.of_byId_eq (h.consistent.setFrame id frame) (Handles.setFrame_byId ..)
      (Handles.setFrame_nextId ..))
  | reclaim outside => exact h.reclaim outside
  | passTo time => exact h.of_eq rfl rfl
  | clear => exact h.clearPins.clearHandles
  | clearHandles => exact h.clearHandles
  | clearPins => exact h.clearPins

theorem kept_run (capacity : Nat) (actions : List Action) :
    Kept (max capacity 1) ((new capacity none).run actions) := by
  have hnew := kept_new capacity
  unfold run
  generalize new capacity none = s at hnew
  induction actions generalizing s with
  | nil => exact hnew
  | cons a actions ih => exact ih _ (hnew.after (by omega) a)

end

end Inspector

end DebugAdapter
