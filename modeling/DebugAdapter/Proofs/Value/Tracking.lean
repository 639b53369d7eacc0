import DebugAdapter.Proofs.Value.Handles

/-!
# Handles along a history

A `Tracking` is a table of handles with the memory that it speaks of and a record of what has been
given. Values come up and go as the debuggee likes (`Action.hold`), within two laws: there is one
value at an address at a time, and an allocation that is gone does not come back. Addresses may be
used again, also while a handle of the former allocation is still in the table.
-/

namespace DebugAdapter

open Value (Within Coherent Alive)

structure Tracking where
  handles : Handles
  held : List Value
  /-- The allocations that have been alive and are no more. -/
  gone : Identity → Prop
  /-- All handles given so far, with their allocations. -/
  given : List (Nat × Identity)
  /-- Those given since the table was last cleared. -/
  current : List (Nat × Identity)

namespace Tracking

inductive Action where
  /-- From now on these values are held. -/
  | hold (held : List Value)
  | register (v : Value)
  | setPath (id : Nat) (path : String)
  | setFrame (id : Nat) (frame : Int)
  | reclaim
  | clear

def start : Tracking := ⟨.new, [], fun _ => False, [], []⟩

/-- The allocation is that of a value that is held. -/
def Lives (s : Tracking) (i : Identity) : Prop := ∃ v, Within s.held v ∧ v.identity = i

def after (s : Tracking) : Action → Tracking
  | .hold held =>
    { s with held, gone := fun i => s.gone i ∨ s.Lives i ∧ ¬∃ v, Within held v ∧ v.identity = i }
  | .register v =>
    let (id, handles) := s.handles.register v.identity
    { s with
      handles
      given := (id, v.identity) :: s.given
      current := (id, v.identity) :: s.current }
  | .setPath id path => { s with handles := s.handles.setPath id path }
  | .setFrame id frame => { s with handles := s.handles.setFrame id frame }
  | .reclaim => { s with handles := (s.handles.reclaim (Value.holding s.held).contains).2 }
  | .clear => { s with handles := s.handles.clear, current := [] }

def run (s : Tracking) (actions : List Action) : Tracking := actions.foldl after s

/-- Memory has one value at an address, an allocation that is gone stays away, and only a value that
is held can be shown to the table. -/
def Lawful (s : Tracking) : Action → Prop
  | .hold held => Coherent held ∧ ∀ v, Within held v → ¬s.gone v.identity
  | .register v => Within s.held v
  | _ => True

/-- Every action is lawful where it happens. -/
def LawfulAlong : Tracking → List Action → Prop
  | _, [] => True
  | s, a :: actions => s.Lawful a ∧ LawfulAlong (s.after a) actions

/-- The table agrees with the record. -/
structure Sound (s : Tracking) : Prop where
  coherent : Coherent s.held
  consistent : s.handles.Consistent
  numbered : ∀ x ∈ s.given, 0 < x.1 ∧ x.1 < s.handles.nextId
  once : ∀ x ∈ s.given, ∀ y ∈ s.given, x.1 = y.1 → x.2 = y.2
  recorded : ∀ x ∈ s.current, x ∈ s.given
  known : ∀ id i, s.handles.byId.get? id = some i → (id, i) ∈ s.current
  kept : ∀ id i, (id, i) ∈ s.current → s.Lives i → s.handles.byId.get? id = some i
  lived : ∀ id i, (id, i) ∈ s.current → s.Lives i ∨ s.gone i

theorem sound_start : Sound start where
  coherent v w hv := absurd hv Value.not_within_nil
  consistent := Handles.consistent_new
  numbered := by simp [start]
  once := by simp [start]
  recorded := by simp [start]
  known := by simp [start, Handles.new]
  kept := by simp [start]
  lived := by simp [start]

namespace Sound
variable {s : Tracking}

theorem hold (h : Sound s) {held : List Value} (hlaw : s.Lawful (.hold held)) :
    Sound (s.after (.hold held)) := by
  obtain ⟨hcoherent, hreturns⟩ := hlaw
  refine ⟨hcoherent, h.consistent, h.numbered, h.once, h.recorded, h.known, ?_, ?_⟩
  · rintro id i hid ⟨v, hv, rfl⟩
    -- What lives now and was given a handle has lived all the time.
    have hlives := (h.lived id v.identity hid).resolve_right (hreturns v hv)
    exact h.kept id v.identity hid hlives
  · intro id i hid
    by_cases hnow : ∃ v, Within held v ∧ v.identity = i
    · exact Or.inl hnow
    · rcases h.lived id i hid with hlives | hgone
      · exact Or.inr (Or.inr ⟨hlives, hnow⟩)
      · exact Or.inr (Or.inl hgone)

theorem register (h : Sound s) {v : Value} (hv : Within s.held v) :
    Sound (s.after (.register v)) := by
  have hconsistent := Handles.consistent_register h.consistent v.identity
  have hself := Handles.get?_register_self h.consistent v.identity
  have hlater := Handles.nextId_le_register h.consistent v.identity
  -- A handle that was given before is given again only for its own allocation.
  have hagain : ∀ i, ((s.handles.register v.identity).1, i) ∈ s.given → i = v.identity := by
    intro i hi
    rcases Handles.register_cases h.consistent v.identity with ⟨id, hid, heq⟩ | ⟨_, heq⟩
    · rw [heq] at hi
      exact h.once _ hi _ (h.recorded _ (h.known _ _ hid)) rfl
    · rw [heq] at hi
      exact absurd (h.numbered _ hi).2 (Nat.lt_irrefl _)
  refine ⟨h.coherent, hconsistent, ?_, ?_, ?_, ?_, ?_, ?_⟩
  · intro x hx
    rcases List.mem_cons.mp hx with rfl | hx
    · exact Handles.register_numbered h.consistent v.identity
    · exact ⟨(h.numbered x hx).1, Nat.lt_of_lt_of_le (h.numbered x hx).2 hlater⟩
  · rintro ⟨id, i⟩ hx ⟨id', i'⟩ hy (rfl : id = id')
    rcases List.mem_cons.mp hx with hx | hx <;> rcases List.mem_cons.mp hy with hy | hy
    · cases hx
      cases hy
      rfl
    · cases hx
      exact (hagain i' hy).symm
    · cases hy
      exact hagain i hx
    · exact h.once _ hx _ hy rfl
  · exact fun x hx => List.mem_cons.mpr ((List.mem_cons.mp hx).imp_right (h.recorded x))
  · intro id i hi
    have hget := Handles.get?_register h.consistent v.identity id
    rw [show (s.after (.register v)).handles.byId = (s.handles.register v.identity).2.byId from rfl,
      hget] at hi
    split at hi
    · rename_i hid
      cases hi
      exact List.mem_cons.mpr (Or.inl (Prod.ext hid rfl))
    · exact List.mem_cons_of_mem _ (h.known id i (Option.filter_eq_some_iff.mp hi).1)
  · intro id i hid hlives
    rcases List.mem_cons.mp hid with hid | hid
    · cases hid
      exact hself
    · apply Handles.get?_register_of_get? h.consistent v.identity (h.kept id i hid hlives)
      obtain ⟨w, hw, rfl⟩ := hlives
      intro haddress
      rw [h.coherent w v hw hv haddress]
  · intro id i hid
    rcases List.mem_cons.mp hid with hid | hid
    · cases hid
      exact Or.inl ⟨v, hv, rfl⟩
    · exact h.lived id i hid

/-- Notes on handles change nothing of this. -/
theorem noted (h : Sound s) {handles : Handles} (hconsistent : handles.Consistent)
    (hbyId : handles.byId = s.handles.byId) (hnext : handles.nextId = s.handles.nextId) :
    Sound { s with handles } where
  coherent := h.coherent
  consistent := hconsistent
  numbered := by
    simp only [hnext]
    exact h.numbered
  once := h.once
  recorded := h.recorded
  known := by
    simp only [hbyId]
    exact h.known
  kept := by
    simp only [hbyId]
    exact h.kept
  lived := h.lived

theorem lives_iff (h : Sound s) (i : Identity) :
    s.Lives i ↔ (Value.holding s.held).contains i = true := by
  constructor
  · rintro ⟨v, hv, rfl⟩
    exact h.coherent.alive hv
  · exact Alive.exists_within

theorem reclaim (h : Sound s) : Sound (s.after .reclaim) := by
  have hget := Handles.get?_reclaim h.consistent (Value.holding s.held).contains
  have hwithout := Handles.without_reclaim h.consistent (Value.holding s.held).contains
  refine ⟨h.coherent, hwithout.consistent, ?_, h.once, h.recorded, ?_, ?_, h.lived⟩
  · intro x hx
    exact ⟨(h.numbered x hx).1, Nat.lt_of_lt_of_eq (h.numbered x hx).2 hwithout.nextId.symm⟩
  · intro id i hi
    exact h.known id i (Option.filter_eq_some_iff.mp ((hget id).symm.trans hi)).1
  · intro id i hid hlives
    refine (hget id).trans (Option.filter_eq_some_iff.mpr ⟨h.kept id i hid hlives, ?_⟩)
    exact (h.lives_iff i).mp hlives

theorem after (h : Sound s) {a : Action} (hlaw : s.Lawful a) : Sound (s.after a) := by
  cases a with
  | hold held => exact h.hold hlaw
  | register v => exact h.register hlaw
  | setPath id path =>
    exact h.noted (h.consistent.setPath id path) (Handles.setPath_byId ..) (Handles.setPath_nextId ..)
  | setFrame id frame =>
    exact h.noted (h.consistent.setFrame id frame) (Handles.setFrame_byId ..)
      (Handles.setFrame_nextId ..)
  | reclaim => exact h.reclaim
  | clear =>
    exact ⟨h.coherent, h.consistent.clear, h.numbered, h.once, by simp [Tracking.after],
      by simp [Tracking.after, Handles.clear, Handles.new], by simp [Tracking.after],
      by simp [Tracking.after]⟩

theorem run (h : Sound s) {actions : List Action} (hlaw : LawfulAlong s actions) :
    Sound (s.run actions) := by
  induction actions generalizing s with
  | nil => exact h
  | cons a actions ih => exact ih (h.after hlaw.1) hlaw.2

theorem resolve?_eq_some_iff (h : Sound s) {id : Nat} {v : Value} :
    s.handles.resolve? s.held id = some v ↔ Within s.held v ∧ (id, v.identity) ∈ s.current := by
  simp only [Handles.resolve?, Option.bind_eq_some_iff, h.coherent.holding_eq_some_iff]
  constructor
  · rintro ⟨_, hi, hv, rfl⟩
    exact ⟨hv, h.known id _ hi⟩
  · rintro ⟨hv, hid⟩
    exact ⟨v.identity, h.kept id _ hid ⟨v, hv, rfl⟩, hv, rfl⟩

end Sound

/-- After every lawful history: zero is not given, and no handle is given for two allocations; a
value that is held and has a handle is given the same one again, and two of them have two; a handle
leads to the value that it was given for as long as that is held and the table has not been cleared,
and to nothing else; only handles in the table have paths and frames; and reclaiming takes out
exactly the handles of what is gone, with all that is noted under them, and counts them. -/
theorem handles_track_values (actions : List Action) (hlaw : LawfulAlong start actions) :
    let s := start.run actions
    (∀ x ∈ s.given, x.1 ≠ 0) ∧
    (∀ x ∈ s.given, ∀ y ∈ s.given, x.1 = y.1 → x.2 = y.2) ∧
    (∀ id v, (id, v.identity) ∈ s.current → Within s.held v →
      s.handles.register v.identity = (id, s.handles)) ∧
    (∀ id id' v w, (id, v.identity) ∈ s.current → (id', w.identity) ∈ s.current →
      Within s.held v → Within s.held w → (id = id' ↔ v = w)) ∧
    (∀ id v, s.handles.resolve? s.held id = some v ↔
      Within s.held v ∧ (id, v.identity) ∈ s.current) ∧
    (∀ id, (s.handles.path? id).isSome ∨ (s.handles.frame? id).isSome →
      s.handles.byId.contains id = true) ∧
    ∃ removed : List Nat, removed.Nodup ∧
      (∀ id, id ∈ removed ↔ ∃ i, s.handles.byId.get? id = some i ∧ ¬s.Lives i) ∧
      (s.handles.reclaim (Value.holding s.held).contains).1 = removed.length ∧
      s.handles.Without removed (s.handles.reclaim (Value.holding s.held).contains).2 := by
  intro s
  have h : Sound s := sound_start.run hlaw
  have hregister : ∀ id v, (id, v.identity) ∈ s.current → Within s.held v →
      s.handles.register v.identity = (id, s.handles) := fun id v hid hv =>
    Handles.register_of_get? h.consistent v.identity (h.kept id _ hid ⟨v, hv, rfl⟩)
  refine ⟨fun x hx => Nat.ne_of_gt (h.numbered x hx).1, h.once, hregister, ?_,
    fun _ _ => h.resolve?_eq_some_iff, ?_, ?_⟩
  · intro id id' v w hid hid' hv hw
    constructor
    · rintro rfl
      have hidentity := h.once _ (h.recorded _ hid) _ (h.recorded _ hid') rfl
      exact h.coherent v w hv hw (congrArg Identity.address hidentity)
    · rintro rfl
      exact congrArg Prod.fst ((hregister id v hid hv).symm.trans (hregister id' v hid' hw))
  · rintro id (hnoted | hnoted)
    · obtain ⟨path, hpath⟩ := Option.isSome_iff_exists.mp hnoted
      exact Option.isSome_iff_exists.mpr (h.consistent.paths id path hpath)
    · obtain ⟨frame, hframe⟩ := Option.isSome_iff_exists.mp hnoted
      exact Option.isSome_iff_exists.mpr (h.consistent.frames id frame hframe)
  · refine ⟨s.handles.dead (Value.holding s.held).contains, Handles.nodup_dead _ _, ?_, rfl,
      Handles.without_reclaim h.consistent _⟩
    intro id
    rw [Handles.mem_dead_iff]
    apply exists_congr
    intro i
    rw [h.lives_iff, Bool.not_eq_true]

/-- A text, an item and an array of it, where the array has the text's address. -/
def text : Value := .mk ⟨⟨1, 0⟩, 0⟩ none (.text "former")

def item : Value := .mk ⟨⟨1, 1⟩, 0⟩ none .null

def array : Value := .mk ⟨⟨1, 0⟩, 1⟩ none (.array [item])

/-- The text goes, and the array comes up at its address while the text's handle is in the table. -/
def reusedAddress : List Action :=
  [.hold [text], .register text, .setPath 1 "Local.x", .hold [], .hold [array], .register array,
    .register item, .clear, .register item, .reclaim]

theorem handles_track_values_reusedAddress :
    let s := start.run reusedAddress
    LawfulAlong start reusedAddress ∧ s.given.map (·.1) = [4, 3, 2, 1] ∧
      s.handles.resolve? s.held 4 = some item ∧ s.handles.resolve? s.held 3 = none := by
  intro s
  have htext : ∀ v, Within [text] v ↔ v = text := by
    simp [Value.within_cons_iff, Value.not_within_nil, text, Value.parts, Value.shape, Shape.parts]
  have harray : ∀ v, Within [array] v ↔ v = array ∨ v = item := by
    simp [Value.within_cons_iff, Value.not_within_nil, array, item, Value.parts, Value.shape,
      Shape.parts]
  have hfirst : Coherent [text] := Value.coherent_of_listed [text] (by simp [htext]) (by decide)
  have hsecond : Coherent [array] :=
    Value.coherent_of_listed [array, item] (by simp [harray]) (by decide)
  have hempty : Coherent [] := fun _ _ hv => absurd hv Value.not_within_nil
  -- The array is another allocation than the text that is gone by then.
  have hnew : ∀ v, Within [array] v → ¬(start.run (reusedAddress.take 4)).gone v.identity := by
    rintro v hv ((hgone | ⟨⟨w, hw, _⟩, _⟩) | ⟨⟨w, hw, hsame⟩, _⟩)
    · exact hgone
    · exact Value.not_within_nil hw
    · rw [(htext w).mp hw] at hsame
      rcases (harray v).mp hv with rfl | rfl
      · exact absurd hsame (by decide)
      · exact absurd hsame (by decide)
  have hitem : Within [array] item := (harray item).mpr (Or.inr rfl)
  have hlaw : LawfulAlong start reusedAddress :=
    ⟨⟨hfirst, fun _ _ hgone => hgone⟩, (htext text).mpr rfl, trivial,
      ⟨hempty, fun _ hv => absurd hv Value.not_within_nil⟩, ⟨hsecond, hnew⟩,
      (harray array).mpr (Or.inl rfl), hitem, trivial, hitem, trivial, trivial⟩
  obtain ⟨_, _, _, _, hresolve, _⟩ := handles_track_values reusedAddress hlaw
  refine ⟨hlaw, rfl, (hresolve 4 item).mpr ⟨hitem, ?_⟩, ?_⟩
  · exact List.mem_singleton.mpr rfl
  · rw [Option.eq_none_iff_forall_ne_some]
    intro v hv
    have hgiven := ((hresolve 3 v).mp hv).2
    cases List.mem_singleton.mp hgiven

end Tracking

end DebugAdapter
