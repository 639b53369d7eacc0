import DebugAdapter.Proofs.Value.Memory
import DebugAdapter.Value.Handles

/-!
# The tables of handles

The tables of `Handles` describe one another: an address leads to a handle exactly if the handle's
allocation is there (`Consistent`). What leaves the tables is described once, by `Without`; giving a
handle is described by `get?_register`.
-/

namespace DebugAdapter

namespace Handles

/-- Tables that describe one another. -/
structure Consistent (h : Handles) : Prop where
  positive : 0 < h.nextId
  numbered : ∀ id i, h.byId.get? id = some i → 0 < id ∧ id < h.nextId
  addressed : ∀ a id, h.byAddress.get? a = some id ↔ ∃ i, h.byId.get? id = some i ∧ i.address = a
  paths : ∀ id path, h.paths.get? id = some path → ∃ i, h.byId.get? id = some i
  frames : ∀ id frame, h.frames.get? id = some frame → ∃ i, h.byId.get? id = some i

theorem consistent_new : Consistent new where
  positive := Nat.one_pos
  numbered := by simp [new]
  addressed := by simp [new]
  paths := by simp [new]
  frames := by simp [new]

theorem Consistent.clear {h : Handles} (hc : Consistent h) : Consistent h.clear where
  positive := hc.positive
  numbered := by simp [Handles.clear, new]
  addressed := consistent_new.addressed
  paths := consistent_new.paths
  frames := consistent_new.frames

section
variable {h : Handles} {id id' : Nat} {i : Identity}

theorem Consistent.unique (hc : Consistent h) {j : Identity} (hi : h.byId.get? id = some i)
    (hj : h.byId.get? id' = some j) (hij : i.address = j.address) : id = id' := by
  have hid := (hc.addressed i.address id).mpr ⟨i, hi, rfl⟩
  have hid' := (hc.addressed i.address id').mpr ⟨j, hj, hij.symm⟩
  exact Option.some.inj (hid.symm.trans hid')

theorem Consistent.idOf?_eq_some_iff (hc : Consistent h) :
    h.idOf? i = some id ↔ h.byId.get? id = some i := by
  simp only [idOf?, Option.bind_eq_bind, Option.bind_eq_some_iff, Option.ite_none_right_eq_some,
    Option.some.injEq]
  constructor
  · rintro ⟨_, _, hi, rfl⟩
    exact hi
  · intro hi
    exact ⟨id, (hc.addressed i.address id).mpr ⟨i, hi, rfl⟩, hi, rfl⟩

end

/-! ## Leaving the tables -/

/-- The tables without some handles: everything else is as before. -/
structure Without (h : Handles) (ids : List Nat) (h' : Handles) : Prop where
  consistent : Consistent h'
  nextId : h'.nextId = h.nextId
  byId : ∀ id, h'.byId.get? id = if id ∈ ids then none else h.byId.get? id
  byAddress : ∀ a, h'.byAddress.get? a = (h.byAddress.get? a).filter (· ∉ ids)
  paths : ∀ id, h'.paths.get? id = if id ∈ ids then none else h.paths.get? id
  frames : ∀ id, h'.frames.get? id = if id ∈ ids then none else h.frames.get? id

theorem Without.refl {h : Handles} (hc : Consistent h) : Without h [] h where
  consistent := hc
  nextId := rfl
  byId := by simp
  byAddress _ := (optionFilter_eq_self (by simp)).symm
  paths := by simp
  frames := by simp

theorem Without.append {h h' h'' : Handles} {ids ids' : List Nat} (hw : Without h ids h')
    (hw' : Without h' ids' h'') : Without h (ids ++ ids') h'' where
  consistent := hw'.consistent
  nextId := hw'.nextId.trans hw.nextId
  byId id := by
    rw [hw'.byId, hw.byId]
    by_cases h' : id ∈ ids' <;> simp [h']
  byAddress a := by
    rw [hw'.byAddress, hw.byAddress, Option.filter_filter]
    simp
  paths id := by
    rw [hw'.paths, hw.paths]
    by_cases h' : id ∈ ids' <;> simp [h']
  frames id := by
    rw [hw'.frames, hw.frames]
    by_cases h' : id ∈ ids' <;> simp [h']

/-- The entry for the address of a handle is the handle's own, so it leaves with the handle. -/
theorem byAddress_forget {h : Handles} (hc : Consistent h) (id : Nat) (a : Address) :
    (h.forget id).byAddress.get? a = (h.byAddress.get? a).filter (· ∉ [id]) := by
  have hself : ∀ b, (h.byAddress.get? b).filter (· ∉ [id]) =
      if h.byAddress.get? b = some id then none else h.byAddress.get? b := by
    intro b
    cases h.byAddress.get? b with
    | none => rfl
    | some x => by_cases hx : x = id <;> simp [Option.filter_some, hx]
  rw [hself]
  cases hi : h.byId.get? id with
  | none =>
    have habsent : h.byAddress.get? a ≠ some id := by
      rw [ne_eq, hc.addressed, hi]
      simp
    simp [forget, hi, habsent]
  | some i =>
    have hown : h.byAddress.get? i.address = some id := (hc.addressed _ _).mpr ⟨i, hi, rfl⟩
    simp only [forget, hi, hown, if_true, Table.get?_erase]
    by_cases ha : a = i.address
    · simp [ha, hown]
    · have hother : h.byAddress.get? a ≠ some id := by
        rw [ne_eq, hc.addressed, hi]
        rintro ⟨_, ⟨⟩, rfl⟩
        exact ha rfl
      simp [ha, hother]

theorem without_forget {h : Handles} (hc : Consistent h) (id : Nat) : Without h [id] (h.forget id) := by
  have hbyId : ∀ x, (h.forget id).byId.get? x = if x ∈ [id] then none else h.byId.get? x := by
    intro x
    simp [forget, Table.get?_erase]
  have hpaths : ∀ x, (h.forget id).paths.get? x = if x ∈ [id] then none else h.paths.get? x := by
    intro x
    simp [forget, Table.get?_erase]
  have hframes : ∀ x, (h.forget id).frames.get? x = if x ∈ [id] then none else h.frames.get? x := by
    intro x
    simp [forget, Table.get?_erase]
  refine ⟨⟨hc.positive, ?_, ?_, ?_, ?_⟩, rfl, hbyId, byAddress_forget hc id, hpaths, hframes⟩
  · intro x i hx
    rw [hbyId, Option.ite_none_left_eq_some] at hx
    exact hc.numbered x i hx.2
  · intro a x
    rw [byAddress_forget hc, Option.filter_eq_some_iff, hc.addressed, hbyId]
    by_cases hx : x ∈ [id] <;> simp [hx]
  · intro x path hx
    rw [hpaths, Option.ite_none_left_eq_some] at hx
    rw [hbyId, if_neg hx.1]
    exact hc.paths x path hx.2
  · intro x frame hx
    rw [hframes, Option.ite_none_left_eq_some] at hx
    rw [hbyId, if_neg hx.1]
    exact hc.frames x frame hx.2

theorem without_foldl_forget {h : Handles} (hc : Consistent h) (ids : List Nat) :
    Without h ids (ids.foldl forget h) := by
  induction ids generalizing h with
  | nil => exact .refl hc
  | cons id ids ih =>
    have hfirst := without_forget hc id
    exact hfirst.append (ih hfirst.consistent)

theorem mem_dead_iff {h : Handles} {alive : Identity → Bool} {id : Nat} :
    id ∈ h.dead alive ↔ ∃ i, h.byId.get? id = some i ∧ alive i = false := by
  simp only [dead, Table.keys, Table.filter, List.mem_map, List.mem_filter, Prod.exists,
    Bool.not_eq_true', Table.mem_iff_get?]
  constructor
  · rintro ⟨_, i, ⟨hi, hdead⟩, rfl⟩
    exact ⟨i, hi, hdead⟩
  · rintro ⟨i, hi, hdead⟩
    exact ⟨id, i, ⟨hi, hdead⟩, rfl⟩

theorem nodup_dead (h : Handles) (alive : Identity → Bool) : (h.dead alive).Nodup :=
  (h.byId.filter fun _ i => !alive i).nodup

theorem without_reclaim {h : Handles} (hc : Consistent h) (alive : Identity → Bool) :
    Without h (h.dead alive) (h.reclaim alive).2 :=
  without_foldl_forget hc _

theorem get?_reclaim {h : Handles} (hc : Consistent h) (alive : Identity → Bool) (id : Nat) :
    (h.reclaim alive).2.byId.get? id = (h.byId.get? id).filter alive := by
  simp only [(without_reclaim hc alive).byId, mem_dead_iff]
  cases hid : h.byId.get? id with
  | none => simp
  | some i => cases halive : alive i <;> simp [Option.filter_some, halive]

/-! ## Giving a handle -/

theorem get?_forgetAt {h : Handles} (hc : Consistent h) (a : Address) (id : Nat) :
    (h.forgetAt a).byId.get? id = (h.byId.get? id).filter (·.address ≠ a) := by
  cases hstale : h.byAddress.get? a with
  | none =>
    have hother : ∀ i, h.byId.get? id = some i → i.address ≠ a := by
      rintro i hi rfl
      rw [(hc.addressed i.address id).mpr ⟨i, hi, rfl⟩] at hstale
      contradiction
    simp only [forgetAt, hstale]
    exact (optionFilter_eq_self fun i hi => decide_eq_true (hother i hi)).symm
  | some stale =>
    obtain ⟨j, hj, hja⟩ := (hc.addressed a stale).mp hstale
    simp only [forgetAt, hstale, (without_forget hc stale).byId, List.mem_singleton]
    by_cases hid : id = stale
    · simp [hid, hj, hja, Option.filter_some]
    · have hother : ∀ i, h.byId.get? id = some i → i.address ≠ a := by
        rintro i hi rfl
        exact hid (hc.unique hi hj hja.symm)
      rw [if_neg hid]
      exact (optionFilter_eq_self fun i hi => decide_eq_true (hother i hi)).symm

theorem consistent_forgetAt {h : Handles} (hc : Consistent h) (a : Address) :
    Consistent (h.forgetAt a) := by
  unfold forgetAt
  split
  · exact (without_forget hc _).consistent
  · exact hc

theorem nextId_forgetAt (h : Handles) (a : Address) : (h.forgetAt a).nextId = h.nextId := by
  unfold forgetAt
  split <;> rfl

/-- The tables with a new handle for an allocation at an address that no handle leads to. -/
def give (h : Handles) (i : Identity) : Handles :=
  { h with
    nextId := h.nextId + 1
    byId := h.byId.insert h.nextId i
    byAddress := h.byAddress.insert i.address h.nextId }

theorem consistent_give {h : Handles} (hc : Consistent h) {i : Identity}
    (hfree : ∀ id j, h.byId.get? id = some j → j.address ≠ i.address) : Consistent (h.give i) := by
  have hnew : ∀ j, h.byId.get? h.nextId ≠ some j := fun j hj =>
    Nat.lt_irrefl _ (hc.numbered _ j hj).2
  have hbyId : ∀ id, (h.give i).byId.get? id = if id = h.nextId then some i else h.byId.get? id :=
    Table.get?_insert _ _ _
  have hknown : ∀ {id}, (∃ j, h.byId.get? id = some j) → ∃ j, (h.give i).byId.get? id = some j := by
    rintro id ⟨j, hj⟩
    have hid : id ≠ h.nextId := by
      rintro rfl
      exact hnew j hj
    exact ⟨j, by rw [hbyId, if_neg hid, hj]⟩
  refine ⟨Nat.succ_pos _, ?_, ?_, fun id path hp => hknown (hc.paths id path hp),
    fun id frame hf => hknown (hc.frames id frame hf)⟩
  · intro id j hj
    rw [hbyId] at hj
    split at hj
    · rename_i hid
      exact hid ▸ ⟨hc.positive, Nat.lt_succ_self _⟩
    · have hold := hc.numbered id j hj
      exact ⟨hold.1, Nat.lt_succ_of_lt hold.2⟩
  · intro a id
    have hbyAddress : (h.give i).byAddress.get? a =
        if a = i.address then some h.nextId else h.byAddress.get? a := Table.get?_insert _ _ _ _
    rw [hbyAddress, hbyId]
    by_cases ha : a = i.address
    · subst ha
      by_cases hid : id = h.nextId
      · simp [hid]
      · simp only [if_true, hid, if_false, Option.some.injEq]
        refine ⟨fun he => absurd he.symm hid, ?_⟩
        rintro ⟨j, hj, hja⟩
        exact absurd hja (hfree id j hj)
    · rw [if_neg ha, hc.addressed]
      by_cases hid : id = h.nextId
      · subst hid
        simp only [if_true, Option.some.injEq]
        constructor
        · rintro ⟨j, hj, _⟩
          exact absurd hj (hnew j)
        · rintro ⟨_, rfl, rfl⟩
          exact absurd rfl ha
      · simp [hid]

/-- A handle is known already, or it is new and takes the place of a former one at its address. -/
theorem register_cases {h : Handles} (hc : Consistent h) (i : Identity) :
    (∃ id, h.byId.get? id = some i ∧ h.register i = (id, h)) ∨
      (∀ id, h.byId.get? id ≠ some i) ∧
        h.register i = (h.nextId, (h.forgetAt i.address).give i) := by
  cases hid : h.idOf? i with
  | some id => exact Or.inl ⟨id, hc.idOf?_eq_some_iff.mp hid, by simp [register, hid]⟩
  | none =>
    refine Or.inr ⟨?_, ?_⟩
    · intro id hi
      rw [hc.idOf?_eq_some_iff.mpr hi] at hid
      contradiction
    · simp [register, hid, give, nextId_forgetAt]

section
variable {h : Handles} (hc : Consistent h) (i : Identity)
include hc

theorem free_forgetAt (id : Nat) (j : Identity)
    (hj : (h.forgetAt i.address).byId.get? id = some j) : j.address ≠ i.address := by
  rw [get?_forgetAt hc, Option.filter_eq_some_iff] at hj
  simpa using hj.2

theorem consistent_register : Consistent (h.register i).2 := by
  rcases register_cases hc i with ⟨id, _, heq⟩ | ⟨_, heq⟩
  · rw [heq]
    exact hc
  · rw [heq]
    exact consistent_give (consistent_forgetAt hc _) (free_forgetAt hc i)

/-- The handle leads to the allocation, and no other handle to an allocation at its address. -/
theorem get?_register (id : Nat) :
    (h.register i).2.byId.get? id =
      if id = (h.register i).1 then some i
      else (h.byId.get? id).filter (·.address ≠ i.address) := by
  rcases register_cases hc i with ⟨known, hknown, heq⟩ | ⟨_, heq⟩
  · rw [heq]
    split
    · rename_i hid
      exact hid ▸ hknown
    · rename_i hid
      have hother : ∀ j, h.byId.get? id = some j → j.address ≠ i.address := fun j hj ha =>
        hid (hc.unique hj hknown ha)
      exact (optionFilter_eq_self fun j hj => decide_eq_true (hother j hj)).symm
  · rw [heq, ← get?_forgetAt hc, ← nextId_forgetAt h i.address]
    exact Table.get?_insert _ _ _ _

theorem get?_register_self : (h.register i).2.byId.get? (h.register i).1 = some i := by
  rw [get?_register hc, if_pos rfl]

/-- A handle whose allocation is elsewhere stays. -/
theorem get?_register_of_get? {id : Nat} {j : Identity} (hj : h.byId.get? id = some j)
    (happart : j.address = i.address → j = i) : (h.register i).2.byId.get? id = some j := by
  rw [get?_register hc]
  split
  · rename_i hid
    rcases register_cases hc i with ⟨known, hknown, heq⟩ | ⟨_, heq⟩
    · rw [heq] at hid
      rw [← hknown, ← hj, hid]
    · rw [heq] at hid
      exact absurd (hc.numbered id j hj).2 (by rw [hid]; exact Nat.lt_irrefl _)
  · rename_i hid
    have hother : j.address ≠ i.address := by
      intro ha
      have hnow : h.register i = (id, h) := by
        rcases register_cases hc i with ⟨known, hknown, heq⟩ | ⟨habsent, _⟩
        · rw [heq, hc.unique hj hknown ha]
        · exact absurd (happart ha ▸ hj) (habsent id)
      exact hid (by rw [hnow])
    rw [hj]
    exact Option.filter_some_pos (decide_eq_true hother)

theorem register_of_get? {id : Nat} (hi : h.byId.get? id = some i) : h.register i = (id, h) := by
  simp [register, hc.idOf?_eq_some_iff.mpr hi]

theorem register_numbered :
    0 < (h.register i).1 ∧ (h.register i).1 < (h.register i).2.nextId :=
  (consistent_register hc i).numbered _ i (get?_register_self hc i)

theorem nextId_le_register : h.nextId ≤ (h.register i).2.nextId := by
  rcases register_cases hc i with ⟨_, _, heq⟩ | ⟨_, heq⟩
  · simp [heq]
  · simp [heq, give, nextId_forgetAt]

end

/-! ## Notes on handles -/

theorem setPath_byId (h : Handles) (id : Nat) (path : String) :
    (h.setPath id path).byId = h.byId := by
  unfold setPath
  split <;> rfl

theorem setFrame_byId (h : Handles) (id : Nat) (frame : Int) :
    (h.setFrame id frame).byId = h.byId := by
  unfold setFrame
  split <;> rfl

theorem setPath_nextId (h : Handles) (id : Nat) (path : String) :
    (h.setPath id path).nextId = h.nextId := by
  unfold setPath
  split <;> rfl

theorem setFrame_nextId (h : Handles) (id : Nat) (frame : Int) :
    (h.setFrame id frame).nextId = h.nextId := by
  unfold setFrame
  split <;> rfl

theorem exists_of_contains {h : Handles} {id : Nat} (hid : h.byId.contains id = true) :
    ∃ i, h.byId.get? id = some i :=
  Option.isSome_iff_exists.mp hid

theorem Consistent.setPath {h : Handles} (hc : Consistent h) (id : Nat) (path : String) :
    Consistent (h.setPath id path) := by
  unfold Handles.setPath
  split
  · rename_i hid
    refine { hc with paths := ?_ }
    intro x p hx
    rw [Table.get?_insert] at hx
    split at hx
    · rename_i hxid
      subst hxid
      exact exists_of_contains hid
    · exact hc.paths x p hx
  · exact hc

theorem Consistent.setFrame {h : Handles} (hc : Consistent h) (id : Nat) (frame : Int) :
    Consistent (h.setFrame id frame) := by
  unfold Handles.setFrame
  split
  · rename_i hid
    refine { hc with frames := ?_ }
    intro x f hx
    rw [Table.get?_insert] at hx
    split at hx
    · rename_i hxid
      subst hxid
      exact exists_of_contains hid
    · exact hc.frames x f hx
  · exact hc

end Handles

end DebugAdapter
