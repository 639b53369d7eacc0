import DebugAdapter.Debugger.Requests
import DebugAdapter.Proofs.Value.Upkeep

/-!
# Tables without some dead handles

Two inspectors that differ in handles of allocations that are gone, and in nothing else (`Mirrors`),
answer alike as long as nothing that is gone is named again: what is known to one has the same handle
in the other, and what is new to one is new to both and takes the same number.
-/

namespace DebugAdapter

namespace Handles

/-- The second tables are the first without some handles of allocations that are gone. -/
structure Thins (gone : Identity → Prop) (h h' : Handles) : Prop where
  consistent : h.Consistent
  consistent' : h'.Consistent
  nextId : h'.nextId = h.nextId
  byId : ∀ id i, h'.byId.get? id = some i → h.byId.get? id = some i
  missing : ∀ id i, h.byId.get? id = some i → h'.byId.get? id = some i ∨ gone i
  paths : ∀ id i, h'.byId.get? id = some i → h'.path? id = h.path? id
  frames : ∀ id i, h'.byId.get? id = some i → h'.frame? id = h.frame? id

section
variable {gone : Identity → Prop} {h h' : Handles} {i : Identity}

theorem Thins.refl (hc : h.Consistent) : Thins gone h h :=
  ⟨hc, hc, rfl, fun _ _ hi => hi, fun _ _ hi => Or.inl hi, fun _ _ _ => rfl, fun _ _ _ => rfl⟩

theorem Thins.mono {gone' : Identity → Prop} (ht : Thins gone h h') (hgone : ∀ i, gone i → gone' i) :
    Thins gone' h h' :=
  { ht with missing := fun id i hi => (ht.missing id i hi).imp_right (hgone i) }

/-- What is not gone has its handle in both tables, with the same notes. -/
theorem Thins.present (ht : Thins gone h h') {id : Nat} (hi : h.byId.get? id = some i)
    (hpresent : ¬gone i) :
    h'.byId.get? id = some i ∧ h'.path? id = h.path? id ∧ h'.frame? id = h.frame? id := by
  have hi' := (ht.missing id i hi).resolve_right hpresent
  exact ⟨hi', ht.paths id i hi', ht.frames id i hi'⟩

/-- A handle that stays when room is made at an address keeps what is noted of it. -/
theorem notes_forgetAt (hc : h.Consistent) {a : Address} {id : Nat} (hi : h.byId.get? id = some i)
    (hother : i.address ≠ a) :
    (h.forgetAt a).path? id = h.path? id ∧ (h.forgetAt a).frame? id = h.frame? id := by
  unfold forgetAt
  split
  · rename_i stale hstale
    have hid : id ∉ [stale] := by
      rw [List.mem_singleton]
      rintro rfl
      obtain ⟨j, hj, hja⟩ := (hc.addressed a id).mp hstale
      rw [hi] at hj
      cases hj
      exact hother hja
    have hwithout := without_forget hc stale
    rw [path?, path?, frame?, frame?, hwithout.paths, hwithout.frames, if_neg hid, if_neg hid]
    exact ⟨rfl, rfl⟩
  · exact ⟨rfl, rfl⟩

/-- Nothing is noted of a number that has not been given yet. -/
theorem notes_nextId (hc : h.Consistent) (a : Address) :
    (h.forgetAt a).path? h.nextId = none ∧ (h.forgetAt a).frame? h.nextId = none := by
  have hfree : ∀ j, (h.forgetAt a).byId.get? h.nextId ≠ some j := by
    intro j hj
    have hlt := ((consistent_forgetAt hc a).numbered _ j hj).2
    rw [nextId_forgetAt] at hlt
    exact Nat.lt_irrefl _ hlt
  constructor
  · refine Option.eq_none_iff_forall_ne_some.mpr fun path hpath => ?_
    obtain ⟨j, hj⟩ := (consistent_forgetAt hc a).paths _ path hpath
    exact hfree j hj
  · refine Option.eq_none_iff_forall_ne_some.mpr fun frame hframe => ?_
    obtain ⟨j, hj⟩ := (consistent_forgetAt hc a).frames _ frame hframe
    exact hfree j hj

/-- An allocation that is not gone has the same handle in both tables, or gets it in both. -/
theorem Thins.register (ht : Thins gone h h') (hi : ¬gone i) :
    (h'.register i).1 = (h.register i).1 ∧ Thins gone (h.register i).2 (h'.register i).2 := by
  obtain ⟨hc, hc', hnext, hbyId, hmissing, hpaths, hframes⟩ := ht
  rcases register_cases hc i with ⟨id, hid, heq⟩ | ⟨hnew, heq⟩
  · have hid' : h'.byId.get? id = some i := (hmissing id i hid).resolve_right hi
    rw [heq, register_of_get? hc' i hid']
    exact ⟨rfl, hc, hc', hnext, hbyId, hmissing, hpaths, hframes⟩
  · rcases register_cases hc' i with ⟨id, hid, _⟩ | ⟨_, heq'⟩
    · exact absurd (hbyId id i hid) (hnew id)
    -- The number is new in both, and whatever was at the address leaves both.
    have hget := get?_register hc i
    have hget' := get?_register hc' i
    rw [heq] at hget
    rw [heq', hnext] at hget'
    have hnotes : ∀ id j, (if id = h.nextId then some i
        else (h'.byId.get? id).filter (·.address ≠ i.address)) = some j →
        ((h'.forgetAt i.address).path? id = (h.forgetAt i.address).path? id) ∧
          ((h'.forgetAt i.address).frame? id = (h.forgetAt i.address).frame? id) := by
      intro id j hj
      by_cases hid : id = h.nextId
      · subst hid
        have hfresh := notes_nextId hc i.address
        have hfresh' := notes_nextId hc' i.address
        rw [hnext] at hfresh'
        exact ⟨hfresh'.1.trans hfresh.1.symm, hfresh'.2.trans hfresh.2.symm⟩
      · rw [if_neg hid, Option.filter_eq_some_iff] at hj
        obtain ⟨hj, hother⟩ := hj
        have hkept := notes_forgetAt hc (hbyId id j hj) (of_decide_eq_true hother)
        have hkept' := notes_forgetAt hc' hj (of_decide_eq_true hother)
        exact ⟨hkept'.1.trans ((hpaths id j hj).trans hkept.1.symm),
          hkept'.2.trans ((hframes id j hj).trans hkept.2.symm)⟩
    rw [heq, heq']
    refine ⟨hnext, ?_, ?_, ?_, ?_, ?_, ?_, ?_⟩
    · exact heq ▸ consistent_register hc i
    · exact heq' ▸ consistent_register hc' i
    · simp only [give, nextId_forgetAt, hnext]
    · intro id j hj
      rw [hget'] at hj
      rw [hget]
      by_cases hid : id = h.nextId
      · rwa [if_pos hid] at hj ⊢
      · rw [if_neg hid, Option.filter_eq_some_iff] at hj ⊢
        exact ⟨hbyId id j hj.1, hj.2⟩
    · intro id j hj
      rw [hget] at hj
      rw [hget']
      by_cases hid : id = h.nextId
      · rw [if_pos hid] at hj ⊢
        exact Or.inl hj
      · rw [if_neg hid, Option.filter_eq_some_iff] at hj ⊢
        exact (hmissing id j hj.1).imp_left fun hj' => ⟨hj', hj.2⟩
    · intro id j hj
      rw [hget'] at hj
      exact (hnotes id j hj).1
    · intro id j hj
      rw [hget'] at hj
      exact (hnotes id j hj).2

/-- A known handle takes a path. -/
theorem path?_setPath {x : Nat} (hx : h.byId.get? x = some i) (id : Nat) (path : String) :
    (h.setPath id path).path? x = if x = id then some path else h.path? x := by
  unfold setPath
  split
  · exact Table.get?_insert _ _ _ _
  · rename_i hunknown
    have hother : x ≠ id := by
      rintro rfl
      exact hunknown (Option.isSome_iff_exists.mpr ⟨i, hx⟩)
    rw [if_neg hother]

theorem frame?_setFrame {x : Nat} (hx : h.byId.get? x = some i) (id : Nat) (frame : Int) :
    (h.setFrame id frame).frame? x = if x = id then some frame else h.frame? x := by
  unfold setFrame
  split
  · exact Table.get?_insert _ _ _ _
  · rename_i hunknown
    have hother : x ≠ id := by
      rintro rfl
      exact hunknown (Option.isSome_iff_exists.mpr ⟨i, hx⟩)
    rw [if_neg hother]

theorem setPath_frame? (h : Handles) (id : Nat) (path : String) (x : Nat) :
    (h.setPath id path).frame? x = h.frame? x := by
  unfold setPath
  split <;> rfl

theorem setFrame_path? (h : Handles) (id : Nat) (frame : Int) (x : Nat) :
    (h.setFrame id frame).path? x = h.path? x := by
  unfold setFrame
  split <;> rfl

theorem Thins.setPath (ht : Thins gone h h') (id : Nat) (path : String) :
    Thins gone (h.setPath id path) (h'.setPath id path) := by
  refine ⟨ht.consistent.setPath id path, ht.consistent'.setPath id path, ?_, ?_, ?_, ?_, ?_⟩
  · rw [setPath_nextId, setPath_nextId, ht.nextId]
  · rw [setPath_byId, setPath_byId]
    exact ht.byId
  · rw [setPath_byId, setPath_byId]
    exact ht.missing
  · intro x i hx
    rw [setPath_byId] at hx
    rw [path?_setPath hx, path?_setPath (ht.byId x i hx), ht.paths x i hx]
  · intro x i hx
    rw [setPath_byId] at hx
    rw [setPath_frame?, setPath_frame?, ht.frames x i hx]

theorem Thins.setFrame (ht : Thins gone h h') (id : Nat) (frame : Int) :
    Thins gone (h.setFrame id frame) (h'.setFrame id frame) := by
  refine ⟨ht.consistent.setFrame id frame, ht.consistent'.setFrame id frame, ?_, ?_, ?_, ?_, ?_⟩
  · rw [setFrame_nextId, setFrame_nextId, ht.nextId]
  · rw [setFrame_byId, setFrame_byId]
    exact ht.byId
  · rw [setFrame_byId, setFrame_byId]
    exact ht.missing
  · intro x i hx
    rw [setFrame_byId] at hx
    rw [setFrame_path?, setFrame_path?, ht.paths x i hx]
  · intro x i hx
    rw [setFrame_byId] at hx
    rw [frame?_setFrame hx, frame?_setFrame (ht.byId x i hx), ht.frames x i hx]

theorem Thins.clear (ht : Thins gone h h') : Thins gone h.clear h'.clear := by
  have hsame : h'.clear = h.clear := by rw [Handles.clear, Handles.clear, ht.nextId]
  rw [hsame]
  exact .refl ht.consistent.clear

/-- To reclaim is to drop handles of what is not alive, and nothing else. -/
theorem Thins.reclaim (ht : Thins gone h h') {alive : Identity → Bool}
    (hgone : ∀ id i, h.byId.get? id = some i → alive i = false → gone i) :
    Thins gone h (h'.reclaim alive).2 := by
  have hwithout := without_reclaim ht.consistent' alive
  have hkept : ∀ id i, (h'.reclaim alive).2.byId.get? id = some i →
      h'.byId.get? id = some i ∧ id ∉ h'.dead alive := by
    intro id i hi
    rw [hwithout.byId, Option.ite_none_left_eq_some] at hi
    exact ⟨hi.2, hi.1⟩
  refine ⟨ht.consistent, hwithout.consistent, hwithout.nextId.trans ht.nextId, ?_, ?_, ?_, ?_⟩
  · exact fun id i hi => ht.byId id i (hkept id i hi).1
  · intro id i hi
    rcases ht.missing id i hi with hi' | hi'
    · cases halive : alive i with
      | true =>
        left
        rw [get?_reclaim ht.consistent', hi']
        exact Option.filter_some_pos halive
      | false => exact Or.inr (hgone id i hi halive)
    · exact Or.inr hi'
  · intro id i hi
    obtain ⟨hi', hid⟩ := hkept id i hi
    rw [path?, hwithout.paths, if_neg hid]
    exact ht.paths id i hi'
  · intro id i hi
    obtain ⟨hi', hid⟩ := hkept id i hi
    rw [frame?, hwithout.frames, if_neg hid]
    exact ht.frames id i hi'

/-- What is not gone is found by both or by neither. -/
theorem Thins.resolve?_eq (ht : Thins gone h h') {held : List Value}
    (hgone : ∀ i, gone i → ¬Value.Alive held i) (id : Nat) :
    h'.resolve? held id = h.resolve? held id := by
  rw [resolve?, resolve?]
  cases hi : h.byId.get? id with
  | none =>
    have hi' : h'.byId.get? id = none :=
      Option.eq_none_iff_forall_ne_some.mpr fun i hi' => by
        rw [ht.byId id i hi'] at hi
        contradiction
    rw [hi']
  | some i =>
    rcases ht.missing id i hi with hi' | hi'
    · rw [hi']
    · -- A handle that only the first has leads nowhere.
      have hdead : (Value.holding held)[i]? = none :=
        Option.eq_none_iff_forall_ne_some.mpr fun v hv => hgone i hi' (Value.alive_iff.mpr ⟨v, hv⟩)
      have hnone : h'.byId.get? id = none ∨ h'.byId.get? id = some i := by
        cases hi' : h'.byId.get? id with
        | none => exact Or.inl rfl
        | some j =>
          have hj := ht.byId id j hi'
          rw [hi] at hj
          exact Or.inr hj.symm
      rcases hnone with hnone | hsome
      · rw [hnone, Option.bind_some, hdead]
        rfl
      · rw [hsome]

end

end Handles

namespace Inspector

/-- If the allocation is one of the adapter's own, it has been made. -/
def MadeBefore (made : Nat) (i : Identity) : Prop :=
  i.address.region = adapterRegion → i.address.offset < made

theorem MadeBefore.mono {made made' : Nat} {i : Identity} (h : MadeBefore made i)
    (hmade : made ≤ made') : MadeBefore made' i :=
  fun hregion => Nat.lt_of_lt_of_le (h hregion) hmade

/-- The value behind a handle, with what is noted of the handle. -/
def shown? (s : Inspector) (outside : List Value) (id : Nat) :
    Option (Value × Option String × Option Int) :=
  (s.resolve? outside id).map fun v => (v, s.handles.path? id, s.handles.frame? id)

/-- The second inspector is the first without some handles of allocations that are gone. -/
structure Mirrors (gone : Identity → Prop) (s s' : Inspector) : Prop where
  thins : s.handles.Thins gone s'.handles
  pins : s'.pins = s.pins
  made : s'.made = s.made
  now : s'.now = s.now
  given : ∀ id i, s.handles.byId.get? id = some i → MadeBefore s.made i
  gone : ∀ i, gone i → MadeBefore s.made i

/-- The same answer, and states of which one mirrors the other. -/
structure Agree {α : Type} (gone : Identity → Prop) (r r' : α × Inspector) : Prop where
  answer : r'.1 = r.1
  state : Mirrors gone r.2 r'.2

/-- An allocation that can be named: it is not gone, and made if it is the adapter's own. -/
structure Usable (gone : Identity → Prop) (made : Nat) (i : Identity) : Prop where
  present : ¬gone i
  made : MadeBefore made i

section
variable {gone : Identity → Prop} {s s' : Inspector} {v : Value}

theorem Usable.mono {made made' : Nat} {i : Identity} (h : Usable gone made i)
    (hmade : made ≤ made') : Usable gone made' i :=
  ⟨h.present, h.made.mono hmade⟩

theorem Mirrors.refl (hc : s.handles.Consistent)
    (hgiven : ∀ id i, s.handles.byId.get? id = some i → MadeBefore s.made i)
    (hgone : ∀ i, gone i → MadeBefore s.made i) : Mirrors gone s s :=
  ⟨.refl hc, rfl, rfl, rfl, hgiven, hgone⟩

theorem Mirrors.mono {gone' : Identity → Prop} (h : Mirrors gone s s')
    (hsub : ∀ i, gone i → gone' i) (hgone : ∀ i, gone' i → MadeBefore s.made i) :
    Mirrors gone' s s' :=
  { h with thins := h.thins.mono hsub, gone := hgone }

theorem Mirrors.eq_with_handles (h : Mirrors gone s s') :
    s' = { s with handles := s'.handles } := by
  obtain ⟨handles, pins, made, now⟩ := s'
  obtain ⟨_, rfl, rfl, rfl, _, _⟩ := h
  rfl

/-- What the adapter has still to make is not gone. -/
theorem Mirrors.usable_fresh (h : Mirrors gone s s') {offset made : Nat} (hoffset : s.made ≤ offset)
    (hmade : offset < made) : Usable gone made (.first adapterRegion offset) where
  present hgone := absurd (h.gone _ hgone rfl) (Nat.not_lt.mpr hoffset)
  made _ := hmade

theorem Mirrors.withMade (h : Mirrors gone s s') {n : Nat} (hn : s.made ≤ n) :
    Mirrors gone { s with made := n } { s' with made := n } where
  thins := h.thins
  pins := h.pins
  made := rfl
  now := h.now
  given id i hi := (h.given id i hi).mono hn
  gone i hi := (h.gone i hi).mono hn

theorem Mirrors.register (h : Mirrors gone s s') (hv : Usable gone s.made v.identity) :
    Agree gone (s.register v) (s'.register v) := by
  obtain ⟨hid, hthins⟩ := h.thins.register hv.present
  refine ⟨hid, hthins, h.pins, h.made, h.now, fun id i hi => ?_, h.gone⟩
  replace hi : (s.handles.register v.identity).2.byId.get? id = some i := hi
  rw [Handles.get?_register h.thins.consistent] at hi
  split at hi
  · cases hi
    exact hv.made
  · exact h.given id i (Option.filter_eq_some_iff.mp hi).1

theorem Mirrors.pin (h : Mirrors gone s s') (hv : Usable gone s.made v.identity) :
    Agree gone (s.pin v) (s'.pin v) := by
  have hregister := h.register hv
  have hpins : (s'.pin v).2.pins = (s.pin v).2.pins := by
    simp only [Inspector.pin, hregister.answer, hregister.state.pins, hregister.state.now]
  exact ⟨hregister.answer, { hregister.state with pins := hpins }⟩

theorem Mirrors.pinAll (h : Mirrors gone s s') {vs : List Value}
    (hvs : ∀ v ∈ vs, Usable gone s.made v.identity) :
    Mirrors gone (s.pinAll vs) (s'.pinAll vs) := by
  induction vs generalizing s s' with
  | nil => exact h
  | cons v vs ih =>
    exact ih (h.pin (hvs v List.mem_cons_self)).state fun w hw => hvs w (List.mem_cons_of_mem _ hw)

theorem Mirrors.pinned? (h : Mirrors gone s s') (id : Nat) :
    Agree gone (s.pinned? id) (s'.pinned? id) := by
  simp only [Inspector.pinned?, h.pins, h.now]
  exact ⟨rfl, { h with pins := rfl, now := rfl }⟩

theorem Mirrors.reference (h : Mirrors gone s s') (hv : Usable gone s.made v.identity) (n : Nat) :
    Agree gone (s.reference v n) (s'.reference v n) := by
  unfold Inspector.reference
  split
  · exact ⟨rfl, h⟩
  · exact h.register hv

theorem Mirrors.tableReference (h : Mirrors gone s s') (columns : List String)
    (rows : List (List Value)) :
    Agree gone (s.tableReference columns rows) (s'.tableReference columns rows) := by
  unfold Inspector.tableReference
  split
  · exact ⟨rfl, h⟩
  · rw [makeAll_rowShapes, makeAll_rowShapes]
    simp only [make, h.made]
    exact (h.withMade (by omega)).pin (h.usable_fresh (by omega) (Nat.lt_succ_self _))

theorem Mirrors.row (h : Mirrors gone s s') (hv : Usable gone s.made v.identity) (name : String) :
    Agree gone (s.row name v) (s'.row name v) := by
  cases hshape : v.shape <;> simp only [Inspector.row, hshape]
  case array items =>
    have hreference := h.reference hv items.length
    exact ⟨by rw [hreference.answer], hreference.state⟩
  case struct fields =>
    have hreference := h.reference hv fields.length
    exact ⟨by rw [hreference.answer], hreference.state⟩
  case function definition fields =>
    have hreference := h.reference hv fields.length
    exact ⟨by rw [hreference.answer], hreference.state⟩
  case table columns rows =>
    have hreference := h.tableReference columns rows
    exact ⟨by rw [hreference.answer], hreference.state⟩
  all_goals exact ⟨rfl, h⟩

/-- What is usable stays so while offsets are used up. -/
theorem made_le_row (s : Inspector) (name : String) (v : Value) :
    s.made ≤ (s.row name v).2.made := by
  suffices h : ∀ r, Listed s v r → s.made ≤ r.2.made from h _ (listed_row s name v)
  intro r hr
  cases hr with
  | plain | parts => exact Nat.le_refl _
  | @table columns rows => exact Nat.le_add_right s.made (rows.length + 1)

theorem made_pinAll (s : Inspector) (vs : List Value) : (s.pinAll vs).made = s.made := by
  induction vs generalizing s with
  | nil => rfl
  | cons v vs ih => exact ih _

theorem Mirrors.rows (h : Mirrors gone s s') {xs : List (String × Value)}
    (hxs : ∀ x ∈ xs, Usable gone s.made x.2.identity) :
    Agree gone (s.rows xs) (s'.rows xs) := by
  induction xs generalizing s s' with
  | nil => exact ⟨rfl, h⟩
  | cons x xs ih =>
    have hfirst := h.row (hxs x List.mem_cons_self) x.1
    have hrest := ih hfirst.state fun y hy =>
      (hxs y (List.mem_cons_of_mem _ hy)).mono (made_le_row s x.1 x.2)
    refine ⟨?_, hrest.state⟩
    simp only [Inspector.rows, hfirst.answer, hrest.answer]

theorem Mirrors.childrenOf (h : Mirrors gone s s')
    (hparts : ∀ w ∈ v.parts, Usable gone s.made w.identity) (filter : ChildFilter)
    (start count : Option Nat) :
    Agree gone (s.childrenOf v filter start count) (s'.childrenOf v filter start count) := by
  have hfields : ∀ fields : List (String × Value), fields.map (·.2) ⊆ v.parts →
      Agree gone (s.rows (sortFields fields)) (s'.rows (sortFields fields)) :=
    fun fields hsub => h.rows fun x hx => hparts _ (hsub (mem_of_mem_sortFields hx))
  have hnone : Agree gone (([] : List Variable), s) ([], s') := ⟨rfl, h⟩
  cases hshape : v.shape <;> simp only [Inspector.childrenOf, hshape]
  case struct fields =>
    split
    · exact hnone
    · exact hfields fields (by simp [Value.parts, hshape, Shape.parts])
  case function definition fields =>
    split
    · exact hnone
    · exact hfields fields (by simp [Value.parts, hshape, Shape.parts])
  case array items =>
    split
    · exact hnone
    · refine h.rows fun x hx => hparts _ ?_
      have hitem := mem_of_mem_nameItems ((page_sublist _ _ _).subset hx)
      simpa [Value.parts, hshape, Shape.parts] using hitem
  case table columns rows =>
    split
    · exact hnone
    · rw [makeAll_rowShapes, makeAll_rowShapes]
      simp only [h.made]
      have hfresh : ∀ w ∈ rowValues s.made columns rows,
          Usable gone (s.made + rows.length) w.identity := by
        intro w hw
        obtain ⟨i, hi, heq⟩ := mem_rowValues hw
        rw [heq]
        exact h.usable_fresh (Nat.le_add_right _ _) (by omega)
      have hpinned := (h.withMade (Nat.le_add_right s.made rows.length)).pinAll hfresh
      refine hpinned.rows fun x hx => ?_
      rw [made_pinAll]
      exact hfresh _ (mem_of_mem_nameItems ((page_sublist _ _ _).subset hx))
  all_goals exact hnone

/-- What is not gone is found by both, and nothing else by either. -/
theorem Mirrors.resolve?_eq (h : Mirrors gone s s') {outside : List Value}
    (halive : ∀ i, Value.Alive (s.held outside) i → Usable gone s.made i) (id : Nat) :
    s'.resolve? outside id = s.resolve? outside id := by
  rw [resolve?, resolve?, held, h.pins]
  exact h.thins.resolve?_eq (fun i hgone hi => (halive i hi).present hgone) id

theorem Mirrors.shown?_eq (h : Mirrors gone s s') {outside : List Value}
    (halive : ∀ i, Value.Alive (s.held outside) i → Usable gone s.made i) (id : Nat) :
    s'.shown? outside id = s.shown? outside id := by
  rw [shown?, shown?, h.resolve?_eq halive]
  cases hv : s.resolve? outside id with
  | none => rfl
  | some v =>
    obtain ⟨i, hid, hi⟩ := Option.bind_eq_some_iff.mp hv
    obtain ⟨_, hpath, hframe⟩ :=
      h.thins.present hid (halive i (Value.alive_iff.mpr ⟨v, hi⟩)).present
    rw [hpath, hframe]

/-- What is noted of a handle is noted in both. -/
theorem Mirrors.note (h : Mirrors gone s s') (id : Nat) (path : String) (frame : Int) :
    Mirrors gone { s with handles := (s.handles.setPath id path).setFrame id frame }
      { s' with handles := (s'.handles.setPath id path).setFrame id frame } := by
  refine { h with thins := (h.thins.setPath id path).setFrame id frame, given := fun x i hx => ?_ }
  rw [Handles.setFrame_byId, Handles.setPath_byId] at hx
  exact h.given x i hx

theorem Mirrors.children (h : Mirrors gone s s') {outside : List Value}
    (halive : ∀ i, Value.Alive (s.held outside) i → Usable gone s.made i) (id : Nat)
    (filter : ChildFilter) (start count : Option Nat) :
    Agree gone (s.children outside id filter start count)
      (s'.children outside id filter start count) := by
  cases hv : s.resolve? outside id with
  | none =>
    simp only [Inspector.children, h.resolve?_eq halive, hv]
    exact ⟨rfl, h⟩
  | some v =>
    obtain ⟨i, _, hi⟩ := Option.bind_eq_some_iff.mp hv
    simp only [Inspector.children, h.resolve?_eq halive, hv]
    exact (h.pinned? id).state.childrenOf
      (fun w hw => halive _ (Value.alive_of_mem_parts hi hw)) filter start count

theorem Mirrors.keep (h : Mirrors gone s s') (id : Nat) (v : Value) :
    Mirrors gone (Debugger.keep s id v) (Debugger.keep s' id v) := by
  cases hlook : s.pins.get id s.now with
  | mk found pins =>
    simp only [Debugger.keep, Inspector.pinned?, h.pins, h.now, hlook]
    split
    · exact h
    · cases found <;> exact { h with pins := rfl, now := rfl }

theorem Mirrors.clear (h : Mirrors gone s s') : Mirrors gone s.clear s'.clear where
  thins := h.thins.clear
  pins := by rw [Inspector.clear, Inspector.clear, h.pins]
  made := h.made
  now := h.now
  given id i hi := by simp [Inspector.clear, Handles.clear, Handles.new] at hi
  gone := h.gone

/-- While pins do not age, to reclaim leaves the inspector without some handles of what is gone. -/
theorem Mirrors.reclaim {room : Nat} (h : Mirrors gone s s') (hkept : Kept room s)
    {outside : List Value}
    (hgone : ∀ id i, s.handles.byId.get? id = some i → ¬Value.Alive (s.held outside) i → gone i) :
    Mirrors gone s (s'.reclaim outside).2 := by
  have hpurge := PinCache.purge_eq_self hkept.sound hkept.lifetime s'.now
  simp only [Inspector.reclaim, Inspector.held, h.pins, hpurge]
  refine { h with thins := h.thins.reclaim fun id i hi hdead => ?_, pins := rfl }
  exact hgone id i hi (Bool.eq_false_iff.mp hdead)

end

end Inspector

end DebugAdapter
