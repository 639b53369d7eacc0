import DebugAdapter.Proofs.Value.Handles
import DebugAdapter.Value.Inspector

/-!
# What listing values does

A row gives a handle to its value at most, or for a table to a new array of its rows, which is pinned
(`Listed`); `Listing` says which rows the children of a value have.

A handle stays with its allocation unless another one gets a handle at the same address. In orderly
memory no value that is listed is such a one (`fits_of_coherent`, `free_of_orderly`), so listings only
add handles (`Grows`). What the adapter makes of values in orderly memory keeps it orderly.
-/

namespace DebugAdapter

open Value (Within Coherent)

/-- There is one value at an address, and the adapter's own are below the next free offset. -/
structure Value.Orderly (held : List Value) (made : Nat) : Prop where
  coherent : Coherent held
  below : ∀ v, Within held v → v.identity.address.region = adapterRegion →
    v.identity.address.offset < made

/-- Memory that is listed in full. -/
theorem Value.orderly_of_listed {held : List Value} {made : Nat} (values : List Value)
    (hall : ∀ v, Within held v → v ∈ values)
    (hnodup : (values.map fun v => v.identity.address).Nodup)
    (hbelow : ∀ v ∈ values, v.identity.address.region = adapterRegion →
      v.identity.address.offset < made) : Value.Orderly held made where
  coherent := coherent_of_listed values hall hnodup
  below v hv := hbelow v (hall v hv)

/-- It shows a table. -/
def Value.isTable (v : Value) : Bool :=
  match v.shape with
  | .table _ _ => true
  | _ => false

theorem Value.isTable_of_shape {v : Value} {columns : List String} {rows : List (List Value)}
    (h : v.shape = .table columns rows) : v.isTable = true := by
  simp only [isTable, h]

namespace Inspector

/-! ## The values that the adapter makes -/

def madeAt (offset : Nat) (shape : Shape) : Value := .mk (.first adapterRegion offset) none shape

/-- The rows of a table as values made from an offset on. -/
def rowValues (made : Nat) (columns : List String) (rows : List (List Value)) : List Value :=
  (rowShapes columns rows).mapIdx fun i shape => madeAt (made + i) shape

/-- The array of the rows of a table. -/
def tableArray (made : Nat) (columns : List String) (rows : List (List Value)) : Value :=
  madeAt (made + rows.length) (.array (rowValues made columns rows))

theorem makeAll_eq (s : Inspector) (shapes : List Shape) :
    s.makeAll shapes = (shapes.mapIdx fun i shape => madeAt (s.made + i) shape,
      { s with made := s.made + shapes.length }) := by
  induction shapes generalizing s with
  | nil => rfl
  | cons x xs ih =>
    simp only [makeAll, make, ih, List.mapIdx_cons, List.length_cons, Nat.add_zero, madeAt]
    simp only [Nat.add_assoc, Nat.add_comm 1]

theorem length_rowValues (made : Nat) (columns : List String) (rows : List (List Value)) :
    (rowValues made columns rows).length = rows.length := by
  simp [rowValues, rowShapes]

theorem makeAll_rowShapes (s : Inspector) (columns : List String) (rows : List (List Value)) :
    s.makeAll (rowShapes columns rows) =
      (rowValues s.made columns rows, { s with made := s.made + rows.length }) := by
  rw [makeAll_eq]
  simp [rowValues, rowShapes]

theorem mem_rowValues {v : Value} {made : Nat} {columns : List String} {rows : List (List Value)}
    (h : v ∈ rowValues made columns rows) :
    ∃ i < rows.length, v.identity = .first adapterRegion (made + i) := by
  obtain ⟨i, hi, rfl⟩ := List.mem_mapIdx.mp h
  exact ⟨i, by simpa [rowShapes] using hi, rfl⟩

theorem rowValues_cons (made : Nat) (columns : List String) (row : List Value)
    (rows : List (List Value)) :
    rowValues made columns (row :: rows) =
      madeAt made (.struct (columns.zip row)) ::
        rowValues (made + 1) columns rows := by
  simp [rowValues, rowShapes, List.mapIdx_cons, Nat.add_assoc, Nat.add_comm 1]

theorem nodup_rowValues (made : Nat) (columns : List String) (rows : List (List Value)) :
    ((rowValues made columns rows).map (·.identity.address)).Nodup := by
  have haddresses : (rowValues made columns rows).map (·.identity.address) =
      (List.range' made rows.length).map (Address.mk adapterRegion) := by
    induction rows generalizing made with
    | nil => rfl
    | cons row rows ih =>
      rw [rowValues_cons, List.map_cons, ih, List.length_cons, List.range'_succ]
      rfl
  rw [haddresses]
  refine List.Nodup.map (fun i j h => ?_) List.nodup_range'
  cases h
  rfl

theorem parts_of_mem_rowValues {made : Nat} {columns : List String} {rows : List (List Value)}
    {v : Value} (hv : v ∈ rowValues made columns rows) :
    v.isTable = false ∧ ∀ w ∈ v.parts, w ∈ rows.flatten := by
  obtain ⟨i, hi, rfl⟩ := List.mem_mapIdx.mp hv
  have hshape : (rowShapes columns rows)[i] ∈ rowShapes columns rows := List.getElem_mem hi
  obtain ⟨row, hrow, heq⟩ := List.mem_map.mp hshape
  rw [← heq]
  refine ⟨rfl, fun w hw => ?_⟩
  obtain ⟨⟨name, cell⟩, hcell, rfl⟩ := List.mem_map.mp hw
  exact List.mem_flatten.mpr ⟨row, hrow, (List.of_mem_zip hcell).2⟩

end Inspector

/-! ## Memory with new values -/

namespace Value
open Inspector
variable {held others : List Value} {made : Nat}

theorem Orderly.mono (h : Orderly held made) (hsub : others ⊆ held) : Orderly others made where
  coherent v w hv hw := h.coherent v w (hv.mono hsub) (hw.mono hsub)
  below v hv := h.below v (hv.mono hsub)

theorem Orderly.later (h : Orderly held made) {made' : Nat} (hmade : made ≤ made') :
    Orderly held made' :=
  ⟨h.coherent, fun v hv hregion => Nat.lt_of_lt_of_le (h.below v hv hregion) hmade⟩

/-- Memory stays orderly with a value that the adapter makes of what is there. -/
theorem Orderly.make (h : Orderly held made) {shape : Shape}
    (hparts : ∀ w ∈ shape.parts, Within held w) :
    Orderly (madeAt made shape :: held) (made + 1) := by
  have hwithin : ∀ w, Within (madeAt made shape :: held) w →
      w = madeAt made shape ∨ Within held w := by
    intro w hw
    have happend : Within ([madeAt made shape] ++ held) w := hw
    refine (happend.of_append fun x hx => ?_).imp_left List.mem_singleton.mp
    rw [List.mem_singleton.mp hx]
    exact hparts
  have hnew : ∀ w, Within held w → w.identity.address ≠ ⟨adapterRegion, made⟩ := by
    intro w hw haddress
    have hbelow := h.below w hw (congrArg Address.region haddress)
    rw [haddress] at hbelow
    exact Nat.lt_irrefl _ hbelow
  refine ⟨fun v w hv hw haddress => ?_, fun v hv hregion => ?_⟩
  · rcases hwithin v hv with rfl | hv <;> rcases hwithin w hw with rfl | hw
    · rfl
    · exact absurd haddress.symm (hnew w hw)
    · exact absurd haddress (hnew v hv)
    · exact h.coherent v w hv hw haddress
  · rcases hwithin v hv with rfl | hv
    · exact Nat.lt_succ_self made
    · exact Nat.lt_succ_of_lt (h.below v hv hregion)

theorem Orderly.rowValues (h : Orderly held made) (columns : List String)
    {rows : List (List Value)} (hcells : ∀ w ∈ rows.flatten, Within held w) :
    Orderly (Inspector.rowValues made columns rows ++ held) (made + rows.length) := by
  induction rows generalizing made held with
  | nil => exact h
  | cons row rows ih =>
    have hfirst : Orderly (madeAt made (.struct (columns.zip row)) :: held) (made + 1) := by
      refine h.make fun w hw => hcells w (List.mem_append_left _ ?_)
      obtain ⟨⟨name, cell⟩, hcell, rfl⟩ := List.mem_map.mp hw
      exact (List.of_mem_zip hcell).2
    have hrest := ih hfirst fun w hw =>
      (hcells w (List.mem_append_right _ hw)).mono (List.subset_cons_self _ _)
    rw [List.length_cons, Nat.add_comm rows.length, ← Nat.add_assoc]
    refine hrest.mono fun w hw => ?_
    rw [rowValues_cons] at hw
    simp only [List.mem_append, List.mem_cons] at hw ⊢
    tauto

theorem Orderly.tableArray (h : Orderly held made) (columns : List String)
    {rows : List (List Value)} (hcells : ∀ w ∈ rows.flatten, Within held w) :
    Orderly (Inspector.tableArray made columns rows :: Inspector.rowValues made columns rows ++ held)
      (made + rows.length + 1) :=
  (h.rowValues columns hcells).make fun _ hw => .held (List.mem_append_left _ hw)

end Value

namespace Inspector

/-! ## Rows -/

/-- What a row for a value can do: the handle that it shows, and the inspector afterwards. -/
inductive Listed (s : Inspector) (v : Value) : Nat × Inspector → Prop where
  | plain : Listed s v (0, s)
  | parts (htable : v.isTable = false) : Listed s v (s.register v)
  | table {columns : List String} {rows : List (List Value)} (hshape : v.shape = .table columns rows) :
    Listed s v ({ s with made := s.made + rows.length + 1 }.pin (tableArray s.made columns rows))

theorem listed_reference (s : Inspector) {v : Value} (n : Nat) (htable : v.isTable = false) :
    Listed s v (s.reference v n) := by
  unfold reference
  split
  · exact .plain
  · exact .parts htable

theorem listed_row (s : Inspector) (name : String) (v : Value) :
    Listed s v ((s.row name v).1.reference, (s.row name v).2) := by
  unfold row
  split
  · exact .plain
  · exact .plain
  · exact .plain
  · exact .plain
  · exact .plain
  · rename_i items hshape
    exact listed_reference s items.length (by simp [Value.isTable, hshape])
  · rename_i fields hshape
    exact listed_reference s fields.length (by simp [Value.isTable, hshape])
  · rename_i definition fields hshape
    exact listed_reference s fields.length (by simp [Value.isTable, hshape])
  · rename_i columns rows hshape
    show Listed s v (s.tableReference columns rows)
    unfold tableReference
    split
    · exact .plain
    · rw [makeAll_rowShapes]
      exact .table hshape

theorem row_typeName (s : Inspector) (name : String) {v : Value} (h : v.isTable = true) :
    (s.row name v).1.typeName = "table" := by
  cases hshape : v.shape <;> simp_all [row, Value.isTable]

/-- A row that says so and can be expanded is one for a table. -/
theorem isTable_of_typeName (s : Inspector) (name : String) {v : Value}
    (h : (s.row name v).1.typeName = "table") (hreference : (s.row name v).1.reference ≠ 0) :
    v.isTable = true := by
  cases hshape : v.shape <;> simp_all [row, Value.isTable]

/-- What listing the children of a value can do: the rows, and the inspector afterwards. -/
inductive Listing (s : Inspector) (v : Value) (start count : Option Nat) :
    List Variable × Inspector → Prop where
  | nothing : Listing s v start count ([], s)
  | parts {xs : List (String × Value)} (htable : v.isTable = false)
    (hxs : ∀ x ∈ xs, x.2 ∈ v.parts) : Listing s v start count (s.rows xs)
  | table {columns : List String} {rows : List (List Value)} (hshape : v.shape = .table columns rows) :
    Listing s v start count
      (({ s with made := s.made + rows.length }.pinAll (rowValues s.made columns rows)).rows
        (page start count (nameItems (rowValues s.made columns rows))))

theorem mem_of_mem_nameItems {items : List Value} {x : String × Value} (h : x ∈ nameItems items) :
    x.2 ∈ items := by
  obtain ⟨i, hi, rfl⟩ := List.mem_mapIdx.mp h
  exact List.getElem_mem hi

theorem mem_of_mem_sortFields {fields : List (String × Value)} {x : String × Value}
    (h : x ∈ sortFields fields) : x.2 ∈ fields.map (·.2) :=
  List.mem_map_of_mem (List.mem_mergeSort.mp h)

theorem listing_childrenOf (s : Inspector) (v : Value) (filter : ChildFilter)
    (start count : Option Nat) : Listing s v start count (s.childrenOf v filter start count) := by
  unfold childrenOf
  split
  · rename_i fields hshape
    split
    · exact .nothing
    · refine .parts (by simp [Value.isTable, hshape]) fun x hx => ?_
      simpa [Value.parts, hshape, Shape.parts] using mem_of_mem_sortFields hx
  · rename_i definition fields hshape
    split
    · exact .nothing
    · refine .parts (by simp [Value.isTable, hshape]) fun x hx => ?_
      simpa [Value.parts, hshape, Shape.parts] using mem_of_mem_sortFields hx
  · rename_i items hshape
    split
    · exact .nothing
    · refine .parts (by simp [Value.isTable, hshape]) fun x hx => ?_
      have hitem := mem_of_mem_nameItems ((page_sublist _ _ _).subset hx)
      simpa [Value.parts, hshape, Shape.parts] using hitem
  · rename_i columns rows hshape
    split
    · exact .nothing
    · rw [makeAll_rowShapes]
      exact .table hshape
  · exact .nothing

/-! ## Growth -/

/-- No tracked allocation can lose its handle to this one. -/
def Fits (tracked : Identity → Prop) (i : Identity) : Prop :=
  ∀ j, tracked j → j.address = i.address → j = i

/-- Nothing that the adapter can still make is in the way of a tracked allocation. -/
def Free (tracked : Identity → Prop) (made : Nat) : Prop :=
  ∀ offset, made ≤ offset → Fits tracked (.first adapterRegion offset)

theorem Free.mono {tracked : Identity → Prop} {made made' : Nat} (h : Free tracked made)
    (hmade : made ≤ made') : Free tracked made' :=
  fun offset hoffset => h offset (Nat.le_trans hmade hoffset)

/-- The tracked allocations are those of values in memory. -/
def Covers (held : List Value) (tracked : Identity → Prop) : Prop :=
  ∀ i, tracked i → ∃ v, Within held v ∧ v.identity = i

section
variable {held : List Value} {made : Nat} {tracked : Identity → Prop}

theorem fits_of_coherent (hcovers : Covers held tracked) (h : Coherent held) {w : Value}
    (hw : Within held w) : Fits tracked w.identity := by
  intro i hi haddress
  obtain ⟨v, hv, rfl⟩ := hcovers i hi
  rw [h v w hv hw haddress]

theorem free_of_orderly (hcovers : Covers held tracked) (h : Value.Orderly held made) :
    Free tracked made := by
  intro offset hoffset i hi haddress
  obtain ⟨v, hv, rfl⟩ := hcovers i hi
  have hbelow := h.below v hv (congrArg Address.region haddress)
  rw [haddress] at hbelow
  exact absurd hbelow (Nat.not_lt.mpr hoffset)

end

/-- Handles of tracked allocations are kept. -/
structure Grows (tracked : Identity → Prop) (s s' : Inspector) : Prop where
  consistent : s'.handles.Consistent
  made : s.made ≤ s'.made
  kept : ∀ r i, tracked i → s.handles.byId.get? r = some i → s'.handles.byId.get? r = some i

section
variable {tracked : Identity → Prop} {s s' s'' : Inspector}

theorem Grows.refl (hc : s.handles.Consistent) : Grows tracked s s :=
  ⟨hc, Nat.le_refl _, fun _ _ _ => id⟩

theorem Grows.trans (h : Grows tracked s s') (h' : Grows tracked s' s'') : Grows tracked s s'' where
  consistent := h'.consistent
  made := Nat.le_trans h.made h'.made
  kept r i hi hr := h'.kept r i hi (h.kept r i hi hr)

/-- What leaves the handles alone, and uses up offsets at most. -/
theorem Grows.of_handles_eq (hc : s.handles.Consistent) (hhandles : s'.handles = s.handles)
    (hmade : s.made ≤ s'.made) : Grows tracked s s' :=
  ⟨hhandles ▸ hc, hmade, fun _ _ _ hr => hhandles ▸ hr⟩

theorem grows_register (hc : s.handles.Consistent) {v : Value} (hv : Fits tracked v.identity) :
    Grows tracked s (s.register v).2 where
  consistent := Handles.consistent_register hc v.identity
  made := Nat.le_refl _
  kept _ i hi hr := Handles.get?_register_of_get? hc v.identity hr (hv i hi)

/-- To pin a value is, to the handles, to register it. -/
theorem grows_pin (hc : s.handles.Consistent) {v : Value} (hv : Fits tracked v.identity) :
    Grows tracked s (s.pin v).2 :=
  ⟨(grows_register hc hv).consistent, Nat.le_refl _, (grows_register hc hv).kept⟩

theorem grows_pinAll (hc : s.handles.Consistent) {vs : List Value}
    (hvs : ∀ v ∈ vs, Fits tracked v.identity) : Grows tracked s (s.pinAll vs) := by
  induction vs generalizing s with
  | nil => exact .refl hc
  | cons v vs ih =>
    have hfirst := grows_pin hc (hvs v List.mem_cons_self)
    exact hfirst.trans (ih hfirst.consistent fun w hw => hvs w (List.mem_cons_of_mem _ hw))

theorem Listed.grows {v : Value} {r : Nat × Inspector} (h : Listed s v r)
    (hc : s.handles.Consistent) (hv : Fits tracked v.identity) (hfree : Free tracked s.made) :
    Grows tracked s r.2 := by
  cases h with
  | plain => exact .refl hc
  | parts => exact grows_register hc hv
  | @table columns rows =>
    have hmade : Grows tracked s { s with made := s.made + rows.length + 1 } :=
      .of_handles_eq hc rfl (Nat.le_add_right s.made (rows.length + 1))
    exact hmade.trans (grows_pin hmade.consistent (hfree _ (Nat.le_add_right _ _)))

theorem grows_rows (hc : s.handles.Consistent) {xs : List (String × Value)}
    (hxs : ∀ x ∈ xs, Fits tracked x.2.identity) (hfree : Free tracked s.made) :
    Grows tracked s (s.rows xs).2 := by
  induction xs generalizing s with
  | nil => exact .refl hc
  | cons x xs ih =>
    have hfirst := (listed_row s x.1 x.2).grows hc (hxs x List.mem_cons_self) hfree
    exact hfirst.trans (ih hfirst.consistent (fun y hy => hxs y (List.mem_cons_of_mem _ hy))
      (hfree.mono hfirst.made))

theorem fits_of_mem_rowValues (hfree : Free tracked s.made) {columns : List String}
    {rows : List (List Value)} {v : Value} (hv : v ∈ rowValues s.made columns rows) :
    Fits tracked v.identity := by
  obtain ⟨i, _, hi⟩ := mem_rowValues hv
  exact hi ▸ hfree _ (Nat.le_add_right _ _)

theorem Listing.grows {v : Value} {start count : Option Nat} {r : List Variable × Inspector}
    (h : Listing s v start count r) (hc : s.handles.Consistent)
    (hparts : ∀ w ∈ v.parts, Fits tracked w.identity) (hfree : Free tracked s.made) :
    Grows tracked s r.2 := by
  cases h with
  | nothing => exact .refl hc
  | parts _ hxs => exact grows_rows hc (fun x hx => hparts _ (hxs x hx)) hfree
  | @table columns rows =>
    have hmade : Grows tracked s { s with made := s.made + rows.length } :=
      .of_handles_eq hc rfl (Nat.le_add_right _ _)
    have hvalues : ∀ w ∈ rowValues s.made columns rows, Fits tracked w.identity :=
      fun w hw => fits_of_mem_rowValues hfree hw
    have hpins := hmade.trans (grows_pinAll hmade.consistent hvalues)
    refine hpins.trans (grows_rows hpins.consistent ?_ (hfree.mono hpins.made))
    exact fun x hx => hvalues _ (mem_of_mem_nameItems ((page_sublist _ _ _).subset hx))

theorem grows_children {outside : List Value} (hc : s.handles.Consistent)
    (hcovers : Covers (s.held outside) tracked) (horderly : Value.Orderly (s.held outside) s.made)
    (id : Nat) (filter : ChildFilter) (start count : Option Nat) :
    Grows tracked s (s.children outside id filter start count).2 := by
  unfold children
  split
  · exact .refl hc
  · rename_i v hv
    obtain ⟨i, _, hi⟩ := Option.bind_eq_some_iff.mp hv
    have hwithin := (Value.within_of_holding hi).1
    have hparts : ∀ w ∈ v.parts, Fits tracked w.identity := fun w hw =>
      fits_of_coherent hcovers horderly.coherent (.part hwithin hw)
    have hused : Grows tracked s (s.pinned? id).2 := .of_handles_eq hc rfl (Nat.le_refl _)
    exact hused.trans ((listing_childrenOf _ v filter start count).grows hused.consistent hparts
      (free_of_orderly hcovers horderly))

end

end Inspector

end DebugAdapter
