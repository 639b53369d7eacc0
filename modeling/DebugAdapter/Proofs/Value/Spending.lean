import DebugAdapter.Debugger.Requests
import DebugAdapter.Proofs.Value.Listing
import DebugAdapter.Proofs.Value.Uses

/-!
# Which pins a request uses

The pins that rows, listings and results put and find, in their order. `Spent` says what these uses
do to an inspector in orderly memory: the pins are those before with exactly these uses, whatever is
put is in memory or was made since, it is put under its own handle, and no such value loses its
handle meanwhile.
-/

namespace DebugAdapter

open Value (Within Coherent Orderly)

namespace Inspector

abbrev PinUse := PinCache.Use Nat Value

def rowUses (s : Inspector) (v : Value) : List PinUse :=
  match v.shape with
  | .table columns rows =>
    if rows.isEmpty then []
    else [.put (s.tableReference columns rows).1 (tableArray s.made columns rows)]
  | _ => []

def rowsUses (s : Inspector) : List (String × Value) → List PinUse
  | [] => []
  | (name, v) :: rest => s.rowUses v ++ (s.row name v).2.rowsUses rest

def pinAllUses (s : Inspector) : List Value → List PinUse
  | [] => []
  | v :: vs => .put (s.pin v).1 v :: (s.pin v).2.pinAllUses vs

def childrenOfUses (s : Inspector) (v : Value) (filter : ChildFilter) (start count : Option Nat) :
    List PinUse :=
  match v.shape with
  | .struct fields | .function _ fields =>
    if filter == .indexed then [] else s.rowsUses (sortFields fields)
  | .array items =>
    if filter == .named then [] else s.rowsUses (page start count (nameItems items))
  | .table columns rows =>
    if filter == .named then []
    else
      let (rows, s) := s.makeAll (rowShapes columns rows)
      s.pinAllUses rows ++ (s.pinAll rows).rowsUses (page start count (nameItems rows))
  | _ => []

/-- A lookup that finds a pin uses it; one that finds none uses nothing. -/
def lookUses (s : Inspector) (id : Nat) : List PinUse :=
  if (s.pins.entries.get? id).isSome then [.hit id] else []

def childrenUses (s : Inspector) (outside : List Value) (id : Nat) (filter : ChildFilter)
    (start count : Option Nat) : List PinUse :=
  match s.resolve? outside id with
  | none => []
  | some v => s.lookUses id ++ (s.pinned? id).2.childrenOfUses v filter start count

/-- What keeping a value uses. -/
def keepUses (s : Inspector) (id : Nat) (v : Value) : List PinUse :=
  if id == 0 then []
  else if (s.pins.entries.get? id).isSome then [.hit id]
  else [.put id v]

/-! ## Values that a request can reach -/

/-- In memory, or made by the adapter from an offset on. -/
def InReach (memory : List Value) (made : Nat) (v : Value) : Prop :=
  Within memory v ∨ ∃ offset, made ≤ offset ∧ v.identity = .first adapterRegion offset

/-- The allocation of such a value. -/
def Reached (memory : List Value) (made : Nat) (i : Identity) : Prop :=
  ∃ v, InReach memory made v ∧ v.identity = i

section
variable {memory : List Value} {made : Nat} {v w : Value}

theorem eq_of_inReach (h : Orderly memory made) (hv : Within memory v)
    (hw : InReach memory made w) (haddress : w.identity.address = v.identity.address) : w = v := by
  rcases hw with hw | ⟨offset, hoffset, hw⟩
  · exact h.coherent w v hw hv haddress
  · rw [hw] at haddress
    have hbelow := h.below v hv (congrArg Address.region haddress.symm)
    rw [← haddress] at hbelow
    exact absurd hbelow (Nat.not_lt.mpr hoffset)

theorem fits_of_inReach (h : Orderly memory made) (hv : InReach memory made v) :
    Fits (Reached memory made) v.identity := by
  rintro _ ⟨w, hw, rfl⟩ haddress
  rcases hv with hv | ⟨offset, hoffset, hv⟩
  · rw [eq_of_inReach h hv hw haddress]
  · rcases hw with hw | ⟨offset', _, hw⟩
    · rw [eq_of_inReach h hw (Or.inr ⟨offset, hoffset, hv⟩) haddress.symm]
    · rw [hv, hw] at haddress ⊢
      cases haddress
      rfl

/-- What uses of pins do to an inspector, in the memory of a request that began with so many values
made. -/
structure Spent (memory : List Value) (made : Nat) (s s' : Inspector) (us : List PinUse) : Prop where
  grows : Grows (Reached memory made) s s'
  pins : s'.pins = s.pins.useAll s.now us
  now : s'.now = s.now
  puts : ∀ id v, .put id v ∈ us → InReach memory made v ∧
    s'.handles.byId.get? id = some v.identity

variable {s s' s'' : Inspector} {us us' : List PinUse}

theorem Spent.refl (hc : s.handles.Consistent) : Spent memory made s s [] :=
  ⟨.refl hc, rfl, rfl, fun _ _ h => absurd h List.not_mem_nil⟩

theorem Spent.trans (h : Spent memory made s s' us) (h' : Spent memory made s' s'' us') :
    Spent memory made s s'' (us ++ us') where
  grows := h.grows.trans h'.grows
  pins := by rw [h'.pins, h.pins, h.now, PinCache.useAll_append]
  now := h'.now.trans h.now
  puts id v hv := by
    rcases List.mem_append.mp hv with hv | hv
    · obtain ⟨hreach, hid⟩ := h.puts id v hv
      exact ⟨hreach, h'.grows.kept id _ ⟨v, hreach, rfl⟩ hid⟩
    · exact h'.puts id v hv

/-- What leaves handles and pins alone uses nothing. -/
theorem spent_made (hc : s.handles.Consistent) {n : Nat} (hn : s.made ≤ n) :
    Spent memory made s { s with made := n } [] :=
  ⟨.of_handles_eq hc rfl hn, rfl, rfl, fun _ _ h => absurd h List.not_mem_nil⟩

theorem spent_register (h : Orderly memory made) (hc : s.handles.Consistent)
    (hv : InReach memory made v) : Spent memory made s (s.register v).2 [] :=
  ⟨grows_register hc (fits_of_inReach h hv), rfl, rfl, fun _ _ h => absurd h List.not_mem_nil⟩

theorem spent_put (hc : s.handles.Consistent) {id : Nat} (hv : InReach memory made v)
    (hid : s.handles.byId.get? id = some v.identity) :
    Spent memory made s { s with pins := s.pins.put id v s.now } [.put id v] := by
  refine ⟨.of_handles_eq hc rfl (Nat.le_refl _), rfl, rfl, fun x w hw => ?_⟩
  obtain ⟨rfl, rfl⟩ := PinCache.Use.put.inj (List.mem_singleton.mp hw)
  exact ⟨hv, hid⟩

theorem spent_pin (h : Orderly memory made) (hc : s.handles.Consistent)
    (hv : InReach memory made v) : Spent memory made s (s.pin v).2 [.put (s.pin v).1 v] := by
  have hregister := spent_register h hc hv
  exact hregister.trans (spent_put hregister.grows.consistent hv (Handles.get?_register_self hc _))

theorem spent_pinAll (h : Orderly memory made) (hc : s.handles.Consistent) {vs : List Value}
    (hvs : ∀ v ∈ vs, InReach memory made v) :
    Spent memory made s (s.pinAll vs) (s.pinAllUses vs) := by
  induction vs generalizing s with
  | nil => exact .refl hc
  | cons v vs ih =>
    have hfirst := spent_pin h hc (hvs v List.mem_cons_self)
    exact hfirst.trans (ih hfirst.grows.consistent fun w hw => hvs w (List.mem_cons_of_mem _ hw))

theorem spent_reference (h : Orderly memory made) (hc : s.handles.Consistent)
    (hv : InReach memory made v) (n : Nat) : Spent memory made s (s.reference v n).2 [] := by
  unfold reference
  split
  · exact .refl hc
  · exact spent_register h hc hv

/-- A row of a table pins a new array of its rows. -/
theorem spent_tableReference (h : Orderly memory made) (hc : s.handles.Consistent)
    (hmade : made ≤ s.made) (columns : List String) (rows : List (List Value)) :
    Spent memory made s (s.tableReference columns rows).2
      (if rows.isEmpty then []
        else [.put (s.tableReference columns rows).1 (tableArray s.made columns rows)]) := by
  unfold tableReference
  split
  · exact .refl hc
  · rw [makeAll_rowShapes]
    have hfresh : InReach memory made (tableArray s.made columns rows) :=
      Or.inr ⟨_, Nat.le_trans hmade (Nat.le_add_right _ _), rfl⟩
    have hoffset : Spent memory made s { s with made := s.made + rows.length + 1 } [] :=
      spent_made hc (by omega)
    exact hoffset.trans (spent_pin h hoffset.grows.consistent hfresh)

theorem spent_row (h : Orderly memory made) (hc : s.handles.Consistent) (hmade : made ≤ s.made)
    (hv : InReach memory made v) (name : String) :
    Spent memory made s (s.row name v).2 (s.rowUses v) := by
  cases hshape : v.shape <;> simp only [row, rowUses, hshape]
  case array items => exact spent_reference h hc hv _
  case struct fields => exact spent_reference h hc hv _
  case function definition fields => exact spent_reference h hc hv _
  case table columns rows => exact spent_tableReference h hc hmade columns rows
  all_goals exact .refl hc

theorem spent_rows (h : Orderly memory made) (hc : s.handles.Consistent) (hmade : made ≤ s.made)
    {xs : List (String × Value)} (hxs : ∀ x ∈ xs, InReach memory made x.2) :
    Spent memory made s (s.rows xs).2 (s.rowsUses xs) := by
  induction xs generalizing s with
  | nil => exact .refl hc
  | cons x xs ih =>
    have hfirst := spent_row h hc hmade (hxs x List.mem_cons_self) x.1
    exact hfirst.trans (ih hfirst.grows.consistent (Nat.le_trans hmade hfirst.grows.made)
      fun y hy => hxs y (List.mem_cons_of_mem _ hy))

theorem spent_childrenOf (h : Orderly memory made) (hc : s.handles.Consistent)
    (hmade : made ≤ s.made) (hparts : ∀ w ∈ v.parts, InReach memory made w) (filter : ChildFilter)
    (start count : Option Nat) :
    Spent memory made s (s.childrenOf v filter start count).2
      (s.childrenOfUses v filter start count) := by
  have hfields : ∀ fields : List (String × Value), fields.map (·.2) ⊆ v.parts →
      Spent memory made s (s.rows (sortFields fields)).2 (s.rowsUses (sortFields fields)) :=
    fun fields hsub => spent_rows h hc hmade fun x hx => hparts _ (hsub (mem_of_mem_sortFields hx))
  have hnone : Spent memory made s s [] := .refl hc
  cases hshape : v.shape <;> simp only [childrenOf, childrenOfUses, hshape]
  case struct fields =>
    split
    · exact hnone
    · exact hfields fields (by simp [Value.parts, hshape, Shape.parts])
  case function definition fields =>
    split
    · exact hnone
    · exact hfields fields (by simp [Value.parts, hshape, Shape.parts])
  case array items =>
    split
    · exact hnone
    · refine spent_rows h hc hmade fun x hx => hparts _ ?_
      have hitem := mem_of_mem_nameItems ((page_sublist _ _ _).subset hx)
      simpa [Value.parts, hshape, Shape.parts] using hitem
  case table columns rows =>
    split
    · exact hnone
    · rw [makeAll_rowShapes]
      have hfresh : ∀ w ∈ rowValues s.made columns rows, InReach memory made w := by
        intro w hw
        obtain ⟨i, _, hi⟩ := mem_rowValues hw
        exact Or.inr ⟨_, Nat.le_trans hmade (Nat.le_add_right _ _), hi⟩
      have hoffset : Spent memory made s { s with made := s.made + rows.length } [] :=
        spent_made hc (Nat.le_add_right _ _)
      have hpins := hoffset.trans (spent_pinAll h hoffset.grows.consistent hfresh)
      refine hpins.trans (spent_rows h hpins.grows.consistent
        (Nat.le_trans hmade hpins.grows.made) fun x hx => ?_)
      exact hfresh _ (mem_of_mem_nameItems ((page_sublist _ _ _).subset hx))
  all_goals exact hnone

theorem spent_look (hc : s.handles.Consistent) (id : Nat) :
    Spent memory made s (s.pinned? id).2 (s.lookUses id) := by
  refine ⟨.of_handles_eq hc rfl (Nat.le_refl _), ?_, rfl, fun x w hw => ?_⟩
  · unfold lookUses
    split
    · rfl
    · rename_i habsent
      have hnone : s.pins.entries.get? id = none := by simpa using habsent
      simp only [pinned?, PinCache.get, hnone]
      rfl
  · unfold lookUses at hw
    split at hw
    · exact absurd (List.mem_singleton.mp hw) (by simp)
    · exact absurd hw List.not_mem_nil

theorem spent_children {outside : List Value} (h : Orderly (s.held outside) s.made)
    (hc : s.handles.Consistent) (id : Nat) (filter : ChildFilter) (start count : Option Nat) :
    Spent (s.held outside) s.made s (s.children outside id filter start count).2
      (s.childrenUses outside id filter start count) := by
  cases hv : s.resolve? outside id with
  | none =>
    simp only [children, childrenUses, hv]
    exact .refl hc
  | some v =>
    obtain ⟨i, _, hi⟩ := Option.bind_eq_some_iff.mp hv
    have hwithin := (Value.within_of_holding hi).1
    have hlook : Spent (s.held outside) s.made s (s.pinned? id).2 (s.lookUses id) := spent_look hc id
    simp only [children, childrenUses, hv]
    exact hlook.trans (spent_childrenOf h hlook.grows.consistent (Nat.le_refl _)
      (fun w hw => Or.inl (.part hwithin hw)) filter start count)

/-- A value is kept under a handle that it already has there, or as its own. -/
theorem spent_keep {room : Nat} (hpins : s.pins.Ageless room) (hc : s.handles.Consistent) {id : Nat}
    (hv : s.pins.entries.get? id = none → id ≠ 0 →
      InReach memory made v ∧ s.handles.byId.get? id = some v.identity) :
    Spent memory made s (Debugger.keep s id v) (s.keepUses id v) := by
  unfold Debugger.keep keepUses
  split
  · exact .refl hc
  · rename_i hzero
    cases hid : s.pins.entries.get? id with
    | none =>
      obtain ⟨hreach, hget⟩ := hv hid (by simpa using hzero)
      simp only [pinned?, hpins.get_eq, hid]
      exact spent_put hc hreach hget
    | some p =>
      have hlook : Spent memory made s (s.pinned? id).2 (s.lookUses id) := spent_look hc id
      simp only [lookUses, pinned?, hpins.get_eq, hid] at hlook ⊢
      exact hlook

/-! ## Keeping a result -/

/-- The value that the handle in a row leads to: for a table the array of its rows. -/
def listedValue (made : Nat) (v : Value) : Value :=
  match v.shape with
  | .table columns rows => tableArray made columns rows
  | _ => v

theorem listedValue_eq_self (htable : v.isTable = false) : listedValue made v = v := by
  cases hshape : v.shape <;> simp_all [listedValue, Value.isTable]

/-- The handle of every pin is that of the pinned value. -/
def Paired (s : Inspector) : Prop :=
  ∀ id p, s.pins.entries.get? id = some p → s.handles.byId.get? id = some p.value.identity

theorem newest_pin {room : Nat} (hpins : s.pins.Ageless room) (hroom : 0 < room) (v : Value) :
    (s.pin v).2.pins.Newest (s.pin v).1 v ∅ :=
  PinCache.newest_put hpins hroom

/-- Keeping pins the value, unless something is pinned under the handle already. -/
theorem newest_keep {room : Nat} (hpins : s.pins.Ageless room) (hroom : 0 < room) {id : Nat}
    (hid : id ≠ 0) (v : Value) :
    (Debugger.keep s id v).pins.Newest id
      (((s.pins.entries.get? id).map (·.value)).getD v) ∅ := by
  unfold Debugger.keep
  rw [if_neg (by simpa using hid)]
  cases hpin : s.pins.entries.get? id with
  | none =>
    simp only [pinned?, hpins.get_eq, hpin]
    exact PinCache.newest_put hpins hroom
  | some p =>
    have hhit : (s.pins.get id s.now).2.Newest id p.value ∅ := PinCache.newest_hit hpins hpin
    rw [hpins.get_eq, hpin] at hhit
    simp only [pinned?, hpins.get_eq, hpin]
    exact hhit

/-- The array of the rows of a table is pinned when the row is listed. -/
theorem Listed.pinned_table {room : Nat} {r : Nat × Inspector} (hr : Listed s v r)
    (htable : v.isTable = true) (hpins : s.pins.Ageless room) (hroom : 0 < room) (hid : r.1 ≠ 0) :
    ∃ p, r.2.pins.entries.get? r.1 = some p ∧ p.value = listedValue s.made v := by
  cases hr with
  | plain => contradiction
  | parts hparts =>
    rw [hparts] at htable
    contradiction
  | @table columns rows hshape =>
    rw [listedValue, hshape]
    exact (newest_pin (s := { s with made := s.made + rows.length + 1 }) hpins hroom
      (tableArray s.made columns rows)).entry

theorem Listed.eq_register {r : Nat × Inspector} (hr : Listed s v r) (htable : v.isTable = false)
    (hid : r.1 ≠ 0) : r = s.register v := by
  cases hr with
  | plain => contradiction
  | parts => rfl
  | table hshape =>
    rw [Value.isTable_of_shape hshape] at htable
    contradiction

/-- Whatever is kept under the handle in a row is what the handle leads to. -/
theorem newest_keep_listed {room : Nat} {r : Nat × Inspector} (hr : Listed s v r)
    (h : Orderly memory made) (hv : Within memory v) (hheld : s.pins.values ⊆ memory)
    (hpaired : s.Paired) (hc : s.handles.Consistent) (hpins : s.pins.Ageless room)
    (hroom : 0 < room) (hid : r.1 ≠ 0) (hrow : r.2.pins.Ageless room) :
    (Debugger.keep r.2 r.1 v).pins.Newest r.1 (listedValue s.made v) ∅ := by
  have hkept := newest_keep hrow hroom hid v
  cases htable : v.isTable with
  | true =>
    obtain ⟨p, hp, hvalue⟩ := hr.pinned_table htable hpins hroom hid
    simpa only [hp, hvalue, Option.map_some, Option.getD_some] using hkept
  | false =>
    obtain rfl := hr.eq_register htable hid
    rw [listedValue_eq_self htable]
    have hsame : (s.register v).2.pins = s.pins := rfl
    cases hp : s.pins.entries.get? (s.register v).1 with
    | none => simpa only [hsame, hp, Option.map_none, Option.getD_none] using hkept
    | some p =>
      -- What is pinned under the handle of the value is at the address of the value.
      have hpinned : Within memory p.value :=
        .held (hheld (PinCache.mem_values_iff.mpr ⟨_, p, hp, rfl⟩))
      have hregister := spent_register h hc (Or.inl hv)
      have hget := hregister.grows.kept _ _ ⟨p.value, Or.inl hpinned, rfl⟩ (hpaired _ p hp)
      have hidentity : v.identity = p.value.identity :=
        Option.some.inj ((Handles.get?_register_self hc v.identity).symm.trans hget)
      have hvalue : p.value = v :=
        h.coherent _ _ hpinned hv (congrArg Identity.address hidentity.symm)
      simpa only [hsame, hp, hvalue, Option.map_some, Option.getD_some] using hkept

end

end Inspector

end DebugAdapter
