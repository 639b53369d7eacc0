import DebugAdapter.Proofs.Value.Upkeep
import Mathlib.Data.List.Count

/-!
# Which listed children resolve

The client is shown a row, and asks for the children of its handle. Whether the handle still leads to
a value then depends on what the listing itself has pinned after it, and on what was dropped for that.

A listing is followed in memory: `Progress` says what its rows bring up, and that pins and handles last
through them. What a single row shows is its `Outcome`.
-/

namespace DebugAdapter

open Value (Within Coherent Alive Orderly)

namespace Inspector

/-! ## Rows in memory -/

/-- The memory in which an inspector works: its pins are there, and the next value that it makes is
new. -/
structure Inhabits (memory : List Value) (s : Inspector) : Prop where
  orderly : Orderly memory s.made
  pins : ∀ id p, s.pins.entries.get? id = some p → p.value ∈ memory

/-- What listing does besides: memory grows, handles of what is there are kept, and a pin lasts
unless too many are put after it. -/
structure Progress (room puts : Nat) (memory memory' : List Value) (s s' : Inspector) : Prop where
  subset : memory ⊆ memory'
  inhabits : Inhabits memory' s'
  kept : Kept room s'
  handles : ∀ id v, Within memory v → s.handles.byId.get? id = some v.identity →
    s'.handles.byId.get? id = some v.identity
  pins : ∀ n id p, s.pins.Recent n id p → n + puts ≤ room → s'.pins.Recent (n + puts) id p

/-- What the handle in a row is: none, that of the value, or for a table that of a pinned array,
with fewer than `n` pins used after it. -/
inductive Outcome (n : Nat) (s : Inspector) (v : Value) (id : Nat) : Prop where
  | none (hid : id = 0)
  | own (htable : v.isTable = false) (hid : s.handles.byId.get? id = some v.identity)
  | array {p : Pin Value} (htable : v.isTable = true) (hrecent : s.pins.Recent n id p)
    (hid : s.handles.byId.get? id = some p.value.identity)

section
variable {room puts puts' : Nat} {memory memory' memory'' : List Value} {s s' s'' : Inspector}

theorem Progress.refl (hkept : Kept room s) (hin : Inhabits memory s) :
    Progress room 0 memory memory s s :=
  ⟨List.Subset.refl _, hin, hkept, fun _ _ _ => id, fun _ _ _ hr _ => hr⟩

theorem Progress.trans (h : Progress room puts memory memory' s s')
    (h' : Progress room puts' memory' memory'' s' s'') :
    Progress room (puts + puts') memory memory'' s s'' where
  subset := List.Subset.trans h.subset h'.subset
  inhabits := h'.inhabits
  kept := h'.kept
  handles id v hv hid := h'.handles id v (hv.mono h.subset) (h.handles id v hv hid)
  pins n id p hr hroom := by
    have hfirst := h.pins n id p hr (by omega)
    exact Nat.add_assoc n puts puts' ▸ h'.pins _ id p hfirst (by omega)

theorem Progress.mono (h : Progress room puts memory memory' s s') (hputs : puts ≤ puts') :
    Progress room puts' memory memory' s s' where
  subset := h.subset
  inhabits := h.inhabits
  kept := h.kept
  handles := h.handles
  pins n id p hr hroom := (h.pins n id p hr (by omega)).mono (by omega)

/-- A pin is under another handle than the one that a value of another allocation gets. -/
theorem Kept.ne_register (h : Kept room s) {id : Nat} {p : Pin Value}
    (hp : s.pins.entries.get? id = some p) {i : Identity} (hi : p.value.identity ≠ i) :
    id ≠ (s.handles.register i).1 := by
  rintro rfl
  obtain ⟨hid, hvalue⟩ := h.keyed _ p hp
  rcases Handles.register_cases h.consistent i with ⟨known, hknown, heq⟩ | ⟨_, heq⟩
  · rw [heq] at hvalue
    exact hi (hvalue i hknown).symm
  · rw [heq] at hid
    exact Nat.lt_irrefl _ hid

theorem Inhabits.ne_made (h : Inhabits memory s) {v : Value} (hv : Within memory v) {offset : Nat}
    (hoffset : s.made ≤ offset) : v.identity ≠ .first adapterRegion offset := by
  intro heq
  have hbelow := h.orderly.below v hv (by rw [heq]; rfl)
  rw [heq] at hbelow
  exact absurd hbelow (Nat.not_lt.mpr hoffset)

/-- The allocations of values in memory. -/
def Lives (memory : List Value) (i : Identity) : Prop := ∃ v, Within memory v ∧ v.identity = i

theorem covers_lives (memory : List Value) : Covers memory (Lives memory) := fun _ => id

theorem Progress.register (hkept : Kept room s) (hin : Inhabits memory s) {v : Value}
    (hv : Within memory v) : Progress room 0 memory memory s (s.register v).2 where
  subset := List.Subset.refl _
  inhabits := ⟨hin.orderly, hin.pins⟩
  kept := hkept.register v
  handles id w hw := (grows_register hkept.consistent
    (fits_of_coherent (covers_lives memory) hin.orderly.coherent hv)).kept id _ ⟨w, hw, rfl⟩
  pins _ _ _ hr _ := hr

/-- Pinning a value that is new in memory. -/
theorem Progress.pin (hkept : Kept room s) (hin : Inhabits memory s) {v : Value}
    (hv : v ∈ memory') (hsub : memory ⊆ memory') (horderly : Orderly memory' s.made)
    (hnew : ∀ w, Within memory w → w.identity ≠ v.identity)
    (hfits : Fits (Lives memory) v.identity) :
    Progress room 1 memory memory' s (s.pin v).2 where
  subset := hsub
  inhabits := by
    refine ⟨horderly, fun id p hp => ?_⟩
    rcases PinCache.get?_put (hkept.register v).sound hp with ⟨_, rfl⟩ | ⟨_, hp⟩
    · exact hv
    · exact hsub (hin.pins id p hp)
  kept := hkept.pin v
  handles id w hw := (grows_pin hkept.consistent hfits).kept id _ ⟨w, hw, rfl⟩
  pins n id p hr hroom := by
    refine hr.put hkept.sound ?_ (hkept.capacity ▸ hroom)
    exact hkept.ne_register hr.entry (hnew p.value (.held (hin.pins id p hr.entry)))

theorem Progress.made (hkept : Kept room s) (hin : Inhabits memory s) (made : Nat)
    (hmade : s.made ≤ made) : Progress room 0 memory memory s { s with made } where
  subset := List.Subset.refl _
  inhabits := ⟨hin.orderly.later hmade, hin.pins⟩
  kept := hkept.withMade made
  handles _ _ _ := id
  pins _ _ _ hr _ := hr

theorem Listed.progress {v : Value} {r : Nat × Inspector} (hr : Listed s v r) (hkept : Kept room s)
    (hroom : 0 < room) (hin : Inhabits memory s) (hv : Within memory v) :
    ∃ memory', Progress room (if v.isTable then 1 else 0) memory memory' s r.2 ∧
      Outcome 1 r.2 v r.1 := by
  cases hr with
  | plain => exact ⟨memory, (Progress.refl hkept hin).mono (Nat.zero_le _), .none rfl⟩
  | parts htable =>
    have hown := Handles.get?_register_self hkept.consistent v.identity
    exact ⟨memory, (Progress.register hkept hin hv).mono (Nat.zero_le _), .own htable hown⟩
  | @table columns rows hshape =>
    have htable := Value.isTable_of_shape hshape
    have hcells : ∀ w ∈ rows.flatten, Within memory w := by
      intro w hw
      refine .part hv ?_
      simpa only [Value.parts, hshape, Shape.parts] using hw
    have hmade := Progress.made hkept hin (s.made + rows.length + 1) (by omega)
    have hsub : memory ⊆
        tableArray s.made columns rows :: rowValues s.made columns rows ++ memory :=
      fun w hw => List.mem_append_right _ hw
    have hpin := Progress.pin hmade.kept hmade.inhabits (v := tableArray s.made columns rows)
      (List.mem_append_left _ List.mem_cons_self) hsub
      (hin.orderly.tableArray columns hcells)
      (fun w hw => hin.ne_made hw (Nat.le_add_right _ _))
      (free_of_orderly (covers_lives memory) hin.orderly _ (Nat.le_add_right _ _))
    rw [if_pos htable]
    have hrecent := recent_pin hmade.kept hroom (tableArray s.made columns rows)
    exact ⟨_, Nat.zero_add 1 ▸ hmade.trans hpin,
      .array htable hrecent (Handles.get?_register_self hmade.kept.consistent _)⟩

theorem Outcome.later {n : Nat} {v : Value} {id : Nat} (h : Outcome n s v id)
    (hin : Inhabits memory s) (hv : Within memory v)
    (hprogress : Progress room puts memory memory' s s')
    (hroom : v.isTable = true → n + puts ≤ room) : Outcome (n + puts) s' v id := by
  cases h with
  | none hid => exact .none hid
  | own htable hid => exact .own htable (hprogress.handles id v hv hid)
  | array htable hrecent hid =>
    have hpinned := hin.pins id _ hrecent.entry
    exact .array htable (hprogress.pins n id _ hrecent (hroom htable))
      (hprogress.handles id _ (.held hpinned) hid)

theorem Outcome.mono {n m : Nat} {v : Value} {id : Nat} (h : Outcome n s v id)
    (hm : v.isTable = true → n ≤ m) : Outcome m s v id := by
  cases h with
  | none hid => exact .none hid
  | own htable hid => exact .own htable hid
  | array htable hrecent hid => exact .array htable (hrecent.mono (hm htable)) hid

/-- The number of tables among values. -/
def tables (xs : List (String × Value)) : Nat := xs.countP (·.2.isTable)

/-- Each row for a table takes a pin. While there is room for all of them, all rows come out. -/
theorem rows_progress (hkept : Kept room s) (hroom : 0 < room) (hin : Inhabits memory s)
    {xs : List (String × Value)} (hxs : ∀ x ∈ xs, Within memory x.2) (htables : tables xs ≤ room) :
    ∃ memory', Progress room (tables xs) memory memory' s (s.rows xs).2 ∧
      List.Forall₂ (fun row x => Outcome room (s.rows xs).2 x.2 row.reference) (s.rows xs).1 xs := by
  induction xs generalizing s memory with
  | nil => exact ⟨memory, .refl hkept hin, .nil⟩
  | cons x xs ih =>
    have hcount : tables (x :: xs) = (if x.2.isTable then 1 else 0) + tables xs := by
      simp only [tables, List.countP_cons]
      omega
    have hx := hxs x List.mem_cons_self
    obtain ⟨memory₁, hfirst, hrow⟩ := (listed_row s x.1 x.2).progress hkept hroom hin hx
    obtain ⟨memory₂, hrest, hrows⟩ := ih hfirst.kept hfirst.inhabits
      (fun y hy => (hxs y (List.mem_cons_of_mem _ hy)).mono hfirst.subset) (by omega)
    rw [hcount]
    refine ⟨memory₂, hfirst.trans hrest, .cons ?_ hrows⟩
    have htable : x.2.isTable = true → 1 + tables xs ≤ room := by
      intro htable
      rwa [hcount, if_pos htable] at htables
    exact (hrow.later hfirst.inhabits (hx.mono hfirst.subset) hrest htable).mono htable

/-! ## Children of other values than tables -/

theorem resolves_iff_alive {outside : List Value} {id : Nat} {i : Identity}
    (hid : s.handles.byId.get? id = some i) :
    (s.resolve? outside id).isSome = true ↔ Alive (s.held outside) i := by
  simp [resolve?, Handles.resolve?, Alive, hid]

theorem resolves_of_within {outside : List Value} (hcoherent : Coherent (s.held outside)) {id : Nat}
    {v : Value} (hid : s.handles.byId.get? id = some v.identity)
    (hv : Within (s.held outside) v) : (s.resolve? outside id).isSome = true :=
  (resolves_iff_alive hid).mpr (hcoherent.alive hv)

theorem mem_held_of_entry {outside : List Value} {id : Nat} {p : Pin Value}
    (hp : s.pins.entries.get? id = some p) : p.value ∈ s.held outside :=
  List.mem_append_right _ (PinCache.mem_values_iff.mpr ⟨id, p, hp, rfl⟩)

theorem held_subset {outside : List Value} (hin : Inhabits memory s) (houtside : outside ⊆ memory) :
    s.held outside ⊆ memory := by
  intro v hv
  rcases List.mem_append.mp hv with hv | hv
  · exact houtside hv
  · obtain ⟨id, p, hp, rfl⟩ := PinCache.mem_values_iff.mp hv
    exact hin.pins id p hp

theorem Progress.owner {outside : List Value} {v : Value}
    (h : Progress room puts memory memory' s s') (howner : Within outside v ∨
      ∃ n id p, s.pins.Recent n id p ∧ Within [p.value] v ∧ n + puts ≤ room) :
    Within (s'.held outside) v := by
  rcases howner with hv | ⟨n, id, p, hrecent, hv, hroom⟩
  · exact hv.mono (List.subset_append_left _ _)
  · refine hv.mono (List.cons_subset.mpr ⟨?_, List.nil_subset _⟩)
    exact mem_held_of_entry (h.pins n id p hrecent hroom).entry

section
variable {α β : Type} {R : α → β → Prop} {xs : List α} {ys : List β} {x : α}

theorem exists_of_getElem? (h : List.Forall₂ R xs ys) {k : Nat} (hx : xs[k]? = some x) :
    ∃ y, ys[k]? = some y ∧ R x y := by
  induction h generalizing k with
  | nil => contradiction
  | cons hxy _ ih =>
    cases k with
    | zero =>
      cases hx
      exact ⟨_, rfl, hxy⟩
    | succ k => exact ih hx

theorem forall₂_and {S : α → β → Prop} (h : List.Forall₂ R xs ys) (h' : List.Forall₂ S xs ys) :
    List.Forall₂ (fun x y => R x y ∧ S x y) xs ys := by
  induction h with
  | nil => exact .nil
  | cons hxy _ ih =>
    obtain ⟨hxy', hrest⟩ := List.forall₂_cons.mp h'
    exact .cons ⟨hxy, hxy'⟩ (ih hrest)

theorem exists_of_mem (h : List.Forall₂ R xs ys) (hx : x ∈ xs) : ∃ y ∈ ys, R x y := by
  obtain ⟨k, hk⟩ := List.mem_iff_getElem?.mp hx
  obtain ⟨y, hy, hxy⟩ := exists_of_getElem? h hk
  exact ⟨y, List.mem_of_getElem? hy, hxy⟩

end

/-- Rows for tables say so, and so does no other row that can be expanded. -/
theorem rows_typeName (s : Inspector) (xs : List (String × Value)) :
    List.Forall₂ (fun row x => (x.2.isTable = true → row.typeName = "table") ∧
      (row.typeName = "table" → row.reference ≠ 0 → x.2.isTable = true)) (s.rows xs).1 xs := by
  induction xs generalizing s with
  | nil => exact .nil
  | cons x xs ih =>
    exact .cons ⟨row_typeName s x.1, isTable_of_typeName s x.1⟩ (ih _)

theorem tables_le (s : Inspector) (xs : List (String × Value)) :
    tables xs ≤ (s.rows xs).1.countP (·.typeName = "table") := by
  induction xs generalizing s with
  | nil => exact Nat.le_refl _
  | cons x xs ih =>
    have hrest := ih (s.row x.1 x.2).2
    simp only [tables, rows, List.countP_cons] at hrest ⊢
    refine Nat.add_le_add hrest ?_
    split
    · rw [if_pos (decide_eq_true (row_typeName s x.1 ‹_›))]
    · exact Nat.zero_le _

/-- Looking up a pin moves it to the end of the order and changes nothing else. -/
theorem look_spec (hkept : Kept room s) (id : Nat) :
    (s.pinned? id).2.pins.entries = s.pins.entries ∧
      (∀ outside, (s.pinned? id).2.held outside = s.held outside) ∧
      ∀ p, s.pins.entries.get? id = some p → (s.pinned? id).2.pins.Recent 1 id p := by
  obtain ⟨_, hentries, hrecent⟩ := PinCache.get_spec hkept.sound hkept.lifetime id s.now
  refine ⟨hentries, fun outside => ?_, fun p hp => (hrecent p hp).2⟩
  simp only [held, pinned?, PinCache.values, hentries]

theorem look_of_unpinned {id : Nat} (h : ¬s.pins.entries.contains id = true) :
    (s.pinned? id).2 = s := by
  have hnone : s.pins.entries.get? id = none := by
    simpa only [Table.contains, Option.not_isSome_iff_eq_none] using h
  simp only [pinned?, PinCache.get, hnone]

theorem Inhabits.look {outside : List Value} (hkept : Kept room s)
    (h : Orderly (s.held outside) s.made) (id : Nat) :
    Inhabits (s.held outside) (s.pinned? id).2 where
  orderly := h
  pins _ _ hp := mem_held_of_entry ((look_spec hkept id).1 ▸ hp)

/-- What keeps the value behind a handle while pins are put: it is held outside, it is pinned
itself, or it is in a pinned value for which there is room after that. -/
inductive Owned (s : Inspector) (outside : List Value) (id puts : Nat) (v : Value) : Prop where
  | outside (h : Within outside v)
  | pinned (h : s.pins.entries.contains id = true)
  | part {n holder : Nat} {p : Pin Value} (hrecent : s.pins.Recent n holder p)
    (hv : Within [p.value] v) (hroom : n + puts ≤ s.pins.capacity)

/-- The rows of a value other than a table. -/
theorem parts_resolve {outside : List Value} {id : Nat} {v : Value} {xs : List (String × Value)}
    (hkept : Kept room s) (hroom : 0 < room) (horderly : Orderly (s.held outside) s.made)
    (hid : s.handles.byId.get? id = some v.identity) (hv : Within (s.held outside) v)
    (hxs : ∀ x ∈ xs, x.2 ∈ v.parts) (hlength : xs.length ≤ room)
    {row : Variable} (hrow : row ∈ ((s.pinned? id).2.rows xs).1) (hreference : row.reference ≠ 0)
    (howner : row.typeName = "table" ∨
      Owned s outside id (((s.pinned? id).2.rows xs).1.countP (·.typeName = "table")) v) :
    (((s.pinned? id).2.rows xs).2.resolve? outside row.reference).isSome = true := by
  obtain ⟨_, _, hrecent⟩ := look_spec hkept id
  have htables : tables xs ≤ room := Nat.le_trans List.countP_le_length hlength
  obtain ⟨memory', hprogress, hrows⟩ := rows_progress (hkept.look id) hroom
    (.look hkept horderly id) (fun x hx => .part hv (hxs x hx)) htables
  have hcoherent : Coherent (((s.pinned? id).2.rows xs).2.held outside) := by
    have houtside : outside ⊆ memory' :=
      List.Subset.trans (List.subset_append_left _ _) hprogress.subset
    exact (hprogress.inhabits.orderly.mono (held_subset hprogress.inhabits houtside)).coherent
  obtain ⟨x, hx, hxrow, hname⟩ := exists_of_mem (forall₂_and hrows (rows_typeName _ xs)) hrow
  cases hxrow with
  | none hnone => exact absurd hnone hreference
  | array _ hpin hget =>
    exact resolves_of_within hcoherent hget (.held (mem_held_of_entry hpin.entry))
  | own htable hget =>
    refine resolves_of_within hcoherent hget (.part (hprogress.owner ?_) (hxs x hx))
    replace howner := howner.resolve_left fun h => by simp [hname.2 h hreference] at htable
    by_cases hpinned : s.pins.entries.contains id = true
    · obtain ⟨p, hp⟩ := Option.isSome_iff_exists.mp hpinned
      obtain rfl : v = p.value := horderly.coherent v p.value hv (.held (mem_held_of_entry hp))
        (congrArg Identity.address ((hkept.keyed id p hp).2 _ hid))
      -- The row itself takes no pin, so there is room for the owner.
      have hless : tables xs < xs.length := List.countP_lt_length_iff.mpr ⟨x, hx, by simp [htable]⟩
      exact Or.inr ⟨1, id, p, hrecent p hp, .held (List.mem_singleton.mpr rfl), by omega⟩
    · cases howner with
      | outside hv => exact Or.inl hv
      | pinned h => exact absurd h hpinned
      | @part n holder p hrecent hv hputs =>
        have hcount := tables_le (s.pinned? id).2 xs
        rw [hkept.capacity] at hputs
        rw [look_of_unpinned hpinned]
        rw [look_of_unpinned hpinned] at hcount hputs
        exact Or.inr ⟨n, holder, p, hrecent, hv, by omega⟩

end

end Inspector

end DebugAdapter
