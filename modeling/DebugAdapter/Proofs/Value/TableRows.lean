import DebugAdapter.Proofs.Value.Children

/-!
# Which rows of a table resolve

The rows of a table are values that the adapter makes, and only their pins keep them. All of them are
pinned before a page of them is listed, so what can be expanded is decided by their number and not by
that of the rows on the page (`table_resolve`).
-/

namespace DebugAdapter.Inspector

open Value (Within Coherent Alive Orderly)

variable {room : Nat} {s : Inspector}

/-! ## Values without handles -/

/-- Handles that are in use, those of all pins among them, and none of them for `v`. -/
structure Unused (s : Inspector) (taken : List Nat) (v : Value) : Prop where
  given : ∀ id ∈ taken, id < s.handles.nextId
  apart : ∀ id ∈ taken, s.handles.byId.get? id ≠ some v.identity

/-- Pinning a value that has no handle gives it a new one, and puts it behind all other pins. -/
theorem pin_unused (hkept : Kept room s) {v : Value} {taken : List Nat}
    (hpins : s.pins.order ⊆ taken) (hunused : Unused s taken v) :
    (s.pin v).1 ∉ taken ∧ (s.pin v).2.pins.order = (s.pins.order ++ [(s.pin v).1]).rtake room := by
  have hnew : (s.handles.register v.identity).1 ∉ taken := by
    intro hmem
    rcases Handles.register_cases hkept.consistent v.identity with ⟨id, hid, heq⟩ | ⟨_, heq⟩
    · rw [heq] at hmem
      exact hunused.apart id hmem hid
    · rw [heq] at hmem
      exact Nat.lt_irrefl _ (hunused.given _ hmem)
  have hput := (PinCache.put_spec hkept.sound (s.handles.register v.identity).1 v s.now).2.1
  rw [List.filter_eq_self.mpr, hkept.capacity] at hput
  · exact ⟨hnew, hput⟩
  · intro id hid
    exact decide_eq_true (ne_of_mem_of_not_mem (hpins hid) hnew)

theorem Unused.pin (hkept : Kept room s) {v w : Value} {taken : List Nat} (h : Unused s taken w)
    (hvw : v.identity ≠ w.identity) : Unused (s.pin v).2 ((s.pin v).1 :: taken) w := by
  have hself : (s.pin v).2.handles.byId.get? (s.pin v).1 = some v.identity :=
    Handles.get?_register_self hkept.consistent v.identity
  have hlater : s.handles.Later (s.pin v).2.handles :=
    Handles.later_register hkept.consistent v.identity
  constructor
  · intro id hid
    rcases List.mem_cons.mp hid with rfl | hid
    · exact (hlater.consistent.numbered _ _ hself).2
    · exact Nat.lt_of_lt_of_le (h.given id hid) hlater.nextId
  · intro id hid hget
    rcases List.mem_cons.mp hid with rfl | hid
    · exact hvw (Option.some.inj (hself.symm.trans hget))
    · exact h.apart id hid (hlater.byId id _ (h.given id hid) hget)

/-- Values were pinned under handles that were not taken, one after the other. -/
structure Queued (room : Nat) (taken : List Nat) (s s' : Inspector) (vs : List Value)
    (ids : List Nat) : Prop where
  nodup : ids.Nodup
  fresh : ∀ id ∈ ids, id ∉ taken
  handles : List.Forall₂ (fun id v => s'.handles.byId.get? id = some v.identity) ids vs
  order : s'.pins.order = (s.pins.order ++ ids).rtake room
  entries : ∀ id p, s'.pins.entries.get? id = some p → s.pins.entries.get? id = some p ∨
    p.value ∈ vs ∧ s'.handles.byId.get? id = some p.value.identity

theorem queued_pinAll (hkept : Kept room s) {vs : List Value} {taken : List Nat}
    (hdistinct : (vs.map (·.identity.address)).Nodup) (hpins : s.pins.order ⊆ taken)
    (hunused : ∀ v ∈ vs, Unused s taken v) : ∃ ids, Queued room taken s (s.pinAll vs) vs ids := by
  induction vs generalizing s taken with
  | nil =>
    refine ⟨[], List.nodup_nil, by simp, .nil, ?_, fun _ _ hp => Or.inl hp⟩
    rw [List.append_nil, PinCache.rtake_eq_self (hkept.capacity ▸ hkept.sound.size)]
    rfl
  | cons v vs ih =>
    obtain ⟨hv, hvs⟩ := List.nodup_cons.mp hdistinct
    have hother : ∀ w ∈ vs, v.identity.address ≠ w.identity.address := fun w hw heq =>
      hv (List.mem_map.mpr ⟨w, hw, heq.symm⟩)
    obtain ⟨hnew, horder⟩ := pin_unused hkept hpins (hunused v List.mem_cons_self)
    have hpins' : (s.pin v).2.pins.order ⊆ (s.pin v).1 :: taken := by
      intro id hid
      rw [horder] at hid
      rcases List.mem_append.mp (List.drop_subset _ _ hid) with hid | hid
      · exact List.mem_cons_of_mem _ (hpins hid)
      · exact List.mem_cons.mpr (Or.inl (List.mem_singleton.mp hid))
    obtain ⟨ids, hrest⟩ := ih (hkept.pin v) hvs hpins'
      fun w hw => (hunused w (List.mem_cons_of_mem _ hw)).pin hkept
        fun heq => hother w hw (congrArg Identity.address heq)
    -- No later value is at the address of this one, so its handle stays.
    have hgrows : Grows (· = v.identity) (s.pin v).2 ((s.pin v).2.pinAll vs) :=
      grows_pinAll (hkept.pin v).consistent fun w hw i hi haddress =>
        absurd (hi ▸ haddress) (hother w hw)
    have hfirst : ((s.pin v).2.pinAll vs).handles.byId.get? (s.pin v).1 = some v.identity :=
      hgrows.kept _ _ rfl (Handles.get?_register_self hkept.consistent v.identity)
    refine ⟨(s.pin v).1 :: ids, ?_, ?_, .cons hfirst hrest.handles, ?_, ?_⟩
    · exact List.nodup_cons.mpr ⟨fun hid => hrest.fresh _ hid List.mem_cons_self, hrest.nodup⟩
    · intro id hid
      rcases List.mem_cons.mp hid with rfl | hid
      · exact hnew
      · exact fun hmem => hrest.fresh id hid (List.mem_cons_of_mem _ hmem)
    · refine hrest.order.trans ?_
      rw [horder, PinCache.rtake_rtake_append, List.append_assoc]
      rfl
    · intro id p hp
      rcases hrest.entries id p hp with hp | ⟨hmem, hget⟩
      · rcases PinCache.get?_put hkept.sound hp with ⟨rfl, rfl⟩ | ⟨_, hp⟩
        · exact Or.inr ⟨List.mem_cons_self, hfirst⟩
        · exact Or.inl hp
      · exact Or.inr ⟨List.mem_cons_of_mem _ hmem, hget⟩

section
variable {s' : Inspector} {vs : List Value} {ids : List Nat} {outside : List Value}

theorem Queued.held_subset (h : Queued room s.pins.order s s' vs ids) :
    s'.held outside ⊆ vs ++ s.held outside := by
  intro u hu
  rcases List.mem_append.mp hu with hu | hu
  · exact List.mem_append_right _ (List.mem_append_left _ hu)
  · obtain ⟨id, p, hp, rfl⟩ := PinCache.mem_values_iff.mp hu
    rcases h.entries id p hp with hold | ⟨hmem, _⟩
    · exact List.mem_append_right _ (mem_held_of_entry hold)
    · exact List.mem_append_left _ hmem

/-- The pins that are left are the last ones that there is room for. -/
theorem Queued.mem_order_iff (h : Queued room s.pins.order s s' vs ids) (hkept : Kept room s)
    {j id : Nat} (hid : ids[j]? = some id) : id ∈ s'.pins.order ↔ ids.length ≤ j + room := by
  have hall : (s.pins.order ++ ids).Nodup :=
    hkept.sound.nodup_order.append h.nodup fun x hx hx' => h.fresh x hx' hx
  have hindex : (s.pins.order ++ ids)[s.pins.order.length + j]? = some id := by
    rw [List.getElem?_append_right (Nat.le_add_right _ _), Nat.add_sub_cancel_left]
    exact hid
  rw [h.order, PinCache.mem_rtake_iff hall hindex, List.length_append]
  omega

/-- A queued value that is new in memory is held only by its own pin. -/
theorem Queued.mem_held_iff (h : Queued room s.pins.order s s' vs ids) (hkept : Kept room s)
    (hkept' : Kept room s') (hcoherent : Coherent (vs ++ s.held outside)) {j id : Nat} {w : Value}
    (hid : ids[j]? = some id) (hw : vs[j]? = some w) (hnew : ¬Within (s.held outside) w) :
    w ∈ s'.held outside ↔ id ∈ s'.pins.order := by
  have hget : s'.handles.byId.get? id = some w.identity := by
    obtain ⟨x, hx, hget⟩ := exists_of_getElem? h.handles hid
    exact Option.some.inj (hx.symm.trans hw) ▸ hget
  rw [hkept'.sound.mem_order_iff]
  constructor
  · intro hheld
    rcases List.mem_append.mp hheld with hheld | hheld
    · exact absurd (.held (List.mem_append_left _ hheld)) hnew
    · obtain ⟨key, p, hp, rfl⟩ := PinCache.mem_values_iff.mp hheld
      rcases h.entries key p hp with hold | ⟨_, hkey⟩
      · exact absurd (.held (mem_held_of_entry hold)) hnew
      · exact ⟨p, hkept'.consistent.unique hget hkey rfl ▸ hp⟩
  · rintro ⟨p, hp⟩
    rcases h.entries id p hp with hold | ⟨hmem, hkey⟩
    · have horder : id ∈ s.pins.order := hkept.sound.mem_order_iff.mpr ⟨p, hold⟩
      exact absurd horder (h.fresh id (List.mem_of_getElem? hid))
    · have hidentity : p.value.identity = w.identity := Option.some.inj (hkey.symm.trans hget)
      have hsame : p.value = w := hcoherent _ _ (.held (List.mem_append_left _ hmem))
        (.held (List.mem_append_left _ (List.mem_of_getElem? hw)))
        (congrArg Identity.address hidentity)
      exact hsame ▸ mem_held_of_entry hp

end

/-! ## Rows with handles -/

theorem Listed.of_known {v : Value} {r : Nat × Inspector} (hr : Listed s v r) (hkept : Kept room s)
    (htable : v.isTable = false) {id : Nat} (hid : s.handles.byId.get? id = some v.identity) :
    r.2 = s ∧ (r.1 = 0 ∨ s.handles.byId.get? r.1 = some v.identity) := by
  cases hr with
  | plain => exact ⟨rfl, Or.inl rfl⟩
  | parts =>
    simp only [register, Handles.register_of_get? hkept.consistent _ hid]
    exact ⟨trivial, Or.inr hid⟩
  | table hshape =>
    rw [Value.isTable_of_shape hshape] at htable
    contradiction

theorem rows_of_known (hkept : Kept room s) {xs : List (String × Value)}
    (hxs : ∀ x ∈ xs, x.2.isTable = false ∧ ∃ id, s.handles.byId.get? id = some x.2.identity) :
    (s.rows xs).2 = s ∧ List.Forall₂ (fun row x => row.reference = 0 ∨
      s.handles.byId.get? row.reference = some x.2.identity) (s.rows xs).1 xs := by
  induction xs with
  | nil => exact ⟨rfl, .nil⟩
  | cons x xs ih =>
    obtain ⟨hsame, hrows⟩ := ih fun y hy => hxs y (List.mem_cons_of_mem _ hy)
    obtain ⟨htable, id, hid⟩ := hxs x List.mem_cons_self
    obtain ⟨hfirst, hrow⟩ := (listed_row s x.1 x.2).of_known hkept htable hid
    simp only [rows]
    rw [hfirst]
    exact ⟨hsame, .cons hrow hrows⟩

/-- New values are alive only by being held, if what holds them holds nothing else that is new. -/
theorem alive_iff_mem {values held memory : List Value} (hcoherent : Coherent (values ++ memory))
    (hsub : held ⊆ values ++ memory) (hparts : ∀ x ∈ values, ∀ w ∈ x.parts, Within memory w)
    {v : Value} (hv : v ∈ values) (hnew : ¬Within memory v) : Alive held v.identity ↔ v ∈ held := by
  refine ⟨fun h => ?_, Value.alive_of_mem⟩
  obtain ⟨u, hu, hidentity⟩ := h.exists_within
  obtain rfl : u = v := hcoherent u v (hu.mono hsub) (.held (List.mem_append_left _ hv))
    (congrArg Identity.address hidentity)
  cases hu with
  | held hu => exact hu
  | part hx hu =>
    rcases (hx.mono hsub).of_append hparts with hx | hx
    · exact absurd (hparts _ hx _ hu) hnew
    · exact absurd (.part hx hu) hnew

/-- Once the rows of a table are pinned, each has a handle, and what is left of them are the last
ones that there is room for. -/
theorem pinned_rows {outside : List Value} {v : Value} {columns : List String}
    {rows : List (List Value)} (hkept : Kept room s) (hin : Inhabits (s.held outside) s)
    (hv : Within (s.held outside) v) (hshape : v.shape = .table columns rows) :
    let values := rowValues s.made columns rows
    let s' := { s with made := s.made + rows.length }.pinAll values
    ∀ j w, values[j]? = some w → (∃ id, s'.handles.byId.get? id = some w.identity) ∧
      (Alive (s'.held outside) w.identity ↔ rows.length ≤ j + room) := by
  intro values s' j w hw
  have hcells : ∀ c ∈ rows.flatten, Within (s.held outside) c := by
    intro c hc
    refine .part hv ?_
    simpa only [Value.parts, hshape, Shape.parts] using hc
  have hmade : ∀ x ∈ values, ∀ u, Within (s.held outside) u → u.identity ≠ x.identity := by
    intro x hx u hu
    obtain ⟨i, _, hi⟩ := mem_rowValues hx
    exact hi ▸ hin.ne_made hu (Nat.le_add_right _ _)
  have hunused : ∀ x ∈ values, Unused s s.pins.order x := by
    intro x hx
    constructor <;> intro id hid
    · obtain ⟨p, hp⟩ := hkept.sound.mem_order_iff.mp hid
      exact (hkept.keyed id p hp).1
    · obtain ⟨p, hp⟩ := hkept.sound.mem_order_iff.mp hid
      intro hget
      exact hmade x hx p.value (.held (mem_held_of_entry hp)) ((hkept.keyed id p hp).2 _ hget).symm
  have hmoved : Kept room { s with made := s.made + rows.length } := hkept.withMade _
  obtain ⟨ids, hqueued⟩ := queued_pinAll hmoved (nodup_rowValues s.made columns rows)
    (List.Subset.refl _) fun x hx => ⟨(hunused x hx).given, (hunused x hx).apart⟩
  have hkept' : Kept room s' := hmoved.pinAll values
  have hcoherent := (hin.orderly.rowValues columns hcells).coherent
  obtain ⟨id, hid, hget⟩ := exists_of_getElem? hqueued.handles.flip hw
  have hvalue : w ∈ values := List.mem_of_getElem? hw
  have hnew : ¬Within (s.held outside) w := fun hold => hmade w hvalue w hold rfl
  refine ⟨⟨id, hget⟩, ?_⟩
  calc Alive (s'.held outside) w.identity
      ↔ w ∈ s'.held outside := alive_iff_mem hcoherent hqueued.held_subset
        (fun x hx u hu => hcells u ((parts_of_mem_rowValues hx).2 u hu)) hvalue hnew
    _ ↔ id ∈ s'.pins.order := hqueued.mem_held_iff hmoved hkept' hcoherent hid hw hnew
    _ ↔ ids.length ≤ j + room := hqueued.mem_order_iff hmoved hid
    _ ↔ rows.length ≤ j + room := by
      rw [hqueued.handles.length_eq.trans (length_rowValues _ _ _)]

/-- The rows of a table, from its `k`th on the page: each comes out with a handle, but only the last
ones that there is room for can be expanded. -/
theorem table_resolve {outside : List Value} {v : Value} {columns : List String}
    {rows : List (List Value)} {start count : Option Nat} (hkept : Kept room s)
    (hin : Inhabits (s.held outside) s) (hv : Within (s.held outside) v)
    (hshape : v.shape = .table columns rows) :
    let values := rowValues s.made columns rows
    let r := ({ s with made := s.made + rows.length }.pinAll values).rows
      (page start count (nameItems values))
    ∀ (k : Nat) (row : Variable), r.1[k]? = some row → row.reference ≠ 0 →
      ((r.2.resolve? outside row.reference).isSome = true ↔
        rows.length ≤ start.getD 0 + k + room) := by
  intro values r k row hrow hreference
  have hpinned := pinned_rows hkept hin hv hshape
  have hitem : ∀ {j : Nat} {x : String × Value}, (nameItems values)[j]? = some x →
      values[j]? = some x.2 := by
    intro j x hx
    simp only [nameItems, List.getElem?_mapIdx, Option.map_eq_some_iff] at hx
    obtain ⟨w, hw, rfl⟩ := hx
    exact hw
  have hknown : ∀ x ∈ page start count (nameItems values), x.2.isTable = false ∧
      ∃ id, ({ s with made := s.made + rows.length }.pinAll values).handles.byId.get? id =
        some x.2.identity := by
    intro x hx
    obtain ⟨j, hj⟩ := List.mem_iff_getElem?.mp ((page_sublist _ _ _).subset hx)
    have hvalue := hitem hj
    exact ⟨(parts_of_mem_rowValues (List.mem_of_getElem? hvalue)).1, (hpinned j x.2 hvalue).1⟩
  obtain ⟨hsame, hrows⟩ := rows_of_known ((hkept.withMade (s.made + rows.length)).pinAll values)
    hknown
  obtain ⟨x, hx, hxrow⟩ := exists_of_getElem? hrows hrow
  have hid := hxrow.resolve_left hreference
  have halive := (hpinned _ x.2 (hitem (getElem?_of_page hx))).2
  rw [show r.2 = { s with made := s.made + rows.length }.pinAll values from hsame]
  exact (resolves_iff_alive hid).trans halive

/-! ## Children of a handle -/

section
variable {outside : List Value} {id : Nat} {v : Value} {filter : ChildFilter}
  {start count : Option Nat}

theorem listing_children (filter : ChildFilter) (hv : s.resolve? outside id = some v) :
    Listing (s.pinned? id).2 v start count (s.children outside id filter start count) := by
  simp only [children, hv]
  exact listing_childrenOf _ v filter start count

theorem children_parts_resolve (hkept : Kept room s) (hroom : 0 < room)
    (horderly : Orderly (s.held outside) s.made) (hv : s.resolve? outside id = some v)
    (htable : v.isTable = false) {row : Variable}
    (hlength : (s.children outside id filter start count).1.length ≤ room)
    (hrow : row ∈ (s.children outside id filter start count).1) (hreference : row.reference ≠ 0)
    (howner : row.typeName = "table" ∨ Owned s outside id
      ((s.children outside id filter start count).1.countP (·.typeName = "table")) v) :
    ((s.children outside id filter start count).2.resolve? outside row.reference).isSome = true := by
  obtain ⟨i, hid, hi⟩ := Option.bind_eq_some_iff.mp hv
  obtain ⟨hwithin, rfl⟩ := Value.within_of_holding hi
  have hlisting : Listing _ v start count _ := listing_children filter hv
  generalize s.children outside id filter start count = r at *
  cases hlisting with
  | nothing => contradiction
  | table hshape =>
    rw [Value.isTable_of_shape hshape] at htable
    contradiction
  | @parts xs _ hxs =>
    rw [(rows_typeName (s.pinned? id).2 xs).length_eq] at hlength
    exact parts_resolve hkept hroom horderly hid hwithin hxs hlength hrow hreference howner

theorem children_table_resolve (hkept : Kept room s) (horderly : Orderly (s.held outside) s.made)
    (hv : s.resolve? outside id = some v) {columns : List String} {rows : List (List Value)}
    (hshape : v.shape = .table columns rows) {k : Nat} {row : Variable}
    (hrow : (s.children outside id filter start count).1[k]? = some row)
    (hreference : row.reference ≠ 0) :
    ((s.children outside id filter start count).2.resolve? outside row.reference).isSome = true ↔
      rows.length ≤ start.getD 0 + k + room := by
  obtain ⟨i, _, hi⟩ := Option.bind_eq_some_iff.mp hv
  obtain ⟨hwithin, rfl⟩ := Value.within_of_holding hi
  have hlisting : Listing _ v start count _ := listing_children filter hv
  generalize s.children outside id filter start count = r at *
  cases hlisting with
  | nothing => contradiction
  | parts htable =>
    rw [Value.isTable_of_shape hshape] at htable
    contradiction
  | @table columns' rows' hshape' =>
    obtain ⟨rfl, rfl⟩ : columns = columns' ∧ rows = rows' := by
      simpa using hshape.symm.trans hshape'
    have hheld := (look_spec hkept id).2.1 outside
    have hin : Inhabits ((s.pinned? id).2.held outside) (s.pinned? id).2 := by
      rw [hheld]
      exact .look hkept horderly id
    exact table_resolve (hkept.look id) hin (hheld.symm ▸ hwithin) hshape k row hrow hreference

end

/-- A row of a table can be expanded exactly if there is room for the rows from there on. Where another
value is listed, a row for a table can be expanded in any case, and any other row if what owns it
lasts. -/
theorem children_resolve (capacity : Nat) (actions : List Action) (outside : List Value) (id : Nat)
    (filter : ChildFilter) (start count : Option Nat) :
    let s := (new capacity none).run actions
    let room := max capacity 1
    let r := s.children outside id filter start count
    Orderly (s.held outside) s.made → ∀ v, s.resolve? outside id = some v →
      ∀ (k : Nat) (row : Variable), r.1[k]? = some row → row.reference ≠ 0 →
        (v.isTable = false → r.1.length ≤ room → row.typeName = "table" ∨
            Owned s outside id (r.1.countP (·.typeName = "table")) v →
          (r.2.resolve? outside row.reference).isSome = true) ∧
        (∀ columns rows, v.shape = .table columns rows →
          ((r.2.resolve? outside row.reference).isSome = true ↔
            rows.length ≤ start.getD 0 + k + room)) := by
  intro s room r horderly v hv k row hrow hreference
  have hkept : Kept room s := kept_run capacity actions
  refine ⟨fun htable hlength howner => ?_, fun columns rows hshape => ?_⟩
  · exact children_parts_resolve hkept (by omega) horderly hv htable hlength
      (List.mem_of_getElem? hrow) hreference howner
  · exact children_table_resolve hkept horderly hv hshape hrow hreference

/-! A table of two rows, and an array of an array and that table. -/

def cell (n : Nat) : Value := .mk (.first 1 n) none .null

def twoRows : Value := .mk (.first 1 0) none (.table ["a"] [[cell 1], [cell 2]])

def arrayAndTable : Value :=
  .mk (.first 1 3) none (.array [.mk (.first 1 4) none (.array [cell 1]), twoRows])

theorem orderly_arrayAndTable : Orderly [arrayAndTable] 0 := by
  refine Value.orderly_of_listed [arrayAndTable, .mk (.first 1 4) none (.array [cell 1]), twoRows,
    cell 1, cell 2] ?_ (by decide) (by decide)
  simp [Value.within_cons_iff, Value.not_within_nil, arrayAndTable, twoRows, cell, Value.parts,
    Value.shape, Shape.parts]

theorem orderly_twoRows : Orderly [twoRows] 0 := by
  refine Value.orderly_of_listed [twoRows, cell 1, cell 2] ?_ (by decide) (by decide)
  simp [Value.within_cons_iff, Value.not_within_nil, twoRows, cell, Value.parts, Value.shape,
    Shape.parts]

theorem resolve?_twoRows :
    ((new 1 none).run [.register twoRows]).resolve? [twoRows] 1 = some twoRows :=
  orderly_twoRows.coherent.holding_eq (.held (List.mem_singleton.mpr rfl))

theorem children_resolve_arrayAndTable :
    (∃ items t,
      let r := ((new 2 none).run [.pin arrayAndTable]).children [] 1 .all none none
      r.1 = [items, t] ∧ (r.2.resolve? [] items.reference).isSome = true ∧
        (r.2.resolve? [] t.reference).isSome = true) ∧
    ∃ last,
      let r := ((new 1 none).run [.register twoRows]).children [twoRows] 1 .all (some 1) none
      r.1 = [last] ∧ (r.2.resolve? [twoRows] last.reference).isSome = true := by
  have hpinned : ((new 2 none).run [.pin arrayAndTable]).resolve? [] 1 = some arrayAndTable :=
    orderly_arrayAndTable.coherent.holding_eq (.held (List.mem_singleton.mpr rfl))
  have hrows := children_resolve 2 [.pin arrayAndTable] [] 1 .all none none orderly_arrayAndTable
    arrayAndTable hpinned
  have hlast := children_resolve 1 [.register twoRows] [twoRows] 1 .all (some 1) none orderly_twoRows
    twoRows resolve?_twoRows
  simp only [children, hpinned, resolve?_twoRows] at hrows hlast ⊢
  refine ⟨⟨_, _, rfl, ?_, ?_⟩, _, rfl, ?_⟩
  · exact (hrows 0 _ rfl (by decide)).1 rfl (by decide) (Or.inr (.pinned rfl))
  · exact (hrows 1 _ rfl (by decide)).1 rfl (by decide) (Or.inl rfl)
  · exact ((hlast 0 _ rfl (by decide)).2 _ _ rfl).mpr (by decide)

/-- There is room for the one row that is shown, but not for the row that is pinned after it. -/
theorem exists_row_without_children :
    ∃ first,
      let r := ((new 1 none).run [.register twoRows]).children [twoRows] 1 .all none (some 1)
      r.1 = [first] ∧ first.reference ≠ 0 ∧ r.2.resolve? [twoRows] first.reference = none := by
  have hrow := @children_table_resolve 1 _ [twoRows] 1 twoRows .all none (some 1)
    (kept_run 1 [.register twoRows]) orderly_twoRows resolve?_twoRows _ _ rfl 0
  simp only [children, resolve?_twoRows] at hrow ⊢
  refine ⟨_, rfl, by decide, ?_⟩
  rw [← Option.not_isSome_iff_eq_none, hrow rfl (by decide)]
  decide

end DebugAdapter.Inspector
