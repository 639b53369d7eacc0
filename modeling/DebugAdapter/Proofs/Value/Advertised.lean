import DebugAdapter.Proofs.Value.Recency
import DebugAdapter.Proofs.Value.TableRows

/-!
# What a row advertises

A row says how many children its value has and gives a handle to list them by. The count, the handle
and the listing come about apart from each other, and for a table the handle is that of another value.

What a row shows besides its handle depends on nothing but the name and the shape of the value
(`row_unlinked`), so a listing is known as soon as it is known what its handle leads to. That needs no
more of the inspector than what every action keeps (`Ready`).
-/

namespace DebugAdapter

open Value (Within Coherent Orderly)

/-! ## Shapes -/

namespace Shape

/-- The fields of a value that is shown as a structure. -/
def fields? : Shape → Option (List (String × Value))
  | struct fields | function _ fields => some fields
  | _ => none

/-- The items of a value that is shown as an array, by what they show. -/
def items? : Shape → Option (List Shape)
  | array items => some (items.map Value.shape)
  | table columns rows => some (Inspector.rowShapes columns rows)
  | _ => none

end Shape

def Variable.unlinked (row : Variable) : Variable := { row with reference := 0 }

namespace Inspector

/-! ## Rows without handles -/

/-- What the row for a shape shows under a name, besides its handle. -/
def shownAs (name : String) (shape : Shape) : Variable :=
  { ((new 1 none).row name (madeAt 0 shape)).1 with name, reference := 0 }

theorem row_unlinked (s : Inspector) (name : String) (v : Value) :
    (s.row name v).1.unlinked = shownAs name v.shape := by
  obtain ⟨_, _, shape⟩ := v
  cases shape <;> rfl

theorem rows_unlinked (s : Inspector) (xs : List (String × Value)) :
    (s.rows xs).1.map Variable.unlinked = xs.map fun x => shownAs x.1 x.2.shape := by
  induction xs generalizing s with
  | nil => rfl
  | cons x xs ih => simp only [rows, List.map_cons, row_unlinked, ih]

/-! ## Names in order -/

/-- Without regard to case the name comes first, or there the names agree and it is not behind. -/
def Precedes (a b : String) : Prop :=
  Text.lower a < Text.lower b ∨ Text.lower a = Text.lower b ∧ a ≤ b

instance : Std.TransCmp compareNames :=
  inferInstanceAs (Std.TransCmp (compareLex (compareOn Text.lower) compare))

theorem compareNames_isLE_iff (a b : String) : (compareNames a b).isLE = true ↔ Precedes a b := by
  have hle : (compare a b).isLE = true ↔ a ≤ b :=
    isLE_compareOfLessAndEq String.le_antisymm String.not_le String.le_total
  have hlt : compare (Text.lower a) (Text.lower b) = .lt ↔ Text.lower a < Text.lower b :=
    compareOfLessAndEq_eq_lt
  rw [compareNames, Ordering.isLE_then_iff_or, hlt, hle, Std.LawfulEqOrd.compare_eq_iff_eq, Precedes]

theorem pairwise_sortFields (fields : List (String × Value)) :
    (sortFields fields).Pairwise fun a b => Precedes a.1 b.1 := by
  have htotal : ∀ a b : String × Value,
      ((compareNames a.1 b.1).isLE || (compareNames b.1 a.1).isLE) = true := by
    intro a b
    have hswap : compareNames b.1 a.1 = (compareNames a.1 b.1).swap := Std.OrientedCmp.eq_swap
    rw [hswap]
    cases compareNames a.1 b.1 <;> rfl
  have hsorted : (sortFields fields).Pairwise fun a b => (compareNames a.1 b.1).isLE = true :=
    List.pairwise_mergeSort (fun _ _ _ => Std.TransCmp.isLE_trans) htotal fields
  exact hsorted.imp (compareNames_isLE_iff _ _).mp

/-! ## Children -/

theorem page_map {α β : Type} (start count : Option Nat) (f : α → β) (xs : List α) :
    (page start count xs).map f = page start count (xs.map f) := by
  unfold page
  split <;> simp only [List.map_take, List.map_drop]

theorem page_eq {α : Type} (start count : Option Nat) (xs : List α) :
    page start count xs = if count.getD 0 = 0 then xs.drop (start.getD 0)
      else (xs.drop (start.getD 0)).take (count.getD 0) := by
  unfold page
  split
  · rfl
  · rfl
  · exact (if_neg ‹_›).symm

theorem nameItems_shown (items : List Value) :
    (nameItems items).map (fun x => shownAs x.1 x.2.shape) =
      (items.map Value.shape).mapIdx fun i shape => shownAs ("[" ++ toString (i + 1) ++ "]") shape := by
  refine List.ext_getElem? fun i => ?_
  simp only [nameItems, List.getElem?_map, List.getElem?_mapIdx, Option.map_map]
  rfl

theorem rowValues_shape (made : Nat) (columns : List String) (rows : List (List Value)) :
    (rowValues made columns rows).map Value.shape = rowShapes columns rows := by
  refine List.ext_getElem? fun i => ?_
  simp only [rowValues, List.getElem?_map, List.getElem?_mapIdx, Option.map_map]
  exact Option.map_id'

section
variable {s : Inspector} {outside : List Value} {id : Nat} {v : Value}

/-- What is listed for a handle: fields in the order of their names, which has no pages, or a page of
items by their positions. Nothing is listed of the kind that there is none of. -/
structure Lists (s : Inspector) (outside : List Value) (id : Nat) (shape : Shape) : Prop where
  fields : ∀ fields, shape.fields? = some fields →
    ∃ sorted : List (String × Value), sorted.Perm fields ∧
      (sorted.Pairwise fun a b => Precedes a.1 b.1) ∧
      ∀ filter start count, (s.children outside id filter start count).1.map Variable.unlinked =
        if filter = .indexed then [] else sorted.map fun f => shownAs f.1 f.2.shape
  items : ∀ items, shape.items? = some items →
    let all := items.mapIdx fun i item => shownAs ("[" ++ toString (i + 1) ++ "]") item
    ∀ filter start count, (s.children outside id filter start count).1.map Variable.unlinked =
      if filter = .named then [] else
        if count.getD 0 = 0 then all.drop (start.getD 0)
        else (all.drop (start.getD 0)).take (count.getD 0)

theorem childrenOf_fields {fields : List (String × Value)} (h : v.shape.fields? = some fields)
    (filter : ChildFilter) (start count : Option Nat) :
    (s.childrenOf v filter start count).1.map Variable.unlinked =
      if filter = .indexed then [] else (sortFields fields).map fun f => shownAs f.1 f.2.shape := by
  have hshape : v.shape = .struct fields ∨ ∃ definition, v.shape = .function definition fields := by
    cases hv : v.shape <;> simp_all [Shape.fields?]
  rcases hshape with hv | ⟨definition, hv⟩ <;>
    cases filter <;> simp [childrenOf, hv, rows_unlinked]

theorem childrenOf_items {items : List Shape} (h : v.shape.items? = some items)
    (filter : ChildFilter) (start count : Option Nat) :
    (s.childrenOf v filter start count).1.map Variable.unlinked =
      if filter = .named then [] else
        page start count (items.mapIdx fun i item => shownAs ("[" ++ toString (i + 1) ++ "]") item) := by
  have hpage : ∀ (s : Inspector) (values : List Value),
      (s.rows (page start count (nameItems values))).1.map Variable.unlinked =
        page start count ((values.map Value.shape).mapIdx fun i item =>
          shownAs ("[" ++ toString (i + 1) ++ "]") item) := by
    intro s values
    rw [rows_unlinked, page_map, nameItems_shown]
  cases hv : v.shape with
  | array values =>
    obtain rfl : values.map Value.shape = items := by simpa [hv, Shape.items?] using h
    cases filter <;> simp [childrenOf, hv, hpage]
  | table columns rows =>
    obtain rfl : rowShapes columns rows = items := by simpa [hv, Shape.items?] using h
    cases filter <;> simp [childrenOf, hv, makeAll_rowShapes, hpage, rowValues_shape]
  | _ => simp [hv, Shape.items?] at h

theorem lists_of_resolve (hv : s.resolve? outside id = some v) : Lists s outside id v.shape where
  fields fields hfields := by
    refine ⟨sortFields fields, List.mergeSort_perm _ _, pairwise_sortFields fields, ?_⟩
    intro filter start count
    simp only [children, hv]
    exact childrenOf_fields hfields filter start count
  items items hitems := by
    intro all filter start count
    simp only [children, hv]
    rw [childrenOf_items hitems, page_eq]

theorem lists_of_unknown (hid : s.resolve? outside id = none) {shape : Shape}
    (hfields : shape.fields?.getD [] = []) (hitems : shape.items?.getD [] = []) :
    Lists s outside id shape where
  fields fields h := by
    obtain rfl : fields = [] := by simpa [h] using hfields
    exact ⟨[], .refl [], .nil, fun _ _ _ => by simp [children, hid]⟩
  items items h := by
    obtain rfl : items = [] := by simpa [h] using hitems
    intro all filter start count
    simp [children, hid, all]

end

theorem Lists.length_all {s : Inspector} {outside : List Value} {id n : Nat} {shape : Shape}
    (h : Lists s outside id shape) (hn : shape.fields?.map (·.length) = some n ∨
      shape.items?.map (·.length) = some n) :
    (s.children outside id .all none none).1.length = n := by
  rw [← List.length_map Variable.unlinked]
  rcases hn with hn | hn
  · obtain ⟨fields, hfields, rfl⟩ := Option.map_eq_some_iff.mp hn
    obtain ⟨sorted, hperm, _, hrows⟩ := h.fields fields hfields
    rw [hrows, if_neg (by decide), List.length_map, hperm.length_eq]
  · obtain ⟨items, hitems, rfl⟩ := Option.map_eq_some_iff.mp hn
    rw [h.items items hitems, if_neg (by decide)]
    simp

/-! ## The state of an inspector -/

/-- What every action keeps, also when pins age. -/
structure Ready (s : Inspector) : Prop where
  consistent : s.handles.Consistent
  sound : s.pins.Sound
  room : 0 < s.pins.capacity

section
variable {s : Inspector}

theorem ready_new (capacity : Nat) (lifetime : Option Nat) : Ready (new capacity lifetime) where
  consistent := Handles.consistent_new
  sound := PinCache.sound_new _ _
  room := Nat.lt_of_lt_of_le Nat.one_pos (Nat.le_max_right _ _)

theorem Ready.withHandles (h : Ready s) {handles : Handles} (hc : handles.Consistent) :
    Ready { s with handles } :=
  ⟨hc, h.sound, h.room⟩

theorem Ready.withMade (h : Ready s) (made : Nat) : Ready { s with made } :=
  ⟨h.consistent, h.sound, h.room⟩

theorem Ready.answer (h : Ready s) (now : Nat) (call : PinCache.Call Nat Value) :
    Ready { s with pins := (s.pins.answer now call).2 } where
  consistent := h.consistent
  sound := h.sound.answer now call
  room := (PinCache.answer_capacity s.pins now call).1 ▸ h.room

theorem Ready.register (h : Ready s) (v : Value) : Ready (s.register v).2 :=
  h.withHandles (Handles.consistent_register h.consistent v.identity)

theorem Ready.pin (h : Ready s) (v : Value) : Ready (s.pin v).2 :=
  (h.register v).answer s.now (.put _ v)

theorem Ready.look (h : Ready s) (id : Nat) : Ready (s.pinned? id).2 := h.answer s.now (.get id)

theorem Ready.pinAll (h : Ready s) (vs : List Value) : Ready (s.pinAll vs) := by
  induction vs generalizing s with
  | nil => exact h
  | cons v vs ih => exact ih (h.pin v)

theorem Listed.ready {v : Value} {r : Nat × Inspector} (hr : Listed s v r) (h : Ready s) :
    Ready r.2 := by
  cases hr with
  | plain => exact h
  | parts => exact h.register v
  | table => exact (h.withMade _).pin _

theorem Ready.rows (h : Ready s) (xs : List (String × Value)) : Ready (s.rows xs).2 := by
  induction xs generalizing s with
  | nil => exact h
  | cons x xs ih => exact ih ((listed_row s x.1 x.2).ready h)

theorem Ready.children (h : Ready s) (outside : List Value) (id : Nat) (filter : ChildFilter)
    (start count : Option Nat) : Ready (s.children outside id filter start count).2 := by
  unfold Inspector.children
  split
  · exact h
  · rename_i v _
    have hlisting := listing_childrenOf (s.pinned? id).2 v filter start count
    generalize (s.pinned? id).2.childrenOf v filter start count = r at hlisting
    cases hlisting with
    | nothing => exact h.look id
    | parts => exact (h.look id).rows _
    | table => exact (((h.look id).withMade _).pinAll _).rows _

theorem Ready.keep (h : Ready s) (id : Nat) (v : Value) : Ready (Debugger.keep s id v) := by
  rcases keep_cases s id v with heq | heq | ⟨_, heq⟩
  · rw [heq]
    exact h
  · rw [heq]
    exact h.look id
  · rw [heq]
    exact (h.look id).answer _ (.put id v)

theorem Ready.reclaim (h : Ready s) (outside : List Value) : Ready (s.reclaim outside).2 :=
  (h.answer s.now .purge).withHandles (Handles.without_reclaim h.consistent _).consistent

theorem Ready.after (h : Ready s) (a : Action) : Ready (s.after a) := by
  cases a with
  | register v => exact h.register v
  | pin v => exact h.pin v
  | row name v => exact (listed_row s name v).ready h
  | keep name v => exact ((listed_row s name v).ready h).keep _ v
  | exception e =>
    simp only [Inspector.after, makeException, makeAll_eq]
    exact h.withMade _
  | look id => exact h.look id
  | children outside id filter start count => exact h.children outside id filter start count
  | setPath id path => exact h.withHandles (h.consistent.setPath id path)
  | setFrame id frame => exact h.withHandles (h.consistent.setFrame id frame)
  | reclaim outside => exact h.reclaim outside
  | passTo time => exact ⟨h.consistent, h.sound, h.room⟩
  | clear => exact (h.answer s.now .clear).withHandles h.consistent.clear
  | clearHandles => exact h.withHandles h.consistent.clear
  | clearPins => exact h.answer s.now .clear

theorem ready_run (capacity : Nat) (lifetime : Option Nat) (actions : List Action) :
    Ready ((new capacity lifetime).run actions) := by
  have hnew := ready_new capacity lifetime
  unfold run
  generalize new capacity lifetime = s at hnew
  induction actions generalizing s with
  | nil => exact hnew
  | cons a actions ih => exact ih _ (hnew.after a)

end

/-! ## The handle in a row -/

/-- What a row advertises: nothing for a value without children, otherwise the value itself, or for a
table an array of its rows. -/
inductive Advertised (s : Inspector) (v : Value) : Nat × Inspector → Prop where
  | nothing (hfields : v.shape.fields?.getD [] = []) (hitems : v.shape.items?.getD [] = []) :
    Advertised s v (0, s)
  | own (hchildren : v.shape.fields?.getD [] ≠ [] ∨ v.shape.items?.getD [] ≠ []) :
    Advertised s v (s.register v)
  | table {columns : List String} {rows : List (List Value)} (hshape : v.shape = .table columns rows)
    (hrows : rows ≠ []) :
    Advertised s v ({ s with made := s.made + rows.length + 1 }.pin (tableArray s.made columns rows))

theorem advertised_reference (s : Inspector) {v : Value} {n : Nat}
    (hn : (v.shape.fields?.getD []).length + (v.shape.items?.getD []).length = n) :
    Advertised s v (s.reference v n) := by
  unfold reference
  split
  · rename_i hzero
    rw [beq_iff_eq] at hzero
    refine .nothing ?_ ?_
    · exact List.eq_nil_of_length_eq_zero (by omega)
    · exact List.eq_nil_of_length_eq_zero (by omega)
  · rename_i hsome
    rw [beq_iff_eq] at hsome
    refine .own (not_and_or.mp ?_)
    rintro ⟨hfields, hitems⟩
    simp [hfields, hitems] at hn
    omega

theorem advertised_row (s : Inspector) (name : String) (v : Value) :
    Advertised s v ((s.row name v).1.reference, (s.row name v).2) := by
  cases hshape : v.shape with
  | array items =>
    simp only [row, hshape]
    exact advertised_reference s (by simp [hshape, Shape.fields?, Shape.items?])
  | struct fields =>
    simp only [row, hshape]
    exact advertised_reference s (by simp [hshape, Shape.fields?, Shape.items?])
  | function definition fields =>
    simp only [row, hshape]
    exact advertised_reference s (by simp [hshape, Shape.fields?, Shape.items?])
  | table columns rows =>
    simp only [row, hshape, tableReference]
    split
    · rename_i hrows
      refine .nothing (by simp [hshape, Shape.fields?]) ?_
      simp [hshape, Shape.items?, rowShapes, List.isEmpty_iff.mp hrows]
    · rename_i hrows
      rw [makeAll_rowShapes]
      exact .table hshape fun hnil => hrows (List.isEmpty_iff.mpr hnil)
  | _ =>
    simp only [row, hshape]
    exact .nothing (by simp [hshape, Shape.fields?]) (by simp [hshape, Shape.items?])

theorem row_counts (s : Inspector) (name : String) (v : Value) :
    (s.row name v).1.named = v.shape.fields?.map (·.length) ∧
      (s.row name v).1.indexed = v.shape.items?.map (·.length) := by
  obtain ⟨_, _, shape⟩ := v
  cases shape <;> simp [row, Value.shape, Shape.fields?, Shape.items?, rowShapes]

section
variable {s : Inspector} {outside : List Value} {v : Value}

theorem resolve?_register (h : Ready s) (hcoherent : Coherent (s.held outside))
    (hv : Within (s.held outside) v) :
    (s.register v).2.resolve? outside (s.register v).1 = some v :=
  Option.bind_eq_some_iff.mpr
    ⟨v.identity, Handles.get?_register_self h.consistent v.identity, hcoherent.holding_eq hv⟩

theorem resolve?_zero (h : Ready s) : s.resolve? outside 0 = none := by
  have hzero : s.handles.byId.get? 0 = none :=
    Option.eq_none_iff_forall_ne_some.mpr fun i hi =>
      Nat.lt_irrefl 0 (h.consistent.numbered 0 i hi).1
  simp only [resolve?, Handles.resolve?, hzero, Option.bind_none]

theorem held_pin_subset (h : Ready s) : (s.pin v).2.held outside ⊆ v :: s.held outside := by
  intro u hu
  rcases List.mem_append.mp hu with hu | hu
  · exact List.mem_cons_of_mem _ (List.mem_append_left _ hu)
  · obtain ⟨id, p, hp, rfl⟩ := PinCache.mem_values_iff.mp hu
    rcases PinCache.get?_put h.sound hp with ⟨_, rfl⟩ | ⟨_, hp⟩
    · exact List.mem_cons_self
    · exact List.mem_cons_of_mem _ (mem_held_of_entry hp)

theorem resolve?_pin (h : Ready s) (hcoherent : Coherent (v :: s.held outside)) :
    (s.pin v).2.resolve? outside (s.pin v).1 = some v := by
  have hpinned : (s.pin v).2.pins.entries.get? (s.pin v).1 = some ⟨v, s.now⟩ :=
    (PinCache.recent_put_self h.sound h.room).entry
  -- Whatever went for want of room, the new pin holds its value.
  have hheld : v ∈ (s.pin v).2.held outside := mem_held_of_entry hpinned
  have hcoherent' : Coherent ((s.pin v).2.held outside) := fun x y hx hy =>
    hcoherent x y (hx.mono (held_pin_subset h)) (hy.mono (held_pin_subset h))
  exact Option.bind_eq_some_iff.mpr
    ⟨v.identity, Handles.get?_register_self h.consistent v.identity, hcoherent'.holding_eq (.held hheld)⟩

theorem Lists.of_eq {id : Nat} {shape shape' : Shape} (h : Lists s outside id shape)
    (hfields : shape'.fields? = shape.fields?) (hitems : shape'.items? = shape.items?) :
    Lists s outside id shape' :=
  ⟨fun fields hf => h.fields fields (hfields ▸ hf), fun items hi => h.items items (hitems ▸ hi)⟩

theorem tableArray_shape (made : Nat) (columns : List String) (rows : List (List Value)) :
    (tableArray made columns rows).shape.items? = some (rowShapes columns rows) :=
  congrArg some (rowValues_shape made columns rows)

theorem Advertised.lists {r : Nat × Inspector} (hr : Advertised s v r) (h : Ready s)
    (horderly : Orderly (s.held outside) s.made) (hv : Within (s.held outside) v) :
    (r.1 = 0 ↔ v.shape.fields?.getD [] = [] ∧ v.shape.items?.getD [] = []) ∧
      Lists r.2 outside r.1 v.shape := by
  cases hr with
  | nothing hfields hitems =>
    exact ⟨iff_of_true rfl ⟨hfields, hitems⟩, lists_of_unknown (resolve?_zero h) hfields hitems⟩
  | own hchildren =>
    have hid := (Handles.register_numbered h.consistent v.identity).1
    refine ⟨iff_of_false (Nat.ne_of_gt hid) (not_and_or.mpr hchildren), ?_⟩
    exact lists_of_resolve (resolve?_register h horderly.coherent hv)
  | @table columns rows hshape hrows =>
    -- The handle is that of the array, whose items show what the table does.
    have hready := h.withMade (s.made + rows.length + 1)
    have hid := (Handles.register_numbered h.consistent
      (tableArray s.made columns rows).identity).1
    have hcells : ∀ w ∈ rows.flatten, Within (s.held outside) w := by
      intro w hw
      refine .part hv ?_
      simpa only [Value.parts, hshape, Shape.parts] using hw
    have hcoherent : Coherent (tableArray s.made columns rows :: s.held outside) :=
      ((horderly.tableArray columns hcells).mono
        (List.cons_subset_cons _ (List.subset_append_right _ _))).coherent
    refine ⟨iff_of_false (Nat.ne_of_gt hid) fun hnone => hrows ?_, ?_⟩
    · simpa [hshape, Shape.items?, rowShapes] using hnone.2
    · refine (lists_of_resolve (resolve?_pin hready hcoherent)).of_eq ?_ ?_
      · rw [hshape]
        rfl
      · rw [hshape, tableArray_shape]
        rfl

end

/-- Of whatever an inspector shows, also when pins age and whoever holds it: a row has a handle exactly
if there are children, it tells their number, and under the handle they are listed at once, as they are
under any other handle that leads somewhere. -/
theorem row_advertises (capacity : Nat) (lifetime : Option Nat) (actions : List Action)
    (outside : List Value) (name : String) (v : Value) :
    let s := (new capacity lifetime).run actions
    let r := s.row name v
    Orderly (s.held outside) s.made → Within (s.held outside) v →
      (r.1.reference = 0 ↔ v.shape.fields?.getD [] = [] ∧ v.shape.items?.getD [] = []) ∧
      r.1.named = v.shape.fields?.map (·.length) ∧
      r.1.indexed = v.shape.items?.map (·.length) ∧
      (∀ n, r.1.named = some n ∨ r.1.indexed = some n →
        (r.2.children outside r.1.reference .all none none).1.length = n) ∧
      Lists r.2 outside r.1.reference v.shape ∧
      ∀ id w, s.resolve? outside id = some w → Lists s outside id w.shape := by
  intro s r horderly hv
  obtain ⟨hreference, hlists⟩ :=
    (advertised_row s name v).lists (ready_run capacity lifetime actions) horderly hv
  obtain ⟨hnamed, hindexed⟩ := row_counts s name v
  refine ⟨hreference, hnamed, hindexed, fun n hn => ?_, hlists, fun _ _ => lists_of_resolve⟩
  rw [hnamed, hindexed] at hn
  exact hlists.length_all hn

/-- A pinned array that holds a table is dropped for the rows of the table, which are listed then. -/
theorem row_advertises_twoRows :
    let s := (new 1 (some 0)).run [.pin arrayAndTable]
    let r := s.row "t" twoRows
    r.1.indexed = some 2 ∧ r.1.reference ≠ 0 ∧
      (r.2.children [] r.1.reference .all none none).1.length = 2 ∧
      (r.2.children [] r.1.reference .indexed (some 1) none).1.map Variable.unlinked =
        [⟨"[2]", "\x7b\x7d (1 members)", "struct", 0, some 1, none⟩] := by
  have htable : Within [arrayAndTable] twoRows :=
    .part (.held (List.mem_singleton.mpr rfl)) (List.mem_cons_of_mem _ List.mem_cons_self)
  obtain ⟨hreference, _, hindexed, hall, hlists, _⟩ :=
    row_advertises 1 (some 0) [.pin arrayAndTable] [] "t" twoRows orderly_arrayAndTable htable
  refine ⟨hindexed, ?_, hall 2 (Or.inr hindexed), hlists.items _ rfl .indexed (some 1) none⟩
  rw [ne_eq, hreference]
  exact fun hnone => absurd hnone.2 (by decide)

end Inspector

end DebugAdapter
