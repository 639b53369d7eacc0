/-!
# Tables

A finite map as a list of entries whose keys are distinct.
-/

namespace DebugAdapter

theorem optionFilter_eq_self {α : Type} {p : α → Bool} {o : Option α}
    (h : ∀ a, o = some a → p a = true) : o.filter p = o := by
  cases o with
  | none => rfl
  | some a => exact Option.filter_some_pos (h a rfl)

structure Table (κ α : Type) where
  entries : List (κ × α)
  nodup : (entries.map (·.1)).Nodup

namespace Table

variable {κ α : Type}

def empty : Table κ α := ⟨[], List.nodup_nil⟩

instance : EmptyCollection (Table κ α) := ⟨empty⟩

instance : Inhabited (Table κ α) := ⟨empty⟩

def isEmpty (t : Table κ α) : Bool := t.entries.isEmpty

def size (t : Table κ α) : Nat := t.entries.length

def keys (t : Table κ α) : List κ := t.entries.map (·.1)

def values (t : Table κ α) : List α := t.entries.map (·.2)

/-- The entries that satisfy `p`. -/
def filter (p : κ → α → Bool) (t : Table κ α) : Table κ α :=
  ⟨t.entries.filter fun e => p e.1 e.2, t.nodup.sublist (List.filter_sublist.map _)⟩

@[simp] theorem isEmpty_empty : (∅ : Table κ α).isEmpty = true := rfl

@[simp] theorem values_empty : (∅ : Table κ α).values = [] := rfl

theorem eq_of_entries {t u : Table κ α} (h : t.entries = u.entries) : t = u := by
  cases t
  cases u
  cases h
  rfl

theorem eq_empty_of_isEmpty {t : Table κ α} (h : t.isEmpty = true) : t = ∅ :=
  eq_of_entries (List.isEmpty_iff.mp h)

variable [DecidableEq κ]

def get? (t : Table κ α) (k : κ) : Option α := (t.entries.find? fun e => e.1 = k).map (·.2)

def contains (t : Table κ α) (k : κ) : Bool := (t.get? k).isSome

def erase (t : Table κ α) (k : κ) : Table κ α := t.filter fun x _ => decide (x ≠ k)

def insert (t : Table κ α) (k : κ) (v : α) : Table κ α where
  entries := (k, v) :: (t.erase k).entries
  nodup := by
    refine List.nodup_cons.2 ⟨?_, (t.erase k).nodup⟩
    simp [erase, filter]

theorem mem_iff_get? {t : Table κ α} {k : κ} {v : α} :
    (k, v) ∈ t.entries ↔ t.get? k = some v := by
  obtain ⟨entries, nodup⟩ := t
  simp only [get?]
  induction entries with
  | nil => simp
  | cons e rest ih =>
    obtain ⟨a, b⟩ := e
    rw [List.map_cons, List.nodup_cons] at nodup
    by_cases h : a = k
    · subst h
      have absent : (a, v) ∉ rest := fun m => nodup.1 (List.mem_map_of_mem (f := (·.1)) m)
      simp [absent, eq_comm]
    · have h' : ¬k = a := fun e => h e.symm
      simp [h, h', ih nodup.2]

@[simp] theorem get?_empty (k : κ) : (∅ : Table κ α).get? k = none := rfl

theorem get?_erase (t : Table κ α) (k x : κ) :
    (t.erase k).get? x = if x = k then none else t.get? x := by
  obtain ⟨entries, nodup⟩ := t
  simp only [get?, erase, filter, List.find?_filter]
  clear nodup
  induction entries with
  | nil => simp
  | cons e rest ih => by_cases h : e.1 = x <;> by_cases h' : x = k <;> simp_all

theorem get?_filter (p : κ → α → Bool) (t : Table κ α) (x : κ) :
    (t.filter p).get? x = (t.get? x).filter (p x) := by
  ext v
  rw [← mem_iff_get?, Option.filter_eq_some_iff, ← mem_iff_get?]
  exact List.mem_filter

theorem filter_eq_self {p : κ → α → Bool} {t : Table κ α}
    (h : ∀ k v, t.get? k = some v → p k v = true) : t.filter p = t := by
  apply eq_of_entries
  refine List.filter_eq_self.mpr ?_
  intro e he
  exact h e.1 e.2 (mem_iff_get?.mp he)

theorem get?_insert (t : Table κ α) (k : κ) (v : α) (x : κ) :
    (t.insert k v).get? x = if x = k then some v else t.get? x := by
  by_cases h : x = k
  · simp [get?, insert, h]
  · have : ¬k = x := fun e => h e.symm
    have other := get?_erase t k x
    simp only [get?, insert, List.find?_cons] at other ⊢
    simp [this, h, other]

theorem isEmpty_iff {t : Table κ α} : t.isEmpty = true ↔ ∀ k, t.get? k = none := by
  obtain ⟨entries, nodup⟩ := t
  cases entries with
  | nil => simp [isEmpty, get?]
  | cons e rest =>
    simp only [isEmpty, List.isEmpty_cons, Bool.false_eq_true, false_iff]
    intro h
    simpa [get?] using h e.1

theorem isEmpty_eq_false_iff {t : Table κ α} :
    t.isEmpty = false ↔ ∃ k v, t.get? k = some v := by
  simp only [← Bool.not_eq_true, isEmpty_iff, Classical.not_forall, Option.ne_none_iff_exists',
    ← ne_eq]

@[simp] theorem contains_empty (k : κ) : (∅ : Table κ α).contains k = false := rfl

theorem erase_eq_self {t : Table κ α} {k : κ} (h : t.get? k = none) : t.erase k = t := by
  refine filter_eq_self fun x v hx => ?_
  rw [decide_eq_true_eq]
  rintro rfl
  rw [hx] at h
  contradiction

@[simp] theorem erase_empty (k : κ) : (∅ : Table κ α).erase k = ∅ := rfl

theorem mem_values {t : Table κ α} {v : α} : v ∈ t.values ↔ ∃ k, t.get? k = some v := by
  simp [values, ← mem_iff_get?]

/-- Of entries that come by their keys, each value comes by one. -/
theorem values_insert {t : Table κ α} {k : κ} (h : t.get? k = none) (v : α) :
    (t.insert k v).values = v :: t.values := by
  change v :: (t.erase k).values = v :: t.values
  rw [erase_eq_self h]

theorem values_perm_cons_erase {t : Table κ α} {k : κ} {v : α} (h : t.get? k = some v) :
    t.values.Perm (v :: (t.erase k).values) := by
  have hm := mem_iff_get?.mpr h
  obtain ⟨before, behind, hsplit⟩ := List.append_of_mem hm
  have hnodup : (((k, v) :: (before ++ behind)).map (·.1)).Nodup :=
    (List.perm_middle.map _).nodup_iff.mp (hsplit ▸ t.nodup)
  rw [List.map_cons, List.nodup_cons] at hnodup
  have hother : ∀ e ∈ before ++ behind, decide (e.1 ≠ k) = true := by
    intro e he
    rw [decide_eq_true_eq]
    rintro rfl
    exact hnodup.1 (List.mem_map_of_mem (f := (·.1)) he)
  have herase : (t.erase k).entries = before ++ behind := by
    simp only [erase, filter, hsplit, List.filter_append, List.filter_cons]
    rw [← List.filter_eq_self.mpr hother, List.filter_append]
    simp
  simp only [values, herase, hsplit, List.map_append, List.map_cons]
  exact List.perm_middle

end Table

end DebugAdapter
