import DebugAdapter.Value.PinCache
import Mathlib.Data.List.DropRight
import Mathlib.Data.List.Nodup

/-!
# Which pins last

The order of a cache has the keys of its entries, from the least to the most recently used. Whatever
is dropped for want of room is dropped from its front (`put_spec`), so an entry lasts as long as fewer
others than there is room for have been used after it (`Recent`).
-/

namespace DebugAdapter

namespace Table
variable {κ α : Type} [DecidableEq κ]

theorem mem_keys {t : Table κ α} {k : κ} : k ∈ t.keys ↔ ∃ v, t.get? k = some v := by
  simp [keys, ← mem_iff_get?]

theorem keys_erase (t : Table κ α) (k : κ) : (t.erase k).keys = t.keys.filter (· ≠ k) := by
  simp only [keys, erase, filter, List.filter_map]
  rfl

theorem keys_insert (t : Table κ α) (k : κ) (v : α) :
    (t.insert k v).keys = k :: t.keys.filter (· ≠ k) :=
  congrArg (k :: ·) (keys_erase t k)

end Table

namespace PinCache

section
variable {κ : Type} {l : List κ} {n : Nat}

theorem rtake_eq_self (h : l.length ≤ n) : l.rtake n = l := by
  rw [List.rtake, Nat.sub_eq_zero_of_le h, List.drop_zero]

theorem rtake_cons (k : κ) (h : n ≤ l.length) : (k :: l).rtake n = l.rtake n := by
  rw [List.rtake, List.rtake, List.length_cons, Nat.succ_sub h, List.drop_succ_cons]

theorem length_rtake (l : List κ) (n : Nat) : (l.rtake n).length = min l.length n := by
  rw [List.rtake, List.length_drop]
  omega

/-- What is at the end of a list is among its last elements, as far as these reach. -/
theorem suffix_rtake {s : List κ} (h : s <:+ l) (hs : s.length ≤ n) : s <:+ l.rtake n := by
  refine List.suffix_of_suffix_length_le h (List.drop_suffix _ _) ?_
  rw [length_rtake]
  exact Nat.le_min.mpr ⟨h.length_le, hs⟩

theorem rtake_rtake_append (l m : List κ) (n : Nat) :
    (l.rtake n ++ m).rtake n = (l ++ m).rtake n := by
  have hsuffix : (l.rtake n ++ m).rtake n <:+ l ++ m :=
    (List.drop_suffix _ _).trans
      ((List.suffix_append_inj_of_length_eq rfl).mpr ⟨List.drop_suffix _ _, rfl⟩)
  refine (suffix_rtake hsuffix ?_).eq_of_length ?_
  · rw [length_rtake]
    exact Nat.min_le_right _ _
  · simp only [length_rtake, List.length_append]
    omega

/-- Of elements that occur once, the last ones are those whose index says so. -/
theorem mem_rtake_iff (hl : l.Nodup) {i : Nat} {x : κ} (hx : l[i]? = some x) :
    x ∈ l.rtake n ↔ l.length ≤ i + n := by
  have hi : i < l.length := (List.getElem?_eq_some_iff.mp hx).1
  rw [List.rtake, List.mem_iff_getElem?]
  simp only [List.getElem?_drop]
  constructor
  · rintro ⟨j, hj⟩
    have hsame := (List.getElem?_inj hi hl).mp (hx.trans hj.symm)
    omega
  · intro hlength
    refine ⟨i - (l.length - n), ?_⟩
    rw [Nat.add_sub_cancel' (by omega)]
    exact hx

end

variable {κ α : Type} [DecidableEq κ]

/-- Dropping entries until the rest fits leaves the most recently used ones. -/
theorem evict_spec (capacity : Nat) {order : List κ} {entries : Table κ (Pin α)}
    (h : order.Perm entries.keys) :
    (evict capacity order entries).1 = order.rtake capacity ∧
      (order.rtake capacity).Perm (evict capacity order entries).2.keys ∧
      ∀ k ∈ order.rtake capacity,
        (evict capacity order entries).2.get? k = entries.get? k := by
  induction order generalizing entries with
  | nil => exact ⟨by simp [evict], by simpa [evict] using h, by simp⟩
  | cons k order ih =>
    have hsize : entries.size = order.length + 1 := by
      rw [← List.length_cons, h.length_eq]
      simp [Table.size, Table.keys]
    by_cases hfull : capacity < entries.size
    · have hk : k ∉ order := (List.nodup_cons.mp (h.nodup_iff.mpr entries.nodup)).1
      have hrest : order.Perm (entries.erase k).keys := by
        have hothers : order.filter (· ≠ k) = order :=
          List.filter_eq_self.mpr fun x hx => decide_eq_true (ne_of_mem_of_not_mem hx hk)
        have hfilter := h.filter (· ≠ k)
        rw [List.filter_cons_of_neg (by simp), hothers, ← Table.keys_erase] at hfilter
        exact hfilter
      obtain ⟨horder, hkeys, hget⟩ := ih hrest
      simp only [evict, if_pos hfull]
      rw [rtake_cons k (by omega)]
      refine ⟨horder, hkeys, fun x hx => (hget x hx).trans ?_⟩
      rw [Table.get?_erase, if_neg (ne_of_mem_of_not_mem (List.drop_subset _ _ hx) hk)]
    · simp only [evict, if_neg hfull]
      rw [rtake_eq_self (by simp; omega)]
      exact ⟨rfl, h, fun _ _ => trivial⟩

/-- The order has the keys of the entries, and there is room for them. -/
structure Sound (c : PinCache κ α) : Prop where
  order : c.order.Perm c.entries.keys
  size : c.order.length ≤ c.capacity

omit [DecidableEq κ] in
theorem sound_new (capacity : Nat) (lifetime : Option Nat) :
    Sound (new capacity lifetime : PinCache κ α) :=
  ⟨.refl [], Nat.zero_le _⟩

omit [DecidableEq κ] in
theorem sound_clear (c : PinCache κ α) : Sound c.clear := ⟨.refl [], Nat.zero_le _⟩

variable {c : PinCache κ α} {k x : κ} {v : α} {now n : Nat} {p : Pin α}

theorem Sound.mem_order_iff (h : Sound c) : k ∈ c.order ↔ ∃ p, c.entries.get? k = some p :=
  h.order.mem_iff.trans Table.mem_keys

omit [DecidableEq κ] in
theorem Sound.nodup_order (h : Sound c) : c.order.Nodup := h.order.nodup_iff.mpr c.entries.nodup

/-- A key that is moved to the end of the order stays the only one of its kind. -/
theorem Sound.perm_touched (h : Sound c) (hk : c.entries.get? k = some p) :
    (c.order.filter (· ≠ k) ++ [k]).Perm c.order := by
  have hmem : k ∈ c.order := h.mem_order_iff.mpr ⟨p, hk⟩
  have herase : c.order.filter (· ≠ k) = c.order.erase k := by
    rw [h.nodup_order.erase_eq_filter]
    exact List.filter_congr fun x _ => (Bool.eq_iff_iff.mpr (by simp))
  rw [herase]
  exact (List.perm_append_singleton _ _).trans (List.perm_cons_erase hmem).symm

/-! ## Putting -/

theorem put_spec (h : Sound c) (k : κ) (v : α) (now : Nat) :
    Sound (c.put k v now) ∧
      (c.put k v now).order = (c.order.filter (· ≠ k) ++ [k]).rtake c.capacity ∧
      ∀ x ∈ (c.put k v now).order, (c.put k v now).entries.get? x =
        if x = k then some ⟨v, now⟩ else c.entries.get? x := by
  have hkeys : (c.order.filter (· ≠ k) ++ [k]).Perm (c.entries.insert k ⟨v, now⟩).keys := by
    rw [Table.keys_insert]
    exact (List.perm_append_singleton _ _).trans ((h.order.filter _).cons k)
  obtain ⟨horder, hperm, hget⟩ := evict_spec c.capacity hkeys
  have hput : (c.put k v now).order = (c.order.filter (· ≠ k) ++ [k]).rtake c.capacity := horder
  refine ⟨⟨hput ▸ hperm, ?_⟩, hput, fun x hx => ?_⟩
  · rw [hput]
    exact (length_rtake _ _).trans_le (Nat.min_le_right _ _)
  · exact (hget x (hput ▸ hx)).trans (Table.get?_insert _ _ _ _)

/-- What is there after a put was put or was there. -/
theorem get?_put (h : Sound c) (hx : (c.put k v now).entries.get? x = some p) :
    x = k ∧ p = ⟨v, now⟩ ∨ x ≠ k ∧ c.entries.get? x = some p := by
  obtain ⟨hsound, _, hget⟩ := put_spec h k v now
  rw [hget x (hsound.mem_order_iff.mpr ⟨p, hx⟩)] at hx
  split at hx
  · exact Or.inl ⟨‹_›, (Option.some.inj hx).symm⟩
  · exact Or.inr ⟨‹_›, hx⟩

/-- The entry is there, and fewer than `n` have been used since. -/
structure Recent (c : PinCache κ α) (n : Nat) (k : κ) (p : Pin α) : Prop where
  entry : c.entries.get? k = some p
  order : ∃ newer, (k :: newer) <:+ c.order ∧ newer.length < n

theorem recent_put_self (h : Sound c) (hroom : 0 < c.capacity) :
    Recent (c.put k v now) 1 k ⟨v, now⟩ := by
  obtain ⟨_, horder, hget⟩ := put_spec h k v now
  have hlast : [k] <:+ (c.put k v now).order := by
    rw [horder]
    exact suffix_rtake (List.suffix_append _ _) hroom
  have hk := hget k (hlast.subset (List.mem_singleton.mpr rfl))
  rw [if_pos rfl] at hk
  exact ⟨hk, [], hlast, Nat.one_pos⟩

theorem Recent.put (hr : Recent c n x p) (h : Sound c) (hx : x ≠ k) (hroom : n + 1 ≤ c.capacity) :
    Recent (c.put k v now) (n + 1) x p := by
  obtain ⟨hentry, newer, hnewer, hlength⟩ := hr
  obtain ⟨_, horder, hget⟩ := put_spec h k v now
  have hfilter : x :: newer.filter (· ≠ k) <:+ c.order.filter (· ≠ k) := by
    have hsuffix := hnewer.filter (· ≠ k)
    rwa [List.filter_cons_of_pos (by simpa using hx)] at hsuffix
  have hless : (newer.filter (· ≠ k)).length ≤ newer.length := List.length_filter_le _ _
  have hlast : x :: (newer.filter (· ≠ k) ++ [k]) <:+ (c.put k v now).order := by
    rw [horder]
    refine suffix_rtake ?_ ?_
    · obtain ⟨older, holder⟩ := hfilter
      exact ⟨older, by rw [← holder, List.append_assoc, List.cons_append]⟩
    · simp only [List.length_cons, List.length_append, List.length_nil]
      omega
  have hmem := hlast.subset List.mem_cons_self
  refine ⟨by rw [hget x hmem, if_neg hx, hentry], _, hlast, ?_⟩
  simp only [List.length_append, List.length_cons, List.length_nil]
  omega

theorem Recent.mono {m : Nat} (hr : Recent c n k p) (hm : n ≤ m) : Recent c m k p := by
  obtain ⟨hentry, newer, hnewer, hlength⟩ := hr
  exact ⟨hentry, newer, hnewer, Nat.lt_of_lt_of_le hlength hm⟩

/-! ## Entries that do not age -/

/-- A lookup changes nothing but the order: what is found is the most recently used then. -/
theorem get_spec (h : Sound c) (hlifetime : c.lifetime = none) (k : κ) (now : Nat) :
    Sound (c.get k now).2 ∧ (c.get k now).2.entries = c.entries ∧
      ∀ p, c.entries.get? k = some p →
        (c.get k now).1 = some p.value ∧ Recent (c.get k now).2 1 k p := by
  cases hk : c.entries.get? k with
  | none => simp [get, hk, h]
  | some p =>
    have hyoung : c.expired now p = false := by simp [expired, hlifetime]
    have hperm := h.perm_touched hk
    simp only [get, hk, hyoung, Bool.false_eq_true, if_false]
    refine ⟨⟨hperm.trans h.order, hperm.length_eq.trans_le h.size⟩, trivial, ?_⟩
    rintro _ ⟨⟩
    exact ⟨rfl, hk, [], List.suffix_append _ _, Nat.one_pos⟩

theorem purge_eq_self (h : Sound c) (hlifetime : c.lifetime = none) (now : Nat) :
    (c.purge now).2 = c := by
  have hkept : (c.entries.filter fun _ p => !c.expired now p) = c.entries :=
    Table.eq_of_entries (List.filter_eq_self.mpr (by simp [expired, hlifetime]))
  have horder : c.order.filter (c.entries.contains ·) = c.order := by
    refine List.filter_eq_self.mpr fun k hk => ?_
    exact Option.isSome_iff_exists.mpr (h.mem_order_iff.mp hk)
  simp only [purge, hkept, horder]

theorem mem_values_iff {v : α} : v ∈ c.values ↔ ∃ k p, c.entries.get? k = some p ∧ p.value = v := by
  simp only [values, List.mem_map, Table.mem_values]
  constructor
  · rintro ⟨p, ⟨k, hk⟩, rfl⟩
    exact ⟨k, p, hk, rfl⟩
  · rintro ⟨k, p, hk, rfl⟩
    exact ⟨p, ⟨k, hk⟩, rfl⟩

end PinCache

end DebugAdapter
