import DebugAdapter.Proofs.Value.Pins
import Mathlib.Data.Finset.Card

/-!
# Uses of pins

What a request does to the pins is to put some and to find some (`Use`), one after the other.  An
entry lasts while fewer others than there is room for are used after it: of the keys in the order
behind its own there are no more than have been used since (`Newest`).
-/

namespace DebugAdapter.PinCache

/-- A value is put, or an entry is found. -/
inductive Use (κ α : Type) where
  | put (k : κ) (v : α)
  | hit (k : κ)

variable {κ α : Type} [DecidableEq κ]

def Use.key : Use κ α → κ
  | .put k _ | .hit k => k

def use (c : PinCache κ α) (now : Nat) : Use κ α → PinCache κ α
  | .put k v => c.put k v now
  | .hit k => (c.get k now).2

def useAll (c : PinCache κ α) (now : Nat) (us : List (Use κ α)) : PinCache κ α :=
  us.foldl (·.use now) c

/-- The keys that are used besides one. -/
def usedBesides (k : κ) (us : List (Use κ α)) : Finset κ := (us.map Use.key).toFinset.erase k

theorem useAll_append (c : PinCache κ α) (now : Nat) (us us' : List (Use κ α)) :
    c.useAll now (us ++ us') = (c.useAll now us).useAll now us' := List.foldl_append

theorem usedBesides_append (k : κ) (us us' : List (Use κ α)) :
    usedBesides k (us ++ us') = usedBesides k us ∪ usedBesides k us' := by
  rw [usedBesides, List.map_append, List.toFinset_append, Finset.erase_union_distrib]
  rfl

/-- The order has the keys of the entries, there is room for so many, and they do not age. -/
structure Ageless (room : Nat) (c : PinCache κ α) : Prop where
  sound : c.Sound
  lifetime : c.lifetime = none
  capacity : c.capacity = room

section
variable {room : Nat} {c : PinCache κ α} {k x : κ} {v w : α} {now : Nat} {p : Pin α} {u : Use κ α}
  {us : List (Use κ α)} {seen : Finset κ}

omit [DecidableEq κ] in
theorem ageless_new (capacity : Nat) :
    Ageless (max capacity 1) (new capacity none : PinCache κ α) :=
  ⟨sound_new _ _, rfl, rfl⟩

omit [DecidableEq κ] in
theorem Ageless.clear (h : Ageless room c) : Ageless room c.clear :=
  ⟨sound_clear c, h.lifetime, h.capacity⟩

theorem Ageless.get_eq (h : Ageless room c) (k : κ) (now : Nat) :
    c.get k now = match c.entries.get? k with
      | none => (none, c)
      | some p => (some p.value, { c with order := c.order.filter (· ≠ k) ++ [k] }) := by
  cases hk : c.entries.get? k with
  | none => simp [get, hk]
  | some p => simp [get, hk, expired, h.lifetime]

theorem Ageless.use (h : Ageless room c) (now : Nat) (u : Use κ α) :
    Ageless room (c.use now u) := by
  cases u with
  | put k v => exact ⟨(put_spec h.sound k v now).1, h.lifetime, h.capacity⟩
  | hit k =>
    refine ⟨(get_spec h.sound h.lifetime k now).1, ?_, ?_⟩
    · rw [PinCache.use, h.get_eq]
      split <;> exact h.lifetime
    · rw [PinCache.use, h.get_eq]
      split <;> exact h.capacity

theorem Ageless.useAll (h : Ageless room c) (now : Nat) (us : List (Use κ α)) :
    Ageless room (c.useAll now us) := by
  induction us generalizing c with
  | nil => exact h
  | cons u us ih => exact ih (h.use now u)

/-- An entry was there, or it is one that was put. -/
theorem Ageless.get?_use (h : Ageless room c) (hx : (c.use now u).entries.get? x = some p) :
    u = .put x p.value ∨ c.entries.get? x = some p := by
  cases u with
  | put k v =>
    rcases get?_put h.sound hx with ⟨rfl, rfl⟩ | ⟨_, hx⟩
    · exact Or.inl rfl
    · exact Or.inr hx
  | hit k =>
    rw [PinCache.use, (get_spec h.sound h.lifetime k now).2.1] at hx
    exact Or.inr hx

theorem Ageless.get?_useAll (h : Ageless room c)
    (hx : (c.useAll now us).entries.get? x = some p) :
    .put x p.value ∈ us ∨ c.entries.get? x = some p := by
  induction us generalizing c with
  | nil => exact Or.inr hx
  | cons u us ih =>
    rcases ih (h.use now u) hx with hput | hx
    · exact Or.inl (List.mem_cons_of_mem _ hput)
    · refine (h.get?_use hx).imp_left fun hu => ?_
      rw [hu]
      exact List.mem_cons_self

/-! ## How long an entry lasts -/

/-- The value is there, and behind its key come only keys that have been seen. -/
structure Newest (c : PinCache κ α) (k : κ) (v : α) (seen : Finset κ) : Prop where
  entry : ∃ p, c.entries.get? k = some p ∧ p.value = v
  order : ∃ newer, (k :: newer) <:+ c.order ∧ ∀ x ∈ newer, x ∈ seen

theorem Newest.mono {seen' : Finset κ} (h : Newest c k v seen) (hseen : seen ⊆ seen') :
    Newest c k v seen' := by
  obtain ⟨newer, hnewer, hmem⟩ := h.order
  exact ⟨h.entry, newer, hnewer, fun x hx => hseen (hmem x hx)⟩

/-- When another key is used it comes last, and everything else stays in its order. -/
theorem suffix_filter_append {l newer : List κ} (h : (k :: newer) <:+ l) (hx : k ≠ x) :
    (k :: (newer.filter (· ≠ x) ++ [x])) <:+ l.filter (· ≠ x) ++ [x] := by
  have hfilter := h.filter (· ≠ x)
  rw [List.filter_cons_of_pos (by simpa using hx)] at hfilter
  obtain ⟨older, holder⟩ := hfilter
  exact ⟨older, by rw [← holder, List.append_assoc, List.cons_append]⟩

theorem length_le_card {l : List κ} (hl : l.Nodup) (hseen : ∀ x ∈ l, x ∈ seen) :
    l.length ≤ seen.card := by
  rw [← List.toFinset_card_of_nodup hl]
  exact Finset.card_le_card fun x hx => hseen x (List.mem_toFinset.mp hx)

theorem newest_put (h : Ageless room c) (hroom : 0 < room) :
    Newest (c.put k v now) k v ∅ := by
  have hrecent : Recent (c.put k v now) 1 k ⟨v, now⟩ :=
    recent_put_self h.sound (h.capacity ▸ hroom)
  obtain ⟨newer, hnewer, hlength⟩ := hrecent.order
  obtain rfl : newer = [] := List.eq_nil_of_length_eq_zero (by omega)
  exact ⟨⟨_, hrecent.entry, rfl⟩, [], hnewer, fun _ hx => absurd hx List.not_mem_nil⟩

theorem newest_hit (h : Ageless room c) (hk : c.entries.get? k = some p) :
    Newest (c.get k now).2 k p.value ∅ := by
  rw [h.get_eq, hk]
  exact ⟨⟨p, hk, rfl⟩, [], List.suffix_append _ _, fun _ hx => absurd hx List.not_mem_nil⟩

theorem Newest.use (h : Newest c k w seen) (hc : Ageless room c)
    (hput : ∀ v, u = .put k v → v = w) (hroom : (seen ∪ usedBesides k [u]).card < room) :
    Newest (c.use now u) k w (seen ∪ usedBesides k [u]) := by
  obtain ⟨p, hp, hvalue⟩ := h.entry
  obtain ⟨newer, hnewer, hseen⟩ := h.order
  by_cases hsame : u.key = k
  · -- The entry itself is used and comes last.
    have hagain : Newest (c.use now u) k w ∅ := by
      cases u with
      | put x v =>
        obtain rfl : x = k := hsame
        rw [← hput v rfl]
        exact newest_put hc (by omega)
      | hit x =>
        obtain rfl : x = k := hsame
        rw [← hvalue]
        exact newest_hit hc hp
    exact hagain.mono (Finset.empty_subset _)
  have hused : u.key ∈ usedBesides k [u] :=
    Finset.mem_erase.mpr ⟨hsame, List.mem_toFinset.mpr (List.mem_singleton.mpr rfl)⟩
  have hbehind : ∀ x ∈ newer.filter (· ≠ u.key) ++ [u.key], x ∈ seen ∪ usedBesides k [u] := by
    intro x hx
    rcases List.mem_append.mp hx with hx | hx
    · exact Finset.mem_union_left _ (hseen x (List.mem_of_mem_filter hx))
    · rw [List.mem_singleton.mp hx]
      exact Finset.mem_union_right _ hused
  have hlast := suffix_filter_append hnewer (Ne.symm hsame)
  cases u with
  | put x v =>
    obtain ⟨hsound, horder, hget⟩ := put_spec hc.sound x v now
    have hnodup : (newer.filter (· ≠ x) ++ [x]).Nodup := by
      have hnewerNodup : newer.Nodup :=
        (List.nodup_cons.mp (hc.sound.nodup_order.sublist hnewer.sublist)).2
      rw [List.nodup_append_comm, List.singleton_append, List.nodup_cons]
      exact ⟨by simp, hnewerNodup.filter _⟩
    have hlength := length_le_card hnodup hbehind
    have hsuffix : k :: (newer.filter (· ≠ x) ++ [x]) <:+ (c.put x v now).order := by
      rw [horder, hc.capacity]
      exact suffix_rtake hlast (by rw [List.length_cons]; omega)
    refine ⟨⟨p, ?_, hvalue⟩, _, hsuffix, hbehind⟩
    have hother : k ≠ x := Ne.symm hsame
    rw [PinCache.use, hget k (hsuffix.subset List.mem_cons_self), if_neg hother, hp]
  | hit x =>
    rw [PinCache.use, hc.get_eq]
    split
    · exact h.mono Finset.subset_union_left
    · exact ⟨⟨p, hp, hvalue⟩, _, hlast, hbehind⟩

/-- An entry lasts through uses of fewer other keys than there is room for, and what is put under
its own key is the value that is there. -/
theorem Newest.useAll (h : Newest c k w seen) (hc : Ageless room c)
    (hput : ∀ v, .put k v ∈ us → v = w) (hroom : (seen ∪ usedBesides k us).card < room) :
    Newest (c.useAll now us) k w (seen ∪ usedBesides k us) := by
  induction us generalizing c seen with
  | nil => exact h.mono Finset.subset_union_left
  | cons u us ih =>
    rw [← List.singleton_append, usedBesides_append, ← Finset.union_assoc] at hroom ⊢
    have hfirst : Newest (c.use now u) k w (seen ∪ usedBesides k [u]) :=
      h.use hc (fun v hv => hput v (hv ▸ List.mem_cons_self))
        (Nat.lt_of_le_of_lt (Finset.card_le_card Finset.subset_union_left) hroom)
    exact ih hfirst (hc.use now u) (fun v hv => hput v (List.mem_cons_of_mem _ hv)) hroom

end

end DebugAdapter.PinCache
