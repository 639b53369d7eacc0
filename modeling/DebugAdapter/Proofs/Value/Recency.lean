import DebugAdapter.Proofs.Value.Uses

/-!
# Pins as a list in the order of their use

A cache keeps its entries in a table and the order of its keys apart from it. To its callers it is one
list of keys, values and times (`Ranking.answer`), from the least to the most recently used entry.
`Shows` says how table and order stand for the list; every call keeps that and is answered as the list
answers it (`Shows.answered`). How long an entry lasts is then told of the list (`Lasts`): what stands
behind an entry has been used since, so it goes only after as many as there is room for.
-/

namespace DebugAdapter

namespace PinCache

/-- What a cache can be asked for. -/
inductive Call (κ α : Type) where
  | put (k : κ) (v : α)
  | get (k : κ)
  | purge
  | clear

inductive Answer (α : Type) where
  | done
  | found (v : Option α)
  | dropped (n : Nat)

variable {κ α σ : Type}

/-- What calls at their times are answered, and what they lead to. -/
def transcript (answer : σ → Nat → Call κ α → Answer α × σ) (s : σ) :
    List (Nat × Call κ α) → List (Call κ α × Answer α) × σ
  | [] => ([], s)
  | (now, call) :: rest =>
    let (a, s) := answer s now call
    let (answers, s) := transcript answer s rest
    ((call, a) :: answers, s)

theorem transcript_append (answer : σ → Nat → Call κ α → Answer α × σ) (s : σ)
    (calls calls' : List (Nat × Call κ α)) :
    transcript answer s (calls ++ calls') =
      ((transcript answer s calls).1 ++ (transcript answer (transcript answer s calls).2 calls').1,
        (transcript answer (transcript answer s calls).2 calls').2) := by
  induction calls generalizing s with
  | nil => rfl
  | cons call calls ih => simp only [List.cons_append, transcript, ih]

/-- The key that a call uses: one that is put, or that is found. -/
def used? : Call κ α × Answer α → Option κ
  | (.put k _, _) => some k
  | (.get k, .found (some _)) => some k
  | _ => none

variable [DecidableEq κ]

def answer (c : PinCache κ α) (now : Nat) : Call κ α → Answer α × PinCache κ α
  | .put k v => (.done, c.put k v now)
  | .get k => (.found (c.get k now).1, (c.get k now).2)
  | .purge => (.dropped (c.purge now).1, (c.purge now).2)
  | .clear => (.done, c.clear)

/-- The keys used after the last use of one, each once. -/
def usedSince (k : κ) (answers : List (Call κ α × Answer α)) : Finset κ :=
  ((answers.filterMap used?).rtakeWhile (· ≠ k)).toFinset

end PinCache

/-! ## The list -/

/-- Entries from the least to the most recently used. -/
abbrev Ranking (κ α : Type) := List (κ × Pin α)

namespace Ranking

open PinCache (Call Answer)

variable {κ α : Type} [DecidableEq κ]

/-- It is older than entries may become. -/
def aged (lifetime : Option Nat) (now : Nat) (p : Pin α) : Bool :=
  lifetime.any (· < now - p.since)

def pin? (k : κ) (xs : Ranking κ α) : Option (Pin α) := (xs.find? fun x => x.1 = k).map (·.2)

def others (k : κ) (xs : Ranking κ α) : Ranking κ α := xs.filter fun x => x.1 ≠ k

/-- What is put or found comes last, and what there is no room for goes from the front. -/
def answer (room : Nat) (lifetime : Option Nat) (xs : Ranking κ α) (now : Nat) :
    Call κ α → Answer α × Ranking κ α
  | .put k v => (.done, (others k xs ++ [(k, Pin.mk v now)]).rtake room)
  | .get k =>
    match pin? k xs with
    | none => (.found none, xs)
    | some p =>
      if aged lifetime now p then (.found none, others k xs)
      else (.found (some p.value), others k xs ++ [(k, p)])
  | .purge =>
    let kept := xs.filter fun x => !aged lifetime now x.2
    (.dropped (xs.length - kept.length), kept)
  | .clear => (.done, [])

variable {xs : Ranking κ α} {k : κ} {x : κ × Pin α} {p : Pin α}

theorem mem_of_pin? (h : pin? k xs = some p) : (k, p) ∈ xs := by
  obtain ⟨x, hx, rfl⟩ := Option.map_eq_some_iff.mp h
  obtain rfl : x.1 = k := by simpa using List.find?_some hx
  exact List.mem_of_find?_eq_some hx

theorem pin?_eq_none_iff : pin? k xs = none ↔ k ∉ xs.map (·.1) := by
  rw [pin?, Option.map_eq_none_iff, List.find?_eq_none, List.mem_map]
  constructor
  · rintro h ⟨x, hx, rfl⟩
    exact h x hx (decide_eq_true rfl)
  · intro h x hx hk
    exact h ⟨x, hx, of_decide_eq_true hk⟩

theorem mem_others : x ∈ others k xs ↔ x ∈ xs ∧ x.1 ≠ k := by
  simp [others]

theorem map_others (k : κ) (xs : Ranking κ α) :
    (others k xs).map (·.1) = (xs.map (·.1)).filter (· ≠ k) := by
  rw [others, List.filter_map]
  rfl

omit [DecidableEq κ] in
theorem map_rtake (n : Nat) (xs : Ranking κ α) : (xs.rtake n).map (·.1) = (xs.map (·.1)).rtake n := by
  rw [List.rtake, List.rtake, List.map_drop, List.length_map]

end Ranking

namespace PinCache

open Ranking (pin? others aged)

variable {κ α : Type} [DecidableEq κ] {c : PinCache κ α} {xs : Ranking κ α} {k : κ} {p : Pin α}

/-- The order has the keys of the list, and the table has its entries and no other. -/
structure Shows (c : PinCache κ α) (xs : Ranking κ α) : Prop where
  sound : c.Sound
  order : c.order = xs.map (·.1)
  entries : ∀ x ∈ xs, c.entries.get? x.1 = some x.2

theorem shows_new (capacity : Nat) (lifetime : Option Nat) :
    Shows (new capacity lifetime : PinCache κ α) [] :=
  ⟨sound_new _ _, rfl, by simp⟩

theorem Shows.nodup (h : Shows c xs) : (xs.map (·.1)).Nodup := h.order ▸ h.sound.nodup_order

theorem Shows.size_eq (h : Shows c xs) : c.entries.size = xs.length := by
  rw [← List.length_map (f := (·.1)), ← h.order, h.sound.order.length_eq]
  exact (List.length_map _).symm

theorem Shows.length_le (h : Shows c xs) : xs.length ≤ c.capacity := by
  rw [← List.length_map (f := (·.1)), ← h.order]
  exact h.sound.size

theorem Shows.get?_eq (h : Shows c xs) (k : κ) : c.entries.get? k = pin? k xs := by
  cases hpin : pin? k xs with
  | none =>
    rw [Ranking.pin?_eq_none_iff, ← h.order, h.sound.mem_order_iff, not_exists] at hpin
    exact Option.eq_none_iff_forall_ne_some.mpr hpin
  | some p => exact h.entries _ (Ranking.mem_of_pin? hpin)

theorem Shows.get?_eq_some_iff (h : Shows c xs) : c.entries.get? k = some p ↔ (k, p) ∈ xs :=
  ⟨fun hp => Ranking.mem_of_pin? ((h.get?_eq k).symm.trans hp), h.entries _⟩

theorem Shows.order_others (h : Shows c xs) (k : κ) :
    c.order.filter (· ≠ k) = (others k xs).map (·.1) := by
  rw [h.order, Ranking.map_others]

/-! ## Calls -/

theorem Sound.drop (h : Sound c) (k : κ) :
    Sound { c with order := c.order.filter (· ≠ k), entries := c.entries.erase k } := by
  refine ⟨?_, Nat.le_trans (List.length_filter_le _ _) h.size⟩
  rw [Table.keys_erase]
  exact h.order.filter _

theorem Sound.touch (h : Sound c) (hk : c.entries.get? k = some p) :
    Sound { c with order := c.order.filter (· ≠ k) ++ [k] } :=
  ⟨(h.perm_touched hk).trans h.order, (h.perm_touched hk).length_eq.trans_le h.size⟩

theorem Sound.get (h : Sound c) (k : κ) (now : Nat) : Sound (c.get k now).2 := by
  cases hk : c.entries.get? k with
  | none => simpa only [PinCache.get, hk] using h
  | some p =>
    simp only [PinCache.get, hk]
    split
    · exact h.drop k
    · exact h.touch hk

theorem get?_purge (c : PinCache κ α) (now : Nat) (k : κ) :
    (c.purge now).2.entries.get? k = (c.entries.get? k).filter fun p => !c.expired now p :=
  Table.get?_filter _ _ _

theorem Sound.purge (h : Sound c) (now : Nat) : Sound (c.purge now).2 := by
  refine ⟨?_, Nat.le_trans (List.length_filter_le _ _) h.size⟩
  refine (List.perm_ext_iff_of_nodup (h.nodup_order.filter _) (Table.nodup _)).mpr fun k => ?_
  change _ ∈ c.order.filter ((c.purge now).2.entries.contains ·) ↔ k ∈ (c.purge now).2.entries.keys
  rw [Table.mem_keys, List.mem_filter, h.mem_order_iff, Table.contains, Option.isSome_iff_exists,
    get?_purge]
  refine and_iff_right_of_imp ?_
  rintro ⟨p, hp⟩
  exact ⟨p, (Option.filter_eq_some_iff.mp hp).1⟩

theorem Sound.answer (h : Sound c) (now : Nat) (call : Call κ α) :
    Sound (c.answer now call).2 := by
  cases call with
  | put k v => exact (put_spec h k v now).1
  | get k => exact h.get k now
  | purge => exact h.purge now
  | clear => exact sound_clear c

theorem Shows.put (h : Shows c xs) (k : κ) (v : α) (now : Nat) :
    Shows (c.put k v now) ((others k xs ++ [(k, Pin.mk v now)]).rtake c.capacity) := by
  obtain ⟨hsound, horder, hget⟩ := put_spec h.sound k v now
  have hkeys : (c.put k v now).order =
      ((others k xs ++ [(k, Pin.mk v now)]).rtake c.capacity).map (·.1) := by
    rw [horder, h.order_others, Ranking.map_rtake, List.map_append]
    rfl
  refine ⟨hsound, hkeys, fun x hx => ?_⟩
  rw [hget x.1 (hkeys ▸ List.mem_map_of_mem hx)]
  rcases List.mem_append.mp (List.drop_subset _ _ hx) with hx | hx
  · obtain ⟨hx, hother⟩ := Ranking.mem_others.mp hx
    rw [if_neg hother]
    exact h.entries x hx
  · rw [List.mem_singleton.mp hx, if_pos rfl]

theorem Shows.drop (h : Shows c xs) (k : κ) :
    Shows { c with order := c.order.filter (· ≠ k), entries := c.entries.erase k } (others k xs) where
  sound := h.sound.drop k
  order := h.order_others k
  entries x hx := by
    obtain ⟨hx, hother⟩ := Ranking.mem_others.mp hx
    rw [Table.get?_erase, if_neg hother]
    exact h.entries x hx

theorem Shows.touch (h : Shows c xs) (hk : c.entries.get? k = some p) :
    Shows { c with order := c.order.filter (· ≠ k) ++ [k] } (others k xs ++ [(k, p)]) where
  sound := h.sound.touch hk
  order := by
    rw [h.order_others, List.map_append]
    rfl
  entries x hx := by
    rcases List.mem_append.mp hx with hx | hx
    · exact h.entries x (Ranking.mem_others.mp hx).1
    · rw [List.mem_singleton.mp hx]
      exact hk

theorem Shows.purge (h : Shows c xs) (now : Nat) :
    Shows (c.purge now).2 (xs.filter fun x => !aged c.lifetime now x.2) where
  sound := h.sound.purge now
  order := by
    simp only [PinCache.purge, h.order, List.filter_map]
    refine congrArg _ (List.filter_congr fun x hx => ?_)
    rw [Function.comp_apply, Table.contains, Table.get?_filter, h.entries x hx, Option.isSome_filter]
    rfl
  entries x hx := by
    obtain ⟨hx, hyoung⟩ := List.mem_filter.mp hx
    rw [get?_purge, h.entries x hx]
    exact Option.filter_some_pos hyoung

theorem Shows.get (h : Shows c xs) (k : κ) (now : Nat) :
    Answer.found (c.get k now).1 = (Ranking.answer c.capacity c.lifetime xs now (.get k)).1 ∧
      Shows (c.get k now).2 (Ranking.answer c.capacity c.lifetime xs now (.get k)).2 := by
  cases hk : pin? k xs with
  | none =>
    rw [← h.get?_eq] at hk
    simp only [PinCache.get, hk, Ranking.answer, ← h.get?_eq]
    exact ⟨trivial, h⟩
  | some p =>
    rw [← h.get?_eq] at hk
    have hexpired : c.expired now p = aged c.lifetime now p := rfl
    simp only [PinCache.get, hk, Ranking.answer, ← h.get?_eq, hexpired]
    cases aged c.lifetime now p with
    | true => exact ⟨rfl, h.drop k⟩
    | false => exact ⟨rfl, h.touch hk⟩

theorem Shows.answered (h : Shows c xs) (now : Nat) (call : Call κ α) :
    (c.answer now call).1 = (Ranking.answer c.capacity c.lifetime xs now call).1 ∧
      Shows (c.answer now call).2 (Ranking.answer c.capacity c.lifetime xs now call).2 := by
  cases call with
  | put k v => exact ⟨rfl, h.put k v now⟩
  | get k => exact h.get k now
  | purge =>
    refine ⟨congrArg Answer.dropped ?_, h.purge now⟩
    rw [← (h.purge now).size_eq, ← h.size_eq]
    rfl
  | clear => exact ⟨rfl, sound_clear c, rfl, fun _ hx => absurd hx List.not_mem_nil⟩

theorem answer_capacity (c : PinCache κ α) (now : Nat) (call : Call κ α) :
    (c.answer now call).2.capacity = c.capacity ∧ (c.answer now call).2.lifetime = c.lifetime := by
  cases call with
  | get k =>
    simp only [answer, PinCache.get]
    split
    · exact ⟨rfl, rfl⟩
    · split <;> exact ⟨rfl, rfl⟩
  | _ => exact ⟨rfl, rfl⟩

theorem Shows.transcript_eq (h : Shows c xs) (calls : List (Nat × Call κ α)) :
    (transcript answer c calls).1 =
        (transcript (Ranking.answer c.capacity c.lifetime) xs calls).1 ∧
      Shows (transcript answer c calls).2
        (transcript (Ranking.answer c.capacity c.lifetime) xs calls).2 ∧
      (transcript answer c calls).2.capacity = c.capacity ∧
      (transcript answer c calls).2.lifetime = c.lifetime := by
  induction calls generalizing c xs with
  | nil => exact ⟨rfl, h, rfl, rfl⟩
  | cons call calls ih =>
    obtain ⟨now, call⟩ := call
    obtain ⟨hanswer, hshows⟩ := h.answered now call
    obtain ⟨hcapacity, hlifetime⟩ := answer_capacity c now call
    have hrest := ih hshows
    rw [hcapacity, hlifetime] at hrest
    simp only [transcript, hanswer, hrest.1]
    exact ⟨trivial, hrest.2⟩

end PinCache

/-! ## How long an entry lasts -/

namespace Ranking

open PinCache (Call Answer used? usedSince transcript)

variable {κ α : Type} [DecidableEq κ]

/-- The keys used since the last use of `k`, after one more answer. -/
def seenAfter (k : κ) (seen : Finset κ) : Option κ → Finset κ
  | none => seen
  | some x => if x = k then ∅ else insert x seen

theorem usedSince_concat (k : κ) (answers : List (Call κ α × Answer α)) (a : Call κ α × Answer α) :
    usedSince k (answers ++ [a]) = seenAfter k (usedSince k answers) (used? a) := by
  rw [usedSince, List.filterMap_append]
  cases ha : used? a with
  | none => simp [ha, seenAfter, usedSince]
  | some x =>
    rw [List.filterMap_cons_some ha, List.filterMap_nil, List.rtakeWhile_concat]
    by_cases hx : x = k
    · simp [hx, seenAfter]
    · rw [if_pos (decide_eq_true hx), List.toFinset_append, List.toFinset_cons, List.toFinset_nil,
        insert_empty_eq, Finset.union_comm, ← Finset.insert_eq, seenAfter, if_neg hx]
      rfl

/-- No other value is kept for the key, and while fewer than `room` have been seen the entry is
there: what is behind it has been seen. -/
structure Lasts (room : Nat) (k : κ) (p : Pin α) (seen : Finset κ) (xs : Ranking κ α) : Prop where
  nodup : (xs.map (·.1)).Nodup
  value : ∀ q, (k, q) ∈ xs → q = p
  place : seen.card < room → ∃ newer, (k, p) :: newer <:+ xs ∧ ∀ x ∈ newer, x.1 ∈ seen

variable {room : Nat} {lifetime : Option Nat} {xs : Ranking κ α} {k x : κ} {p : Pin α}
  {seen : Finset κ} {now : Nat}

theorem nodup_concat (h : (xs.map (·.1)).Nodup) (k : κ) (p : Pin α) :
    ((others k xs ++ [(k, p)]).map (·.1)).Nodup := by
  rw [List.map_append, map_others, List.map_singleton]
  refine (h.filter (· ≠ k)).append (List.nodup_singleton k) fun x hx hlast => ?_
  exact of_decide_eq_true (List.mem_filter.mp hx).2 (List.mem_singleton.mp hlast)

theorem lasts_concat (h : (xs.map (·.1)).Nodup) (k : κ) (p : Pin α) :
    Lasts room k p ∅ (others k xs ++ [(k, p)]) := by
  refine ⟨nodup_concat h k p, fun q hq => ?_, fun _ => ⟨[], List.suffix_append _ _, by simp⟩⟩
  rcases List.mem_append.mp hq with hq | hq
  · exact absurd rfl (mem_others.mp hq).2
  · exact congrArg (·.2) (List.mem_singleton.mp hq)

omit [DecidableEq κ] in
theorem Lasts.filter {f : κ × Pin α → Bool} (h : Lasts room k p seen xs) (hf : f (k, p) = true) :
    Lasts room k p seen (xs.filter f) where
  nodup := h.nodup.sublist (List.filter_sublist.map _)
  value q hq := h.value q (List.mem_filter.mp hq).1
  place hroom := by
    obtain ⟨newer, hnewer, hseen⟩ := h.place hroom
    refine ⟨newer.filter f, ?_, fun x hx => hseen x (List.mem_filter.mp hx).1⟩
    simpa only [List.filter_cons_of_pos hf] using hnewer.filter f

theorem Lasts.others (h : Lasts room k p seen xs) (hx : x ≠ k) :
    Lasts room k p seen (others x xs) :=
  h.filter (decide_eq_true hx.symm)

theorem Lasts.concat (h : Lasts room k p seen xs) (hx : x ≠ k) (q : Pin α) :
    Lasts room k p (insert x seen) (Ranking.others x xs ++ [(x, q)]) where
  nodup := nodup_concat h.nodup x q
  value r hr := by
    rcases List.mem_append.mp hr with hr | hr
    · exact h.value r (mem_others.mp hr).1
    · exact absurd (congrArg (·.1) (List.mem_singleton.mp hr)).symm hx
  place hroom := by
    have hseen := Nat.lt_of_le_of_lt (Finset.card_le_card (Finset.subset_insert x seen)) hroom
    obtain ⟨newer, ⟨older, holder⟩, hnewer⟩ := (h.others hx).place hseen
    refine ⟨newer ++ [(x, q)], ⟨older, ?_⟩, fun y hy => ?_⟩
    · rw [← holder, List.append_assoc, List.cons_append]
    · rcases List.mem_append.mp hy with hy | hy
      · exact Finset.mem_insert_of_mem (hnewer y hy)
      · rw [List.mem_singleton.mp hy]
        exact Finset.mem_insert_self x seen

theorem Lasts.rtake (h : Lasts room k p seen xs) : Lasts room k p seen (xs.rtake room) where
  nodup := h.nodup.sublist ((List.drop_sublist _ _).map _)
  value q hq := h.value q (List.drop_subset _ _ hq)
  place hroom := by
    obtain ⟨newer, hnewer, hseen⟩ := h.place hroom
    -- What goes for want of room is in front: no more keys are behind the entry than were seen.
    refine ⟨newer, PinCache.suffix_rtake hnewer ?_, hseen⟩
    have hnodup : (newer.map (·.1)).Nodup :=
      h.nodup.sublist (((List.sublist_cons_self _ _).trans hnewer.sublist).map _)
    have hcard := PinCache.length_le_card hnodup (List.forall_mem_map.mpr hseen)
    rw [List.length_map] at hcard
    rw [List.length_cons]
    omega

/-- An entry that is young enough outlasts every call that does not replace it. -/
theorem Lasts.answer (h : Lasts room k p seen xs) (hyoung : aged lifetime now p = false)
    {call : Call κ α} (hput : ∀ v, call ≠ .put k v) (hclear : call ≠ .clear) :
    Lasts room k p (seenAfter k seen (used? (call, (answer room lifetime xs now call).1)))
      (answer room lifetime xs now call).2 := by
  cases call with
  | put x v =>
    have hx : x ≠ k := fun hx => hput v (by rw [hx])
    simp only [Ranking.answer, used?, seenAfter, if_neg hx]
    exact (h.concat hx _).rtake
  | get x =>
    cases hpin : pin? x xs with
    | none => simpa only [Ranking.answer, hpin, used?, seenAfter] using h
    | some q =>
      simp only [Ranking.answer, hpin]
      by_cases hx : x = k
      -- When its own lookup finds it all begins anew, however many have been seen.
      · subst hx
        obtain rfl := h.value q (mem_of_pin? hpin)
        simp only [hyoung, Bool.false_eq_true, if_false, used?, seenAfter, if_true]
        exact lasts_concat h.nodup x q
      · cases aged lifetime now q with
        | true => exact h.others hx
        | false =>
          simp only [Bool.false_eq_true, if_false, used?, seenAfter, if_neg hx]
          exact h.concat hx q
  | purge => exact h.filter (by simp [hyoung])
  | clear => exact absurd rfl hclear

/-- An entry that was put is there after calls that do not replace it, unless it is too old or as
many others as there is room for have been used since. -/
theorem lasts_transcript (xs : Ranking κ α) (k : κ) (v : α) (t : Nat) (before : List (Nat × Call κ α))
    {since : List (Nat × Call κ α)} (hreplaced : ∀ x ∈ since, x.2 ≠ .clear ∧ ∀ w, x.2 ≠ .put k w)
    (hyoung : ∀ x ∈ since, aged lifetime x.1 ⟨v, t⟩ = false)
    (hnodup : ((transcript (answer room lifetime) xs before).2.map (·.1)).Nodup) :
    Lasts room k ⟨v, t⟩
      (usedSince k (transcript (answer room lifetime) xs (before ++ (t, .put k v) :: since)).1)
      (transcript (answer room lifetime) xs (before ++ (t, .put k v) :: since)).2 := by
  -- From the end: the last call is answered in the list that the others lead to.
  induction since using List.reverseRecOn with
  | nil =>
    rw [PinCache.transcript_append]
    simp only [transcript, usedSince_concat]
    simp only [answer, used?, seenAfter, if_true]
    exact (lasts_concat hnodup k _).rtake
  | append_singleton since call ih =>
    have hlast : call ∈ since ++ [call] := List.mem_append_right _ (List.mem_singleton.mpr rfl)
    have hlasts := ih (fun x hx => hreplaced x (List.mem_append_left _ hx))
      fun x hx => hyoung x (List.mem_append_left _ hx)
    rw [← List.cons_append, ← List.append_assoc, PinCache.transcript_append]
    simp only [transcript, usedSince_concat]
    exact hlasts.answer (hyoung call hlast) (hreplaced call hlast).2 (hreplaced call hlast).1

end Ranking

namespace PinCache

open Ranking (aged)

variable {κ α : Type} [DecidableEq κ]

theorem Sound.count_order {c : PinCache κ α} (h : Sound c) (k : κ) :
    c.order.count k = if c.entries.contains k then 1 else 0 := by
  have hmem : k ∈ c.order ↔ c.entries.contains k = true :=
    h.mem_order_iff.trans Option.isSome_iff_exists.symm
  rw [h.nodup_order.count]
  exact if_congr hmem rfl rfl

theorem aged_eq_false_iff {lifetime : Option Nat} {now : Nat} {p : Pin α} :
    aged lifetime now p = false ↔ ∀ ttl ∈ lifetime, now - p.since ≤ ttl := by
  cases lifetime <;> simp [aged]

section
variable {c : PinCache κ α} {xs : Ranking κ α} {k : κ} {v : α} {p : Pin α} {now : Nat}
  {lifetime : Option Nat}

theorem Shows.found_iff (h : Shows c xs) (hlifetime : c.lifetime = lifetime) :
    (c.get k now).1 = some v ↔
      ∃ p, (k, p) ∈ xs ∧ p.value = v ∧ ∀ ttl ∈ lifetime, now - p.since ≤ ttl := by
  subst hlifetime
  simp only [← h.get?_eq_some_iff, ← aged_eq_false_iff]
  cases hk : c.entries.get? k with
  | none => simp [PinCache.get, hk]
  | some p =>
    have hexpired : c.expired now p = aged c.lifetime now p := rfl
    simp only [PinCache.get, hk, hexpired]
    cases haged : aged c.lifetime now p <;> simp [haged]

theorem Shows.purged_iff (h : Shows c xs) (hlifetime : c.lifetime = lifetime) :
    (c.purge now).2.entries.get? k = some p ↔
      (k, p) ∈ xs ∧ ∀ ttl ∈ lifetime, now - p.since ≤ ttl := by
  subst hlifetime
  rw [get?_purge, Option.filter_eq_some_iff, h.get?_eq_some_iff, ← aged_eq_false_iff,
    Bool.not_eq_true']
  rfl

end

/-- A cache is its entries in the order of their use, of which it keeps as many as there is room for;
what is too old is not found, and a purge takes out just that. So an entry that was put and not replaced
since is found while it is young enough and fewer others than there is room for have been used since
its own last use. -/
theorem recency_refined (capacity : Nat) (lifetime : Option Nat) (calls : List (Nat × Call κ α)) :
    let kept := transcript answer (new capacity lifetime) calls
    let listed := transcript (Ranking.answer (max capacity 1) lifetime) [] calls
    kept.1 = listed.1 ∧
      kept.2.order = listed.2.map (·.1) ∧
      (∀ k, kept.2.order.count k = if kept.2.entries.contains k then 1 else 0) ∧
      (∀ k p, kept.2.entries.get? k = some p ↔ (k, p) ∈ listed.2) ∧
      listed.2.length ≤ max capacity 1 ∧
      (∀ k v now, (kept.2.get k now).1 = some v ↔
        ∃ p, (k, p) ∈ listed.2 ∧ p.value = v ∧ ∀ ttl ∈ lifetime, now - p.since ≤ ttl) ∧
      (∀ k p now, (kept.2.purge now).2.entries.get? k = some p ↔
        (k, p) ∈ listed.2 ∧ ∀ ttl ∈ lifetime, now - p.since ≤ ttl) ∧
      ∀ before t k v since now, calls = before ++ (t, .put k v) :: since →
        (∀ x ∈ since, x.2 ≠ .clear ∧ ∀ w, x.2 ≠ .put k w) →
        (calls.map (·.1) ++ [now]).Pairwise (· ≤ ·) → (∀ ttl ∈ lifetime, now - t ≤ ttl) →
        (usedSince k kept.1).card < max capacity 1 → (kept.2.get k now).1 = some v := by
  intro kept listed
  obtain ⟨hanswers, hshows, hcapacity, hlifetime⟩ :=
    (shows_new (κ := κ) (α := α) capacity lifetime).transcript_eq calls
  have hfound : ∀ k v now, (kept.2.get k now).1 = some v ↔
      ∃ p, (k, p) ∈ listed.2 ∧ p.value = v ∧ ∀ ttl ∈ lifetime, now - p.since ≤ ttl :=
    fun k v now => hshows.found_iff hlifetime
  refine ⟨hanswers, hshows.order, hshows.sound.count_order, fun _ _ => hshows.get?_eq_some_iff,
    hshows.length_le.trans_eq hcapacity, hfound, fun _ _ _ => hshows.purged_iff hlifetime, ?_⟩
  rintro before t k v since now rfl hreplaced htimes hlife hused
  have hnow : ∀ x ∈ since, x.1 ≤ now := fun x hx =>
    (List.pairwise_append.mp htimes).2.2 x.1
      (List.mem_map_of_mem (List.mem_append_right _ (List.mem_cons_of_mem _ hx))) now
      (List.mem_singleton.mpr rfl)
  have hyoung : ∀ x ∈ since, aged lifetime x.1 ⟨v, t⟩ = false := by
    intro x hx
    refine aged_eq_false_iff.mpr fun ttl httl => Nat.le_trans ?_ (hlife ttl httl)
    exact Nat.sub_le_sub_right (hnow x hx) t
  have hlasts : Ranking.Lasts (max capacity 1) k ⟨v, t⟩ (usedSince k listed.1) listed.2 :=
    Ranking.lasts_transcript [] k v t before hreplaced hyoung
      ((shows_new capacity lifetime).transcript_eq before).2.1.nodup
  obtain ⟨newer, hnewer, _⟩ := hlasts.place (hanswers ▸ hused)
  exact (hfound k v now).mpr ⟨⟨v, t⟩, hnewer.subset List.mem_cons_self, rfl, hlife⟩

/-- With room for two, an entry that was found again outlasts the third. -/
theorem recency_refined_two :
    ((transcript answer (new 2 (some 10) : PinCache Nat Nat)
      [(0, .put 1 7), (3, .put 2 8), (4, .get 1), (5, .put 3 9), (6, .get 2)]).2.get 1 10).1 =
      some 7 :=
  (recency_refined 2 (some 10)
    [(0, .put 1 7), (3, .put 2 8), (4, .get 1), (5, .put 3 9), (6, .get 2)]).2.2.2.2.2.2.2
    [] 0 1 7 [(3, .put 2 8), (4, .get 1), (5, .put 3 9), (6, .get 2)] 10 rfl (by simp) (by decide)
    (by simp) (by decide)

end PinCache

end DebugAdapter
