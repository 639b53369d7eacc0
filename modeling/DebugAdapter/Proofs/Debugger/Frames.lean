import DebugAdapter.Proofs.Debugger.Happenings
import DebugAdapter.Suspension.Described
import Mathlib.Data.List.Nodup

/-!
# Numbers of frames along a history

`given` reads off the listed stacks of a history which number was shown for which frame, and during
which suspension. Since no two suspensions share a gate, a suspension that is over does not come
back, and the numbers of its frames do not either. `Framed` compares the record with the tables by
which the debugger finds its frames.
-/

namespace DebugAdapter

variable {C : Type} [Context C]

namespace Debugger

/-- The frames that a suspended thread shows, as they are noted. -/
def knownFrames (t : ThreadId) (s : Suspension C) : List KnownFrame :=
  (shownFrames s).mapIdx fun position p => ⟨t, p.1, position == 0, p.2⟩

/-- A number, and the frame that it was shown for during a suspension of the frame's thread. -/
abbrev Naming (C : Type) : Type := Int × Suspension C × KnownFrame

/-- The numbers that are shown. -/
def named (d : Debugger C) : Happening C → List (Naming C)
  | .event (.stackTrace t start levels) =>
    match d.coordinator.suspended.get? t with
    | none => []
    | some s =>
      let asked := Inspector.page (some start) levels (knownFrames t s)
      ((d.stackTrace t start levels).1.1.zip asked).map fun p => (p.1.id, s, p.2)
  | _ => []

/-- All numbers that are shown along a history. -/
def given : Debugger C → List (Happening C) → List (Naming C)
  | _, [] => []
  | d, h :: hs => d.named h ++ (d.undergo h).given hs

theorem given_append (d : Debugger C) (hs later : List (Happening C)) :
    d.given (hs ++ later) = d.given hs ++ (d.through hs).given later := by
  induction hs generalizing d with
  | nil => rfl
  | cons h hs ih =>
    simp only [List.cons_append, given, ih, List.append_assoc]
    rfl

/-! ## Listing a stack -/

theorem nodup_index_knownFrames (t : ThreadId) (s : Suspension C) :
    ((knownFrames t s).map (·.index)).Nodup := by
  have hindex : (knownFrames t s).map (·.index) = (shownFrames s).map (·.1) := by
    rw [← congrArg (List.map (·.1)) (List.zipIdx_map_fst 0 (shownFrames s)), List.map_map,
      knownFrames, List.mapIdx_eq_zipIdx_map, List.map_map]
    rfl
  rw [hindex]
  simp only [shownFrames]
  split
  · exact List.nodup_singleton 0
  · refine List.Nodup.sublist (List.filter_sublist.map _) ?_
    simp [List.mapIdx_eq_zipIdx_map, Function.comp_def, List.nodup_range']

/-- The place in the thread's own list tells the frames apart. -/
theorem eq_of_index_eq {t : ThreadId} {s : Suspension C} {f f' : KnownFrame}
    (hf : f ∈ knownFrames t s) (hf' : f' ∈ knownFrames t s) (hindex : f.index = f'.index) :
    f = f' :=
  List.inj_on_of_nodup_map (nodup_index_knownFrames t s) hf hf' hindex

theorem thread_of_mem_knownFrames {t : ThreadId} {s : Suspension C} {f : KnownFrame}
    (hf : f ∈ knownFrames t s) : f.thread = t := by
  obtain ⟨_, _, rfl⟩ := List.mem_mapIdx.mp hf
  rfl

theorem length_insertAll (k : KnownFrames) (fs : List KnownFrame) :
    (k.insertAll fs).1.length = fs.length := by
  induction fs generalizing k with
  | nil => rfl
  | cons f fs ih => exact congrArg (· + 1) (ih _)

omit [Context C] in
theorem zip_rows (s : Suspension C) {row : KnownFrame → Int → FrameRow}
    (hrow : ∀ f id, (row f id).id = id) (asked : List KnownFrame) (ids : List Int) :
    ((asked.zipWith row ids).zip asked).map (fun p => (p.1.id, s, p.2)) =
      (ids.zip asked).map fun p => (p.1, s, p.2) := by
  induction asked generalizing ids with
  | nil => simp
  | cons f fs ih =>
    cases ids with
    | nil => rfl
    | cons id ids => simp [hrow, ih]

theorem exceptions_insertAll (k : KnownFrames) (fs : List KnownFrame) :
    (k.insertAll fs).2.exceptions = k.exceptions := by
  induction fs generalizing k with
  | nil => rfl
  | cons f fs ih =>
    have hfirst : (k.insert f).2.exceptions = k.exceptions := by
      unfold KnownFrames.insert
      split <;> rfl
    exact (ih _).trans hfirst

section
variable {d : Debugger C} {t : ThreadId} {s : Suspension C}
  (hs : d.coordinator.suspended.get? t = some s) (start : Nat) (levels : Option Nat)
include hs

theorem stackTrace_frames :
    (d.stackTrace t start levels).2.frames =
      (d.frames.insertAll (Inspector.page (some start) levels (knownFrames t s))).2 := by
  simp only [stackTrace, hs]
  rfl

theorem named_stackTrace :
    d.named (.event (.stackTrace t start levels)) =
      let asked := Inspector.page (some start) levels (knownFrames t s)
      ((d.frames.insertAll asked).1.zip asked).map fun p => (p.1, s, p.2) := by
  simp only [named, stackTrace, hs]
  exact zip_rows s (fun _ _ => rfl) _ _

/-- Every frame on the page gets a number. -/
theorem named_frames :
    (d.named (.event (.stackTrace t start levels))).map (·.2) =
      (Inspector.page (some start) levels (knownFrames t s)).map fun f => (s, f) := by
  have hzip := List.map_snd_zip (Nat.le_of_eq (length_insertAll d.frames
    (Inspector.page (some start) levels (knownFrames t s))).symm)
  rw [named_stackTrace hs, List.map_map]
  conv => rhs; rw [← hzip, List.map_map]
  rfl

end

theorem named_eq_nil {d : Debugger C} {e : Happening C}
    (h : ∀ t start levels, e ≠ .event (.stackTrace t start levels)) : d.named e = [] := by
  unfold named
  split
  · exact absurd rfl (h _ _ _)
  · rfl

/-- Only frames of waiting threads are listed. -/
theorem suspended_of_mem_named {d : Debugger C} {e : Happening C} {id : Int} {s : Suspension C}
    {f : KnownFrame} (h : (id, s, f) ∈ d.named e) :
    d.coordinator.suspended.get? f.thread = some s := by
  unfold named at h
  split at h
  · split at h
    · contradiction
    · rename_i t start levels s' hs
      obtain ⟨⟨row, f'⟩, hp, heq⟩ := List.mem_map.mp h
      cases heq
      have hf := (Inspector.page_sublist _ _ _).subset (List.of_mem_zip hp).2
      exact thread_of_mem_knownFrames hf ▸ hs
  · contradiction

/-- Every row of a listed stack is in the record. -/
theorem named_ids (d : Debugger C) (t : ThreadId) (start : Nat) (levels : Option Nat) :
    (d.named (.event (.stackTrace t start levels))).map (·.1) =
      (d.stackTrace t start levels).1.1.map (·.id) := by
  cases hs : d.coordinator.suspended.get? t with
  | none => simp [named, stackTrace, hs]
  | some s =>
    have hrows : (d.stackTrace t start levels).1.1.length =
        (Inspector.page (some start) levels (knownFrames t s)).length := by
      simp only [stackTrace, hs, List.length_zipWith, length_insertAll, Nat.min_self]
      rfl
    have hids := congrArg (List.map FrameRow.id) (List.map_fst_zip (Nat.le_of_eq hrows))
    rw [List.map_map] at hids
    simp only [named, hs, List.map_map]
    exact hids

/-- What shows the exception of a thread is kept until the thread is released. -/
theorem exceptions_undergo {d : Debugger C} {e : Happening C} {t : ThreadId} {v : Value}
    (hreleases : e.releases t = false) (hv : d.frames.exceptions.get? t = some v) :
    (d.undergo e).frames.exceptions.get? t = some v := by
  by_cases hlists : ∃ u start levels, e = .event (.stackTrace u start levels)
  · obtain ⟨u, start, levels, rfl⟩ := hlists
    rw [undergo_of_not_blocked rfl, after]
    cases hs : d.coordinator.suspended.get? u with
    | none => simpa [stackTrace, hs] using hv
    | some s =>
      rw [stackTrace_frames hs, exceptions_insertAll]
      exact hv
  · exact (shed_undergo d fun u start levels he => hlists ⟨u, start, levels, he⟩).exceptions t v
      hreleases hv

/-! ## The tables and the record -/

/-- The tables agree with the record. -/
structure Framed (c : Coordinator C) (k : KnownFrames) (g : List (Naming C)) : Prop where
  gated : ∀ t s, c.suspended.get? t = some s → s.gate < c.gates
  recorded : ∀ id s f, (id, s, f) ∈ g →
    id ≤ k.lastId ∧ s.gate < c.gates ∧ f ∈ knownFrames f.thread s
  unique : ∀ x ∈ g, ∀ y ∈ g, x.1 = y.1 ↔ x.2 = y.2
  found : ∀ id f, k.frames.get? id = some f →
    ∃ s, c.suspended.get? f.thread = some s ∧ (id, s, f) ∈ g
  placed : ∀ p id, k.byPosition.get? p = some id →
    ∃ s f, c.suspended.get? f.thread = some s ∧ (id, s, f) ∈ g ∧ (f.thread, f.index) = p
  current : ∀ id s f, (id, s, f) ∈ g → c.suspended.get? f.thread = some s →
    k.frames.get? id = some f ∧ k.byPosition.get? (f.thread, f.index) = some id

theorem framed_new (c : Coordinator C) (h : c.suspended = ∅) : Framed c .new [] where
  gated := by simp [h]
  recorded := by simp
  unique := by simp
  found := by simp [KnownFrames.new]
  placed := by simp [KnownFrames.new]
  current := by simp

namespace Framed
variable {c c' : Coordinator C} {k k' : KnownFrames} {g : List (Naming C)} {s : Suspension C}
  {f : KnownFrame}

/-- A frame that is listed again is noted as it was. -/
theorem again (h : Framed c k g) {id : Int} (hs : c.suspended.get? f.thread = some s)
    (hf : f ∈ knownFrames f.thread s)
    (hid : k.byPosition.get? (f.thread, f.index) = some id) :
    (id, s, f) ∈ g ∧ k.frames.get? id = some f := by
  obtain ⟨s', f', hs', hmem, hplace⟩ := h.placed _ id hid
  obtain ⟨hthread, hindex⟩ := Prod.mk.inj hplace
  rw [hthread, hs] at hs'
  obtain rfl := Option.some.inj hs'
  have hf' := (h.recorded id s f' hmem).2.2
  rw [hthread] at hf'
  obtain rfl := eq_of_index_eq hf' hf hindex
  exact ⟨hmem, (h.current id s f' hmem hs).1⟩

theorem insert_again (h : Framed c k g) (hs : c.suspended.get? f.thread = some s)
    (hf : f ∈ knownFrames f.thread s) {id : Int}
    (hid : k.byPosition.get? (f.thread, f.index) = some id) :
    Framed c (k.insert f).2 (g ++ [((k.insert f).1, s, f)]) := by
  obtain ⟨hmem, hfound⟩ := h.again hs hf hid
  have hsame : ∀ x, x ∈ g ++ [(id, s, f)] ↔ x ∈ g := by
    intro x
    rw [List.mem_append, List.mem_singleton]
    exact or_iff_left_of_imp fun hx => hx ▸ hmem
  have hframes : ∀ x, (k.frames.insert id f).get? x = k.frames.get? x := by
    intro x
    rw [Table.get?_insert]
    split
    · rename_i hx
      rw [hx, hfound]
    · rfl
  simp only [KnownFrames.insert, hid]
  refine ⟨h.gated, ?_, ?_, ?_, ?_, ?_⟩
  · simpa only [hsame] using h.recorded
  · simpa only [hsame] using h.unique
  · simpa only [hsame, hframes] using h.found
  · simpa only [hsame] using h.placed
  · simpa only [hsame, hframes] using h.current

theorem insert_new (h : Framed c k g) (hs : c.suspended.get? f.thread = some s)
    (hf : f ∈ knownFrames f.thread s) (hid : k.byPosition.get? (f.thread, f.index) = none) :
    Framed c (k.insert f).2 (g ++ [((k.insert f).1, s, f)]) := by
  simp only [KnownFrames.insert, hid]
  have hmem : ∀ {x : Naming C}, x ∈ g ++ [(k.lastId + 1, s, f)] ↔
      x ∈ g ∨ x = (k.lastId + 1, s, f) := by simp
  have hnew : ∀ x ∈ g, x.1 ≠ k.lastId + 1 := by
    rintro ⟨id, s', f'⟩ hx
    have := (h.recorded id s' f' hx).1
    omega
  have hother : ∀ x ∈ g, x.2 ≠ (s, f) := by
    rintro ⟨id, s', f'⟩ hx heq
    obtain ⟨rfl, rfl⟩ := Prod.mk.inj heq
    rw [(h.current id s' f' hx hs).2] at hid
    contradiction
  refine ⟨h.gated, ?_, ?_, ?_, ?_, ?_⟩
  · intro id s' f' hx
    rcases hmem.mp hx with hx | hx
    · obtain ⟨hlast, hrest⟩ := h.recorded id s' f' hx
      exact ⟨Int.le_add_one hlast, hrest⟩
    · cases hx
      exact ⟨Int.le_refl _, h.gated _ _ hs, hf⟩
  · intro x hx y hy
    rcases hmem.mp hx with hx | rfl <;> rcases hmem.mp hy with hy | rfl
    · exact h.unique x hx y hy
    · exact iff_of_false (hnew x hx) (hother x hx)
    · exact iff_of_false (hnew y hy).symm (hother y hy).symm
    · simp
  · intro id f' hid'
    rw [Table.get?_insert] at hid'
    split at hid'
    · rename_i heq
      cases hid'
      exact ⟨s, hs, hmem.mpr (Or.inr (heq ▸ rfl))⟩
    · obtain ⟨s', hs', hx⟩ := h.found id f' hid'
      exact ⟨s', hs', hmem.mpr (Or.inl hx)⟩
  · intro p id hp
    rw [Table.get?_insert] at hp
    split at hp
    · rename_i heq
      cases hp
      exact ⟨s, f, hs, hmem.mpr (Or.inr rfl), heq.symm⟩
    · obtain ⟨s', f', hs', hx, hplace⟩ := h.placed p id hp
      exact ⟨s', f', hs', hmem.mpr (Or.inl hx), hplace⟩
  · intro id s' f' hx hs'
    simp only [Table.get?_insert]
    rcases hmem.mp hx with hx | hx
    · obtain ⟨hframe, hplace⟩ := h.current id s' f' hx hs'
      have hapart : (f'.thread, f'.index) ≠ (f.thread, f.index) := by
        intro heq
        rw [heq, hid] at hplace
        contradiction
      rw [if_neg (hnew _ hx), if_neg hapart]
      exact ⟨hframe, hplace⟩
    · cases hx
      simp

theorem insert (h : Framed c k g) (hs : c.suspended.get? f.thread = some s)
    (hf : f ∈ knownFrames f.thread s) :
    Framed c (k.insert f).2 (g ++ [((k.insert f).1, s, f)]) := by
  cases hid : k.byPosition.get? (f.thread, f.index) with
  | some id => exact h.insert_again hs hf hid
  | none => exact h.insert_new hs hf hid

theorem insertAll (h : Framed c k g) {fs : List KnownFrame} {t : ThreadId}
    (hs : c.suspended.get? t = some s) (hfs : ∀ f ∈ fs, f ∈ knownFrames t s) :
    Framed c (k.insertAll fs).2 (g ++ ((k.insertAll fs).1.zip fs).map fun p => (p.1, s, p.2)) := by
  induction fs generalizing k g with
  | nil => simpa [KnownFrames.insertAll] using h
  | cons f fs ih =>
    have hf := hfs f List.mem_cons_self
    obtain rfl := thread_of_mem_knownFrames hf
    have hrest := ih (h.insert hs hf) fun f' hf' => hfs f' (List.mem_cons_of_mem _ hf')
    rw [List.append_assoc] at hrest
    exact hrest

/-- The record fits to tables that shed the threads that are released. -/
theorem shed (h : Framed c k g) {released : ThreadId → Bool}
    (hk : KnownFrames.Shed released k k')
    (hturn : ∀ t, Coordinator.Turn c c' t (released t)) : Framed c' k' g := by
  have hstays : ∀ {t : ThreadId} {s : Suspension C}, released t = false →
      c.suspended.get? t = some s → c'.suspended.get? t = some s := by
    intro t s ht
    exact Coordinator.Turn.stays (ht ▸ hturn t)
  refine ⟨?_, ?_, h.unique, ?_, ?_, ?_⟩
  · intro t s hs
    rcases ((hturn t).of_waiting hs).2 with hwaited | ⟨hgate, hgates⟩
    · exact Nat.lt_of_lt_of_le (h.gated t s hwaited) (hturn t).gates_le
    · omega
  · intro id s f hx
    obtain ⟨hid, hgate, hf⟩ := h.recorded id s f hx
    exact ⟨hk.lastId ▸ hid, Nat.lt_of_lt_of_le hgate (hturn f.thread).gates_le, hf⟩
  · intro id f hid
    rw [hk.frames, Option.filter_eq_some_iff] at hid
    obtain ⟨s, hs, hx⟩ := h.found id f hid.1
    exact ⟨s, hstays (by simpa using hid.2) hs, hx⟩
  · intro p id hp
    rw [hk.byPosition, Option.filter_eq_some_iff] at hp
    obtain ⟨s, f, hs, hx, rfl⟩ := h.placed p id hp.1
    exact ⟨s, f, hstays (by simpa using hp.2) hs, hx, rfl⟩
  · intro id s f hx hs
    obtain ⟨hreleased, hbefore⟩ := (hturn f.thread).of_waiting hs
    -- Whoever has just come is behind a gate that is not in the record.
    have hwaited := hbefore.resolve_right fun hnew =>
      Nat.ne_of_lt (h.recorded id s f hx).2.1 hnew.1
    obtain ⟨hframe, hplace⟩ := h.current id s f hx hwaited
    rw [hk.frames, hk.byPosition, hframe, hplace]
    simp [Option.filter_some, hreleased]

theorem undergo {d : Debugger C} (h : Framed d.coordinator d.frames g) (e : Happening C) :
    Framed (d.undergo e).coordinator (d.undergo e).frames (g ++ d.named e) := by
  by_cases hlists : ∃ t start levels, e = .event (.stackTrace t start levels)
  · obtain ⟨t, start, levels, rfl⟩ := hlists
    rw [undergo_of_not_blocked rfl]
    have hcoordinator : (d.after (.stackTrace t start levels)).coordinator = d.coordinator :=
      (stackTrace_unmoved d t start levels).1
    rw [hcoordinator]
    cases hs : d.coordinator.suspended.get? t with
    | none => simpa [after, stackTrace, named, hs] using h
    | some s =>
      rw [named_stackTrace hs, after, stackTrace_frames hs]
      exact h.insertAll hs fun f hf => (Inspector.page_sublist _ _ _).subset hf
  · have hlists' : ∀ t start levels, e ≠ .event (.stackTrace t start levels) :=
      fun t start levels he => hlists ⟨t, start, levels, he⟩
    rw [named_eq_nil hlists', List.append_nil]
    exact h.shed (shed_undergo d hlists') (turn_undergo d e)

/-- A frame stays known until its thread is released. -/
theorem get?_undergo {d : Debugger C} (h : Framed d.coordinator d.frames g) {id : Int}
    (hid : d.frames.get? id = some f) {e : Happening C} (hreleases : e.releases f.thread = false) :
    (d.undergo e).frames.get? id = some f := by
  obtain ⟨s, hs, hx⟩ := h.found id f hid
  have hturn := turn_undergo d e f.thread
  rw [hreleases] at hturn
  exact ((h.undergo e).current id s f (List.mem_append_left _ hx) (hturn.stays hs)).1

theorem through {d : Debugger C} (h : Framed d.coordinator d.frames g) (hs : List (Happening C)) :
    Framed (d.through hs).coordinator (d.through hs).frames (g ++ d.given hs) := by
  induction hs generalizing d g with
  | nil => exact (List.append_nil g).symm ▸ h
  | cons e hs ih =>
    have hrest := ih (h.undergo e)
    rw [List.append_assoc] at hrest
    exact hrest

/-- The known frames are the recorded ones of the suspensions that last. -/
theorem get?_frames (h : Framed c k g) (id : Int) (f : KnownFrame) :
    k.frames.get? id = some f ↔ ∃ s, c.suspended.get? f.thread = some s ∧ (id, s, f) ∈ g := by
  constructor
  · exact h.found id f
  · rintro ⟨s, hs, hx⟩
    exact (h.current id s f hx hs).1

end Framed

theorem framed_through (o : Options) (hs : List (Happening C)) :
    Framed ((new o : Debugger C).through hs).coordinator ((new o : Debugger C).through hs).frames
      ((new o).given hs) :=
  (framed_new (.new o.fold) rfl).through (d := new o) hs

/-! ## Suspensions that are over -/

/-- The suspension does not hold the thread, and it will not. -/
def Over (c : Coordinator C) (t : ThreadId) (s : Suspension C) : Prop :=
  c.suspended.get? t ≠ some s ∧ s.gate < c.gates

theorem Over.undergo {d : Debugger C} {t : ThreadId} {s : Suspension C}
    (h : Over d.coordinator t s) (e : Happening C) : Over (d.undergo e).coordinator t s := by
  have hturn := turn_undergo d e t
  refine ⟨?_, Nat.lt_of_lt_of_le h.2 hturn.gates_le⟩
  intro hs
  rcases (hturn.of_waiting hs).2 with hwaited | ⟨hgate, _⟩
  · exact h.1 hwaited
  · exact Nat.ne_of_lt h.2 hgate

theorem Over.through {d : Debugger C} {t : ThreadId} {s : Suspension C}
    (h : Over d.coordinator t s) (hs : List (Happening C)) :
    Over (d.through hs).coordinator t s := by
  induction hs generalizing d with
  | nil => exact h
  | cons e hs ih => exact ih (h.undergo e)

/-- Of a suspension that is over nothing is listed. -/
theorem Over.not_mem_given {d : Debugger C} {s : Suspension C} {f : KnownFrame}
    (h : Over d.coordinator f.thread s) (hs : List (Happening C)) (id : Int) :
    (id, s, f) ∉ d.given hs := by
  induction hs generalizing d with
  | nil => exact List.not_mem_nil
  | cons e hs ih =>
    rw [given, List.mem_append, not_or]
    exact ⟨fun hx => h.1 (suspended_of_mem_named hx), ih (h.undergo e)⟩

theorem Over.unknown {d : Debugger C} {g : List (Naming C)} (h : Framed d.coordinator d.frames g)
    {id : Int} {s : Suspension C} {f : KnownFrame} (hover : Over d.coordinator f.thread s)
    (hx : (id, s, f) ∈ g) : d.frames.get? id = none := by
  rw [Option.eq_none_iff_forall_ne_some]
  intro f' hf'
  obtain ⟨s', hs', hx'⟩ := h.found id f' hf'
  cases (h.unique _ hx _ hx').mp rfl
  exact hover.1 hs'

theorem evaluate_of_unknown {d : Debugger C} {id : Int} (h : d.frames.get? id = none)
    (expression : String) : d.evaluate (some id) expression = (.error (.unknownFrame id), d) := by
  simp only [evaluate, h]

omit [Context C] in
theorem scopes_of_unknown {d : Debugger C} {id : Int} (h : d.frames.get? id = none) :
    d.scopes id = ([], d) := by
  simp only [scopes, h]

/-- The threads of known frames wait, so an expression is not refused for want of its thread. -/
theorem Framed.evaluate_ne {d : Debugger C} {g : List (Naming C)}
    (h : Framed d.coordinator d.frames g) (frame : Option Int) (expression : String)
    (t : ThreadId) : (d.evaluate frame expression).1 ≠ .error (.unknownThread t) := by
  cases frame with
  | none => simp [evaluate]
  | some id =>
    cases hid : d.frames.get? id with
    | none => simp [evaluate_of_unknown hid]
    | some f =>
      obtain ⟨s, hs, _⟩ := h.found id f hid
      simp only [evaluate, hid, hs]
      split <;> simp

/-- After every history of a new debugger: the known frames are those of the threads that wait, as far
as they were listed during the same suspension, under the numbers shown then; one number is never
shown for two frames or for two suspensions, and within a suspension each frame has one number,
however often and by whatever pages the stack is listed (whatever is listed is recorded, and a page
of a waiting thread's stack lists all its frames); once a thread has been released, the numbers of its
frames are unknown to every request and are not shown again; and no expression is refused because its
thread does not wait. -/
theorem frames_named (o : Options) (hs : List (Happening C)) :
    let d := (new o : Debugger C).through hs
    let g := (new o : Debugger C).given hs
    (∀ id f, d.frames.get? id = some f ↔
      ∃ s, d.coordinator.suspended.get? f.thread = some s ∧ (id, s, f) ∈ g) ∧
    (∀ x ∈ g, ∀ y ∈ g, x.1 = y.1 ↔ x.2 = y.2) ∧
    (∀ t start levels, (d.named (.event (.stackTrace t start levels))).map (·.1) =
      (d.stackTrace t start levels).1.1.map (·.id)) ∧
    (∀ t s, d.coordinator.suspended.get? t = some s → ∀ start levels,
      (d.named (.event (.stackTrace t start levels))).map (·.2) =
        (Inspector.page (some start) levels (knownFrames t s)).map fun f => (s, f)) ∧
    (∀ before e later, hs = before ++ e :: later →
      ∀ id s f, (id, s, f) ∈ (new o : Debugger C).given before → e.releases f.thread = true →
        d.scopes id = ([], d) ∧
        (∀ expression, d.evaluate (some id) expression = (.error (.unknownFrame id), d)) ∧
        ∀ x ∈ (((new o : Debugger C).through before).undergo e).given later, x.1 ≠ id) ∧
    ∀ frame expression t, (d.evaluate frame expression).1 ≠ .error (.unknownThread t) := by
  intro d g
  have h : Framed d.coordinator d.frames g := framed_through o hs
  refine ⟨h.get?_frames, h.unique, d.named_ids, fun t s hs => named_frames hs, ?_, h.evaluate_ne⟩
  rintro before e later rfl id s f hx hreleases
  have hgiven : ∀ x, x ∈ g ↔ x ∈ (new o : Debugger C).given before ∨
      x ∈ ((new o : Debugger C).through before).named e ∨
      x ∈ (((new o : Debugger C).through before).undergo e).given later := by
    simp [g, given_append, given]
  have hover : Over (((new o : Debugger C).through before).undergo e).coordinator f.thread s := by
    have hturn := turn_undergo ((new o : Debugger C).through before) e f.thread
    rw [hreleases] at hturn
    have hgate := ((framed_through o before).recorded id s f hx).2.1
    refine ⟨?_, Nat.lt_of_lt_of_le hgate hturn.gates_le⟩
    cases hturn with
    | left hplace => simp [hplace]
  have hxg : (id, s, f) ∈ g := (hgiven _).mpr (Or.inl hx)
  have hend : Over d.coordinator f.thread s := by
    simpa [d, through] using hover.through later
  have hunknown := hend.unknown h hxg
  refine ⟨scopes_of_unknown hunknown, evaluate_of_unknown hunknown, ?_⟩
  rintro ⟨_, s', f'⟩ hx' rfl
  have hx'g := (hgiven _).mpr (Or.inr (Or.inr hx'))
  cases (h.unique _ hxg _ hx'g).mp rfl
  exact hover.not_mem_given later _ hx'

/-- A thread with two frames stops, and its stack is listed by pages and as a whole. -/
def firstStop : List (Happening DescribedThread) :=
  let thread : DescribedThread := ⟨10, "ten", [⟨"inner", "/a", 3, []⟩, ⟨"outer", "/a", 7, []⟩], []⟩
  [.event (.attach ⟨some "s", [], false⟩), .event (.report thread (.halt "/a" 3 none)),
    .event (.stackTrace 10 0 (some 1)), .event (.stackTrace 10 1 (some 1)),
    .event (.stackTrace 10 0 none)]

/-- The released thread goes on, and stops at the same place. -/
def secondStop : List (Happening DescribedThread) :=
  let thread : DescribedThread := ⟨10, "ten", [⟨"inner", "/a", 3, []⟩, ⟨"outer", "/a", 7, []⟩], []⟩
  [.takeOver, .event (.report thread (.halt "/a" 3 none)), .event (.stackTrace 10 0 none)]

theorem frames_named_stoppedAgain :
    let hs := firstStop ++ .event (.resume 10) :: secondStop
    let d := (new ⟨true, some "s", 8, none⟩ : Debugger DescribedThread).through hs
    let g := (new ⟨true, some "s", 8, none⟩ : Debugger DescribedThread).given hs
    g.map (fun x => (x.1, x.2.2.frame.function)) =
      [(1, "inner"), (2, "outer"), (1, "inner"), (2, "outer"), (3, "inner"), (4, "outer")] ∧
    (∃ f s, d.frames.get? 3 = some f ∧ d.coordinator.suspended.get? f.thread = some s) ∧
    d.scopes 1 = ([], d) ∧ d.evaluate (some 1) "x" = (.error (.unknownFrame 1), d) := by
  intro hs d g
  obtain ⟨hknown, _, _, _, hover, _⟩ := frames_named (C := DescribedThread)
    ⟨true, some "s", 8, none⟩ hs
  obtain ⟨s, f, hx, hf⟩ : ∃ s f, (1, s, f) ∈
      (new ⟨true, some "s", 8, none⟩ : Debugger DescribedThread).given firstStop ∧ f.thread = 10 :=
    ⟨_, _, List.mem_of_getElem? (i := 0) rfl, rfl⟩
  obtain ⟨hscopes, hevaluate, _⟩ := hover firstStop (.event (.resume 10)) secondStop rfl 1 s f hx
    (by rw [hf]; rfl)
  have hthird : ∃ f, d.frames.get? 3 = some f := ⟨_, rfl⟩
  obtain ⟨f', hf'⟩ := hthird
  obtain ⟨s', hs', _⟩ := (hknown 3 f').mp hf'
  exact ⟨by decide +kernel, ⟨f', s', hf', hs'⟩, hscopes, hevaluate "x"⟩

end Debugger

end DebugAdapter
