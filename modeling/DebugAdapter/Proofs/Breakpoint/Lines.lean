import DebugAdapter.Breakpoint.Line
import Mathlib.Data.List.Nodup

/-!
# Line breakpoints through their changes

The registry of line breakpoints after any list of changes. A lookup answers from a summary: it may
reject a line or a path by bounds alone, and it makes a path canonical only where a line fits.
`check_eq_find` says that none of this shows, as long as the summary belongs to the breakpoints.
`Recorded` ties the registry to the identifiers that its changes have given out; it is kept by every
change, so identifiers never repeat, whatever was removed in between.
-/

namespace DebugAdapter

/-- A bound breakpoint on a line of a canonical file. -/
def Breakpoint.covers (b : Breakpoint) (file : String) (line : Nat) : Bool :=
  b.verified && (b.line == line && b.file == file)

theorem covers_iff {b : Breakpoint} {file : String} {line : Nat} :
    b.covers file line = true ↔ b.verified = true ∧ b.line = line ∧ b.file = file := by
  simp [Breakpoint.covers]

namespace LineBreakpoints

inductive Change where
  | add (file : String) (line : Nat) (condition : Option String)
  | remove (file : String) (line : Nat)
  | clearFile (file : String)
  | clear
  | replace (file : String) (requested : List Breakpoint.Request) (valid : List Nat)

def after (r : LineBreakpoints) : Change → LineBreakpoints
  | .add file line condition => (r.add file line condition).2
  | .remove file line => (r.remove file line).2
  | .clearFile file => r.clearFile file
  | .clear => r.clear
  | .replace file requested valid => (r.replace file requested valid).2

/-- The identifiers that a change gives to its caller. -/
def given (r : LineBreakpoints) : Change → List Nat
  | .add file line condition => [(r.add file line condition).1]
  | .replace file requested valid => (r.replace file requested valid).1.map (·.id)
  | .remove _ _ | .clearFile _ | .clear => []

def run (r : LineBreakpoints) (cs : List Change) : LineBreakpoints := cs.foldl after r

/-- The identifiers given along a list of changes, in that order. -/
def issued (r : LineBreakpoints) : List Change → List Nat
  | [] => []
  | c :: cs => r.given c ++ (r.after c).issued cs

/-! ## Lookups -/

/-- A fold that goes on with the smaller of two numbers, in some order, ends below its start and
below every number on the way. -/
theorem foldl_below {R : Nat → Nat → Prop} {m : Nat → Nat → Nat} (hrefl : ∀ a, R a a)
    (htrans : ∀ {a b c}, R a b → R b c → R a c) (hleft : ∀ a b, R (m a b) a)
    (hright : ∀ a b, R (m a b) b) (f : Breakpoint → Nat) (bs : List Breakpoint) (n : Nat) :
    R (bs.foldl (fun n b => m n (f b)) n) n ∧
      ∀ b ∈ bs, R (bs.foldl (fun n b => m n (f b)) n) (f b) := by
  induction bs generalizing n with
  | nil => exact ⟨hrefl n, fun _ hb => absurd hb List.not_mem_nil⟩
  | cons a bs ih =>
    obtain ⟨hstart, hall⟩ := ih (m n (f a))
    refine ⟨htrans hstart (hleft _ _), ?_⟩
    intro b hb
    rcases List.mem_cons.mp hb with rfl | hb
    · exact htrans hstart (hright _ _)
    · exact hall b hb

/-- The bounds of a summary hold for every breakpoint that may fire. -/
theorem Summary.bounds {all : List Breakpoint} {b : Breakpoint} (hb : b ∈ all)
    (hverified : b.verified = true) :
    (Summary.of all).minLine ≤ b.line ∧ b.line ≤ (Summary.of all).maxLine ∧
      b.file.utf8ByteSize ≤ (Summary.of all).maxPathSize := by
  have hbound : b ∈ all.filter (·.verified) := List.mem_filter.mpr ⟨hb, hverified⟩
  have hmin := foldl_below (R := (· ≤ ·)) Nat.le_refl Nat.le_trans Nat.min_le_left Nat.min_le_right
  have hmax := foldl_below (R := (· ≥ ·)) Nat.le_refl (fun hab hbc => Nat.le_trans hbc hab)
    Nat.le_max_left Nat.le_max_right
  exact ⟨(hmin (·.line) _ _).2 b hbound, (hmax (·.line) _ _).2 b hbound,
    (hmax (·.file.utf8ByteSize) _ _).2 b hbound⟩

theorem Summary.find_bound (all : List Breakpoint) (file : String) (line : Nat) :
    ((Summary.of all).bound.filter (·.line == line)).find? (·.file == file) =
      all.find? (·.covers file line) := by
  simp only [Summary.of, List.find?_filter, Breakpoint.covers, Bool.and_eq_true, Bool.decide_and,
    Bool.decide_eq_true, List.filter_filter]
  congr 1
  funext b
  cases b.verified <;> cases (b.line == line) <;> rfl

/-- The answer of a lookup is that of a scan through all breakpoints: no bound rejects one that
applies. -/
theorem check_eq_find {r : LineBreakpoints} (h : r.summary = .of r.all) (file : String)
    (line : Nat) :
    r.check file line =
      (r.all.find? (·.covers (Path.canonical r.fold file) line)).map Breakpoint.hit := by
  have hscan := Summary.find_bound r.all (Path.canonical r.fold file) line
  simp only [check, h]
  cases hfind : r.all.find? (·.covers (Path.canonical r.fold file) line) with
  | none =>
    rw [hfind] at hscan
    split
    · rfl
    · split
      · rfl
      · split
        · rfl
        · rw [hscan]
  | some b =>
    -- The breakpoint found is within all bounds, so the lookup comes to the search.
    rw [hfind] at hscan
    have hcovers : b.covers (Path.canonical r.fold file) line = true :=
      List.find?_some (p := (Breakpoint.covers · (Path.canonical r.fold file) line)) hfind
    obtain ⟨hverified, hline, hfile⟩ := covers_iff.mp hcovers
    obtain ⟨hmin, hmax, hsize⟩ := Summary.bounds (List.mem_of_find?_eq_some hfind) hverified
    have hcandidate := List.mem_of_find?_eq_some hscan
    have hbound := (List.mem_filter.mp hcandidate).1
    rw [hline] at hmin hmax
    rw [hfile] at hsize
    rw [if_neg (by simp [List.ne_nil_of_mem hbound, hmin, hmax])]
    split
    · rename_i hnone
      rw [hnone] at hcandidate
      contradiction
    · rw [if_neg (Nat.not_lt.mpr hsize), hscan]

/-! ## Identifiers -/

theorem created_ids (file : String) (valid : List Nat) (id : Nat)
    (requested : List Breakpoint.Request) :
    (created file valid id requested).map (·.id) = List.range' id requested.length := by
  induction requested generalizing id with
  | nil => rfl
  | cons q qs ih => rw [created, List.map_cons, ih, List.length_cons, List.range'_succ]

theorem created_rows (file : String) (valid : List Nat) (id : Nat)
    (requested : List Breakpoint.Request) :
    (created file valid id requested).map (fun b => (b.file, b.line, b.condition, b.verified)) =
      requested.map fun q =>
        (file, q.line, q.condition.bind Text.nonBlank?, decide (q.line ∈ valid)) := by
  induction requested generalizing id with
  | nil => rfl
  | cons q qs ih => simp only [created, List.map_cons, ih, List.contains_eq_mem]

/-- The registry after changes that have given out `ids`. -/
structure Recorded (fold : Path.Folding) (r : LineBreakpoints) (ids : List Nat) : Prop where
  fold_eq : r.fold = fold
  summary : r.summary = .of r.all
  dense : ids = List.range' 1 (r.nextId - 1)
  pos : 0 < r.nextId
  kept : (r.all.map (·.id)).Sublist ids

namespace Recorded
variable {fold : Path.Folding} {r : LineBreakpoints} {ids : List Nat}

theorem new (fold : Path.Folding) : Recorded fold (.new fold) [] :=
  ⟨rfl, rfl, rfl, Nat.one_pos, .refl _⟩

theorem lt_nextId (h : Recorded fold r ids) {i : Nat} (hi : i ∈ ids) : i < r.nextId := by
  have hpos := h.pos
  rw [h.dense, List.mem_range'_1] at hi
  omega

/-- Taking breakpoints out gives no identifier free. -/
theorem filter (h : Recorded fold r ids) (p : Breakpoint → Bool) :
    Recorded fold (r.setAll (r.all.filter p)) ids where
  fold_eq := h.fold_eq
  summary := rfl
  dense := h.dense
  pos := h.pos
  kept := (List.filter_sublist.map _).trans h.kept

/-- New breakpoints come behind all others, with the next identifiers. -/
theorem append (h : Recorded fold r ids) {new : List Breakpoint}
    (hnew : new.map (·.id) = List.range' r.nextId new.length) :
    Recorded fold { r.setAll (r.all ++ new) with nextId := r.nextId + new.length }
      (ids ++ new.map (·.id)) where
  fold_eq := h.fold_eq
  summary := rfl
  dense := by
    have hpos := h.pos
    have hnext : r.nextId = 1 + (r.nextId - 1) := by omega
    have hsize : r.nextId + new.length - 1 = r.nextId - 1 + new.length := by omega
    rw [hnew, h.dense, hsize, List.range'_append_1.symm, ← hnext]
  pos := Nat.add_pos_left h.pos _
  kept := by
    change ((r.all ++ new).map (·.id)).Sublist _
    rw [List.map_append]
    exact h.kept.append (.refl _)

theorem after (h : Recorded fold r ids) (c : Change) :
    Recorded fold (r.after c) (ids ++ r.given c) := by
  cases c with
  | add file line condition => exact h.append rfl
  | remove file line =>
    rw [given, List.append_nil]
    exact h.filter _
  | clearFile file =>
    rw [given, List.append_nil]
    exact h.filter _
  | clear =>
    rw [given, List.append_nil]
    exact ⟨h.fold_eq, rfl, h.dense, h.pos, List.nil_sublist _⟩
  | replace file requested valid =>
    have hids := created_ids (Path.canonical r.fold file) valid r.nextId requested
    have hlength : (created (Path.canonical r.fold file) valid r.nextId requested).length =
        requested.length := by simpa using congrArg List.length hids
    rw [← hlength] at hids
    have happend := (h.filter fun b => b.file != Path.canonical r.fold file).append hids
    rw [hlength] at happend
    exact happend

end Recorded

theorem recorded_run {fold : Path.Folding} {r : LineBreakpoints} {ids : List Nat}
    (h : Recorded fold r ids) (cs : List Change) :
    Recorded fold (r.run cs) (ids ++ r.issued cs) := by
  induction cs generalizing r ids with
  | nil => simpa [run, issued] using h
  | cons c cs ih =>
    have hrest := ih (h.after c)
    rw [List.append_assoc] at hrest
    exact hrest

/-! ## The registry -/

/-- After any changes of a new registry: a lookup answers as a scan through all breakpoints does;
the identifiers given so far increase, and those of the breakpoints are among them, in their order;
an addition comes last, verified and under a higher identifier than all of them; a removal takes out
what names the same line, or the same file, and nothing else; a replacement answers each request by
one breakpoint, in order and verified where the line is valid; and what is not verified is never
found. -/
theorem registry_after_changes (fold : Path.Folding) (cs : List Change) :
    let r := (new fold).run cs
    let ids := (new fold).issued cs
    (∀ file line, r.check file line =
      (r.all.find? (·.covers (Path.canonical fold file) line)).map Breakpoint.hit) ∧
    ids.Pairwise (· < ·) ∧ (r.all.map (·.id)).Sublist ids ∧
    (r.all.map (·.id)).Pairwise (· < ·) ∧
    (∀ file line condition,
      let (id, r') := r.add file line condition
      r'.all = r.all ++
        [⟨id, Path.canonical fold file, line, condition.bind Text.nonBlank?, true⟩] ∧
      ∀ i ∈ ids, i < id) ∧
    (∀ file line,
      (r.remove file line).2.all =
        r.all.filter (fun b => !(b.line == line && b.file == Path.canonical fold file)) ∧
      ((r.remove file line).1 = true ↔
        ∃ b ∈ r.all, b.line = line ∧ b.file = Path.canonical fold file)) ∧
    (∀ file, (r.clearFile file).all = r.all.filter (·.file != Path.canonical fold file)) ∧
    r.clear.all = [] ∧
    (∀ file requested valid,
      let (made, r') := r.replace file requested valid
      r'.all = r.all.filter (·.file != Path.canonical fold file) ++ made ∧
      made.map (fun b => (b.file, b.line, b.condition, b.verified)) =
        requested.map fun q => (Path.canonical fold file, q.line,
          q.condition.bind Text.nonBlank?, decide (q.line ∈ valid))) ∧
    ∀ file line hit, r.check file line = some hit →
      ∀ b ∈ r.all, b.id = hit.id → b.verified = true := by
  intro r ids
  have h : Recorded fold r ids := recorded_run (.new fold) cs
  have hids : ids.Pairwise (· < ·) := by
    rw [h.dense]
    exact List.pairwise_lt_range'
  have hincreasing : (r.all.map (·.id)).Pairwise (· < ·) := hids.sublist h.kept
  have hcheck := fun file line => h.fold_eq ▸ check_eq_find h.summary file line
  refine ⟨hcheck, hids, h.kept, hincreasing, ?_, ?_, ?_, rfl, ?_, ?_⟩
  · intro file line condition
    rw [← h.fold_eq]
    exact ⟨rfl, fun i hi => h.lt_nextId hi⟩
  · intro file line
    rw [← h.fold_eq]
    refine ⟨rfl, ?_⟩
    simp only [remove, bne_iff_ne, ne_eq, List.length_filter_eq_length_iff]
    simp
  · intro file
    rw [← h.fold_eq]
    rfl
  · intro file requested valid
    rw [← h.fold_eq]
    exact ⟨rfl, created_rows _ _ _ _⟩
  · intro file line hit hhit b hb hid
    rw [hcheck] at hhit
    obtain ⟨found, hfound, rfl⟩ := Option.map_eq_some_iff.mp hhit
    have hcovers := List.find?_some
      (p := (Breakpoint.covers · (Path.canonical fold file) line)) hfound
    have hdistinct : (r.all.map (·.id)).Nodup := hincreasing.imp Nat.ne_of_lt
    have hsame := List.inj_on_of_nodup_map hdistinct hb (List.mem_of_find?_eq_some hfound) hid
    rw [hsame]
    exact (covers_iff.mp hcovers).1

end LineBreakpoints

end DebugAdapter
