import DebugAdapter.Proofs.Breakpoint.Functions
import DebugAdapter.Proofs.Text.Lowercase

/-!
# Lookups by size

A lookup is meant to be a scan for the first breakpoint that covers the function, and the sizes of
the names only a way around it.  They are when the name keeps its size in lowercase, as names in
ASCII do.  Otherwise a lookup differs from the scan exactly where the size of the name, as it is
given, is out of bounds and yet something covers the function; a breakpoint that stands alone, on an
exact name, is then never found.
-/

namespace DebugAdapter

open FunctionBreakpoint (Request)

namespace FunctionBreakpoints

/-- The first breakpoint asked for that covers a function of a component, where they are numbered
from `id` on. -/
def firstCovering (id : Nat) (requested : List Request) (function : String)
    (component : Option String) : Option Hit :=
  ((requested.zipIdx id).find? fun x => x.1.Covers function component).map fun x =>
    ⟨x.2, x.1.condition?⟩

theorem created_eq (id : Nat) (requested : List Request) :
    created id requested =
      (requested.zipIdx id).map fun x => ⟨x.2, x.1.pattern, x.1.condition?⟩ := by
  induction requested generalizing id with
  | nil => rfl
  | cons q qs ih =>
    rw [created, ih, List.zipIdx_cons, List.map_cons]
    rfl

theorem firstCovering_eq_none_iff {id : Nat} {requested : List Request} {function : String}
    {component : Option String} :
    firstCovering id requested function component = none ↔
      ∀ q ∈ requested, ¬q.Covers function component := by
  rw [firstCovering, Option.map_eq_none_iff, List.find?_eq_none]
  simp only [decide_eq_true_eq]
  constructor
  · intro h q hq
    rw [← List.zipIdx_map_fst id requested] at hq
    obtain ⟨x, hx, rfl⟩ := List.mem_map.mp hq
    exact h x hx
  · intro h x hx
    exact h x.1 (List.fst_mem_of_mem_zipIdx hx)

/-- A lookup is the scan, unless it is rejected by size alone. -/
theorem check_eq (r : FunctionBreakpoints) (requested : List Request) (function : String)
    (component : Option String) :
    (r.replace requested).2.check function component =
      if rejects (created r.nextId requested) function.utf8ByteSize then none
      else firstCovering r.nextId requested function component := by
  let matching := fun p : FunctionPattern =>
    p.matchesLower (Text.lower function) (component.map Text.lower)
  have hcovers : (fun x : Request × Nat => decide (x.1.Covers function component)) =
      fun x => matching x.1.pattern := by
    funext x
    rw [Bool.eq_iff_iff, decide_eq_true_iff]
    exact FunctionPattern.matchesLower_iff_covers.symm
  have hcheck : (r.replace requested).2.check function component =
      if rejects (created r.nextId requested) function.utf8ByteSize then none
      else ((created r.nextId requested).find? (matching ·.pattern)).map Entry.hit := rfl
  rw [hcheck, created_eq, List.find?_map, Option.map_map, firstCovering, hcovers]
  simp only [Function.comp_def, Entry.hit]

theorem check_of_withinBounds (r : FunctionBreakpoints) {requested : List Request}
    {function : String} (component : Option String) (h : WithinBounds requested function) :
    (r.replace requested).2.check function component =
      firstCovering r.nextId requested function component := by
  rw [check_eq, (rejects_eq_false_iff _ _ _).mpr h, if_neg Bool.false_ne_true]

theorem check_of_not_withinBounds (r : FunctionBreakpoints) {requested : List Request}
    {function : String} (component : Option String) (h : ¬WithinBounds requested function) :
    (r.replace requested).2.check function component = none := by
  have hrejects : rejects (created r.nextId requested) function.utf8ByteSize = true := by
    rw [← Bool.not_eq_false, rejects_eq_false_iff]
    exact h
  rw [check_eq, hrejects, if_pos rfl]

theorem withinBounds_singleton_iff {q : Request} {function : String} {component : Option String}
    (hexact : q.pattern.wildcard = false) (hcovers : q.Covers function component) :
    WithinBounds [q] function ↔ (Text.lower function).utf8ByteSize = function.utf8ByteSize := by
  constructor
  · rintro ⟨hleast, hgreatest⟩
    have hmatch : (q.pattern.component.isNone || q.pattern.component == component.map Text.lower) &&
        (if q.pattern.wildcard then q.pattern.name.toList.isPrefixOf (Text.lower function).toList
          else q.pattern.name == Text.lower function) :=
      FunctionPattern.matchesLower_iff_covers.mpr hcovers
    have hname := (Bool.and_eq_true _ _ ▸ hmatch).2
    rw [hexact, if_neg Bool.false_ne_true, beq_iff_eq] at hname
    rw [← hname]
    -- Both bounds are the size of the only name.
    simp only [List.mem_singleton, exists_eq_left, hexact, Bool.false_eq_true, false_or] at hleast hgreatest
    exact Nat.le_antisymm hleast hgreatest
  · exact WithinBounds.of_covers (List.mem_singleton_self q) hcovers

/-- A lookup agrees with the scan exactly if the size of the name is within bounds or nothing covers
the function; so it does whenever lowercase keeps the size of the name.  One exact name finds the
function that it names only then. -/
theorem check_eq_firstCovering_iff (r : FunctionBreakpoints) (requested : List Request)
    (function : String) (component : Option String) :
    ((r.replace requested).2.check function component =
        firstCovering r.nextId requested function component ↔
      WithinBounds requested function ∨ ∀ q ∈ requested, ¬q.Covers function component) ∧
    (¬WithinBounds requested function →
      (r.replace requested).2.check function component = none) ∧
    ((Text.lower function).utf8ByteSize = function.utf8ByteSize →
      (r.replace requested).2.check function component =
        firstCovering r.nextId requested function component) ∧
    ∀ q, q.pattern.wildcard = false → q.Covers function component →
      ((r.replace [q]).2.check function component = some ⟨r.nextId, q.condition?⟩ ↔
        (Text.lower function).utf8ByteSize = function.utf8ByteSize) := by
  have hagrees : (r.replace requested).2.check function component =
      firstCovering r.nextId requested function component ↔
      WithinBounds requested function ∨ ∀ q ∈ requested, ¬q.Covers function component := by
    constructor
    · intro heq
      by_cases hwithin : WithinBounds requested function
      · exact Or.inl hwithin
      · rw [check_of_not_withinBounds r component hwithin] at heq
        exact Or.inr (firstCovering_eq_none_iff.mp heq.symm)
    · intro h
      by_cases hwithin : WithinBounds requested function
      · exact check_of_withinBounds r component hwithin
      · rw [check_of_not_withinBounds r component hwithin]
        exact (firstCovering_eq_none_iff.mpr (h.resolve_left hwithin)).symm
  refine ⟨hagrees, check_of_not_withinBounds r component, ?_, ?_⟩
  · intro hsize
    apply hagrees.mpr
    by_cases hcovered : ∃ q ∈ requested, q.Covers function component
    · obtain ⟨q, hq, hcovers⟩ := hcovered
      exact Or.inl (WithinBounds.of_covers hq hcovers hsize)
    · exact Or.inr fun q hq hcovers => hcovered ⟨q, hq, hcovers⟩
  · intro q hexact hcovers
    rw [← withinBounds_singleton_iff hexact hcovers]
    constructor
    · intro hfound
      by_contra hwithout
      rw [check_of_not_withinBounds r component hwithout] at hfound
      cases hfound
    · intro hwithin
      rw [check_of_withinBounds r component hwithin, firstCovering, List.zipIdx_singleton,
        List.find?_cons_of_pos]
      · rfl
      · exact decide_eq_true hcovers

/-- A name in ASCII keeps its size: the first of three breakpoints does not cover the function, and
the second answers. -/
theorem check_eq_firstCovering_iff_ascii :
    let requested : List Request := [⟨"off*", none⟩, ⟨"Cart.onLoad", some "x"⟩, ⟨"ON*", none⟩]
    (Text.lower "OnLoad").utf8ByteSize = "OnLoad".utf8ByteSize ∧
      firstCovering 1 requested "OnLoad" (some "cart") = some ⟨2, some "x"⟩ ∧
      (new.replace requested).2.check "OnLoad" (some "cart") = some ⟨2, some "x"⟩ := by
  intro requested
  have hsize : (Text.lower "OnLoad").utf8ByteSize = "OnLoad".utf8ByteSize := by decide
  have hfirst : firstCovering 1 requested "OnLoad" (some "cart") = some ⟨2, some "x"⟩ := by decide
  have hcheck := (check_eq_firstCovering_iff new requested "OnLoad" (some "cart")).2.2.1 hsize
  exact ⟨hsize, hfirst, hcheck.trans hfirst⟩

/-- The sign for kelvins is longer than its small letter, and the A with a stroke is shorter than
its own: breakpoints on exactly these names cover the functions of the same names and do not find
them, although a scan would. -/
theorem sizes_drop_matches :
    firstCovering 1 [⟨"\u212a", none⟩] "\u212a" none = some ⟨1, none⟩ ∧
    (new.replace [⟨"\u212a", none⟩]).2.check "\u212a" none = none ∧
    firstCovering 1 [⟨"\u023a", none⟩] "\u023a" none = some ⟨1, none⟩ ∧
    (new.replace [⟨"\u023a", none⟩]).2.check "\u023a" none = none := by
  refine ⟨by decide, rfl, by decide, rfl⟩

end FunctionBreakpoints

end DebugAdapter
