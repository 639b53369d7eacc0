import DebugAdapter.Breakpoint.Function
import Mathlib.Data.List.Basic
import Mathlib.Data.List.Induction

/-!
# Function breakpoints by name

What the written name of a function breakpoint stands for, said without its pattern: the last dot
sets a component off, stars at the end leave the continuation open, and letters count without their
case. `matchesLower_iff_covers` says that patterns decide it.

A lookup compares the size of the function's name, as it is given, with sizes of names in lowercase
(`WithinBounds`) and answers for the first breakpoint that covers the function. The bounds reject
none that does where lowercase keeps the size of the name, but letters exist that grow or shrink.
-/

namespace DebugAdapter

/-- A written name as a component and the name inside it. A dot in front of everything sets nothing
off. -/
inductive Qualified : List Char → Option (List Char) → List Char → Prop where
  | plain {name : List Char} (h : '.' ∉ name.tail) : Qualified name none name
  | inside {component name : List Char} (hcomponent : component ≠ []) (hname : '.' ∉ name) :
    Qualified (component ++ '.' :: name) (some component) name

/-- A name as its stem and the number of stars behind it. -/
structure Starred (name stem : List Char) (stars : Nat) : Prop where
  eq : name = stem ++ List.replicate stars '*'
  last : stem.getLast? ≠ some '*'

/-- The breakpoint asked for stands for a function of a component. -/
def FunctionBreakpoint.Request.Covers (q : FunctionBreakpoint.Request) (function : String)
    (component : Option String) : Prop :=
  ∃ within name stem stars, Qualified (Text.trimChars q.name.toList) within name ∧
    Starred name stem stars ∧
    (∀ k ∈ within, component.map (Text.lowerChars ·.toList) = some (Text.lowerChars k)) ∧
    if stars = 0 then Text.lowerChars stem = Text.lowerChars function.toList
    else Text.lowerChars stem <+: Text.lowerChars function.toList

theorem exists_qualified (written : List Char) : ∃ within name, Qualified written within name := by
  by_cases hdot : '.' ∈ written.tail
  · cases written with
    | nil => contradiction
    | cons c rest =>
      rw [List.tail_cons] at hdot
      -- The first dot from the end is the one that sets the component off.
      obtain ⟨behind, before, hsplit, hbehind⟩ :=
        List.eq_append_cons_of_mem (List.mem_reverse.mpr hdot)
      have hrest : rest = before.reverse ++ '.' :: behind.reverse := by
        simpa using congrArg List.reverse hsplit
      refine ⟨some (c :: before.reverse), behind.reverse, ?_⟩
      rw [hrest, ← List.cons_append]
      exact .inside (List.cons_ne_nil _ _) (by simpa using hbehind)
  · exact ⟨none, written, .plain hdot⟩

theorem exists_starred (name : List Char) : ∃ stem stars, Starred name stem stars := by
  induction name using List.reverseRecOn with
  | nil => exact ⟨[], 0, rfl, by simp⟩
  | append_singleton cs c ih =>
    by_cases hc : c = '*'
    · obtain ⟨stem, stars, rfl, hlast⟩ := ih
      refine ⟨stem, stars + 1, ?_, hlast⟩
      rw [hc, List.append_assoc, List.replicate_succ']
    · exact ⟨cs ++ [c], 0, by simp, by simpa using hc⟩

theorem Starred.dropTrailing_eq {name stem : List Char} {stars : Nat} (h : Starred name stem stars) :
    Text.dropTrailing (· == '*') name = stem := by
  rw [h.eq]
  apply Text.dropTrailing_append
  · intro c hc
    exact beq_iff_eq.mpr (List.eq_of_mem_replicate hc)
  · intro c hc
    have hlast := h.last
    rw [hc] at hlast
    simpa using hlast

theorem Starred.getLast?_eq {name stem : List Char} {stars : Nat} (h : Starred name stem stars) :
    (name.getLast? == some '*') = decide (stars ≠ 0) := by
  rw [h.eq]
  cases stars with
  | zero => simpa using h.last
  | succ n => simp [List.replicate_succ']

theorem Qualified.afterLast_eq {written name : List Char} {within : Option (List Char)}
    (h : Qualified written within name) :
    let last := Text.afterLast (· == '.') written
    let before := written.take (written.length - last.length - 1)
    (if last.length < written.length && !before.isEmpty then
      (some (Text.lower (String.ofList before)), last)
    else (none, written)) = (within.map fun k => Text.lower (String.ofList k), name) := by
  intro last before
  cases h with
  | plain h =>
    by_cases hdot : '.' ∈ written
    · -- The only dot comes first, so nothing stands before it.
      cases written with
      | nil => contradiction
      | cons c rest =>
        have hc : c = '.' := by
          rcases List.mem_cons.mp hdot with hc | hrest
          · exact hc.symm
          · exact absurd hrest h
        have hlast : last = rest := by
          apply Text.afterLast_append_cons [] (by simp [hc])
          intro x hx
          have : x ≠ '.' := fun e => h (e ▸ hx)
          simpa using this
        simp [before, hlast]
    · have hlast : last = written := by
        apply Text.afterLast_eq_self
        intro x hx
        have : x ≠ '.' := fun e => hdot (e ▸ hx)
        simpa using this
      simp [hlast]
  | @inside component name hcomponent hname =>
    have hlast : last = name := by
      apply Text.afterLast_append_cons component rfl
      intro x hx
      have : x ≠ '.' := fun e => hname (e ▸ hx)
      simpa using this
    have hbefore : before = component := by
      have hcut : (component ++ '.' :: name).length - name.length - 1 = component.length := by
        simp
        omega
      simp only [before, hlast, hcut, List.take_left]
    rw [hlast, hbefore, if_pos]
    · rfl
    · simp [hcomponent]
      omega

namespace FunctionPattern

theorem ofName_eq {written : String} {within : Option (List Char)} {name stem : List Char}
    {stars : Nat} (hqualified : Qualified written.toList within name)
    (hstarred : Starred name stem stars) :
    ofName written =
      { name := Text.lower (String.ofList stem)
        component := within.map fun k => Text.lower (String.ofList k)
        wildcard := decide (stars ≠ 0) } := by
  simp only [ofName, hqualified.afterLast_eq, hstarred.dropTrailing_eq, hstarred.getLast?_eq]

theorem matchesLower_iff_covers {q : FunctionBreakpoint.Request} {function : String}
    {component : Option String} :
    (ofName (Text.trim q.name)).matchesLower (Text.lower function) (component.map Text.lower) = true ↔
      q.Covers function component := by
  have htrimmed : (Text.trim q.name).toList = Text.trimChars q.name.toList := String.toList_ofList
  -- However the name is taken apart, the pattern is the same, so any decomposition will do.
  have hmatch : ∀ {within name stem stars}, Qualified (Text.trimChars q.name.toList) within name →
      Starred name stem stars →
      ((ofName (Text.trim q.name)).matchesLower (Text.lower function)
        (component.map Text.lower) = true ↔
      (∀ k ∈ within, component.map (Text.lowerChars ·.toList) = some (Text.lowerChars k)) ∧
        if stars = 0 then Text.lowerChars stem = Text.lowerChars function.toList
        else Text.lowerChars stem <+: Text.lowerChars function.toList) := by
    intro within name stem stars hqualified hstarred
    rw [← htrimmed] at hqualified
    rw [ofName_eq hqualified hstarred, matchesLower, Bool.and_eq_true]
    apply and_congr
    · cases within with
      | none => simp
      | some k =>
        cases component with
        | none => simp
        | some c => simpa [Text.lower, String.ofList_inj] using eq_comm
    · by_cases hstars : stars = 0
      · simp [hstars, Text.lower, String.ofList_inj]
      · simp [hstars, Text.lower]
  constructor
  · intro h
    obtain ⟨within, name, hqualified⟩ := exists_qualified (Text.trimChars q.name.toList)
    obtain ⟨stem, stars, hstarred⟩ := exists_starred name
    exact ⟨within, name, stem, stars, hqualified, hstarred, (hmatch hqualified hstarred).mp h⟩
  · rintro ⟨within, name, stem, stars, hqualified, hstarred, h⟩
    exact (hmatch hqualified hstarred).mpr h

end FunctionPattern

/-! ## Lookups -/

namespace FunctionBreakpoint.Request

def pattern (q : Request) : FunctionPattern := .ofName (Text.trim q.name)

/-- The condition, unless it is blank. -/
def condition? (q : Request) : Option String := q.condition.bind Text.nonBlank?

instance (q : Request) (function : String) (component : Option String) :
    Decidable (q.Covers function component) :=
  decidable_of_iff _ FunctionPattern.matchesLower_iff_covers

end FunctionBreakpoint.Request

open FunctionBreakpoint (Request)

/-- The size of a function's name lies between two sizes of names asked for, in lowercase and
without their stars; a star lifts the upper bound. -/
structure WithinBounds (requested : List Request) (function : String) : Prop where
  least : ∃ q ∈ requested, q.pattern.name.utf8ByteSize ≤ function.utf8ByteSize
  greatest : ∃ q ∈ requested, q.pattern.wildcard = true ∨
    function.utf8ByteSize ≤ q.pattern.name.utf8ByteSize

theorem utf8ByteSize_le_of_prefix {s t : String} (h : s.toList <+: t.toList) :
    s.utf8ByteSize ≤ t.utf8ByteSize := by
  obtain ⟨rest, hrest⟩ := h
  have ht : t = s ++ String.ofList rest := by
    rw [← String.toList_inj, String.toList_append, String.toList_ofList, hrest]
  rw [ht, String.utf8ByteSize_append]
  exact Nat.le_add_right _ _

theorem WithinBounds.of_covers {requested : List Request} {function : String}
    {component : Option String} {q : Request} (hq : q ∈ requested)
    (hcovers : q.Covers function component)
    (hsize : (Text.lower function).utf8ByteSize = function.utf8ByteSize) :
    WithinBounds requested function := by
  have hmatch : (q.pattern.component.isNone || q.pattern.component == component.map Text.lower) &&
      (if q.pattern.wildcard then q.pattern.name.toList.isPrefixOf (Text.lower function).toList
        else q.pattern.name == Text.lower function) := FunctionPattern.matchesLower_iff_covers.mpr hcovers
  have hname := (Bool.and_eq_true _ _ ▸ hmatch).2
  cases hwildcard : q.pattern.wildcard with
  | true =>
    rw [hwildcard, if_pos rfl, List.isPrefixOf_iff_prefix] at hname
    have hle := utf8ByteSize_le_of_prefix hname
    rw [hsize] at hle
    exact ⟨⟨q, hq, hle⟩, q, hq, Or.inl hwildcard⟩
  | false =>
    rw [hwildcard, if_neg Bool.false_ne_true, beq_iff_eq] at hname
    have heq : q.pattern.name.utf8ByteSize = function.utf8ByteSize := by rw [hname, hsize]
    exact ⟨⟨q, hq, Nat.le_of_eq heq⟩, q, hq, Or.inr (Nat.le_of_eq heq.symm)⟩

namespace FunctionBreakpoints

theorem any_leastSize {entries : List Entry} (h : entries ≠ []) (n : Nat) :
    (leastSize entries).any (n < ·) = false ↔
      ∃ e ∈ entries, e.pattern.name.utf8ByteSize ≤ n := by
  have hnonempty : entries.map (·.pattern.name.utf8ByteSize) ≠ [] := by simpa using h
  obtain ⟨least, hleast⟩ := Option.isSome_iff_exists.mp (List.isSome_min?_of_ne_nil hnonempty)
  obtain ⟨hmem, hle⟩ := List.min?_eq_some_iff.mp hleast
  rw [leastSize, hleast]
  simp only [Option.any_some, decide_eq_false_iff_not, Nat.not_lt]
  constructor
  · intro hn
    obtain ⟨e, he, rfl⟩ := List.mem_map.mp hmem
    exact ⟨e, he, hn⟩
  · rintro ⟨e, he, hn⟩
    exact Nat.le_trans (hle _ (List.mem_map_of_mem he)) hn

theorem any_foldl_widen (entries : List Entry) (bound : Option Nat) (n : Nat) :
    (entries.foldl widen bound).any (· < n) = false ↔
      bound.any (· < n) = false ∨
        ∃ e ∈ entries, e.pattern.wildcard = true ∨ n ≤ e.pattern.name.utf8ByteSize := by
  induction entries generalizing bound with
  | nil => simp
  | cons e entries ih =>
    rw [List.foldl_cons, ih]
    have hwiden : (widen bound e).any (· < n) = false ↔ bound.any (· < n) = false ∨
        e.pattern.wildcard = true ∨ n ≤ e.pattern.name.utf8ByteSize := by
      unfold widen
      split
      · rename_i hwildcard
        simp [hwildcard]
      · rename_i hexact
        cases bound with
        | none => simp
        | some b =>
          simp [hexact]
          omega
    rw [hwiden, List.exists_mem_cons_iff, or_assoc]

theorem created_rows (id : Nat) (requested : List Request) :
    (created id requested).map (fun e => (e.pattern, e.condition)) =
      requested.map fun q => (q.pattern, q.condition?) := by
  induction requested generalizing id with
  | nil => rfl
  | cons q qs ih =>
    rw [created, List.map_cons, ih]
    rfl

theorem exists_created {P : FunctionPattern → Prop} (id : Nat) (requested : List Request) :
    (∃ e ∈ created id requested, P e.pattern) ↔ ∃ q ∈ requested, P q.pattern := by
  have hrows : (∃ x ∈ (created id requested).map (fun e => (e.pattern, e.condition)), P x.1) ↔
      ∃ x ∈ requested.map (fun q => (q.pattern, q.condition?)), P x.1 := by
    rw [created_rows]
  simpa using hrows

theorem find_created (p : FunctionPattern → Bool) (id : Nat) (requested : List Request) :
    ((created id requested).find? (p ·.pattern)).map (·.condition) =
      (requested.find? (p ·.pattern)).map (·.condition?) := by
  have hrows := congrArg (fun xs => (xs.find? (p ·.1)).map (·.2)) (created_rows id requested)
  simpa [List.find?_map, Function.comp_def] using hrows

/-- The lookup among the breakpoints asked for is rejected by size alone. -/
def rejects (entries : List Entry) (size : Nat) : Bool :=
  entries.isEmpty || (leastSize entries).any (size < ·) ||
    (entries.foldl widen (some 0)).any (· < size)

theorem rejects_eq_false_iff (id : Nat) (requested : List Request) (function : String) :
    rejects (created id requested) function.utf8ByteSize = false ↔
      WithinBounds requested function := by
  by_cases h : requested = []
  · subst h
    simp only [created, rejects, List.isEmpty_nil, Bool.true_or, Bool.true_eq_false, false_iff]
    rintro ⟨⟨q, hq, _⟩, _⟩
    contradiction
  have hcreated : created id requested ≠ [] := by
    intro hnil
    have hrows := created_rows id requested
    rw [hnil, List.map_nil] at hrows
    exact h (List.map_eq_nil_iff.mp hrows.symm)
  rw [rejects, Bool.or_eq_false_iff, Bool.or_eq_false_iff, any_leastSize hcreated, any_foldl_widen,
    List.isEmpty_eq_false_iff, and_iff_right hcreated,
    exists_created (P := fun p => p.name.utf8ByteSize ≤ function.utf8ByteSize),
    exists_created (P := fun p => p.wildcard = true ∨ function.utf8ByteSize ≤ p.name.utf8ByteSize)]
  constructor
  · rintro ⟨hleast, hzero | hgreatest⟩
    · -- A name of size nothing is not longer than any other.
      obtain ⟨q, hq, hsize⟩ := hleast
      have hnothing : function.utf8ByteSize = 0 := by simpa using hzero
      exact ⟨⟨q, hq, hsize⟩, q, hq, Or.inr (by omega)⟩
    · exact ⟨hleast, hgreatest⟩
  · rintro ⟨hleast, hgreatest⟩
    exact ⟨hleast, Or.inr hgreatest⟩

/-- A lookup finds something with a condition exactly if the size of the name is within bounds and
the condition is that of the first breakpoint that covers the function. -/
theorem check_condition (r : FunctionBreakpoints) (requested : List Request) (function : String)
    (component : Option String) (condition : Option String) :
    (∃ hit, (r.replace requested).2.check function component = some hit ∧
      hit.condition = condition) ↔
    WithinBounds requested function ∧
      ∃ q, (requested.filter (·.Covers function component)).head? = some q ∧
        q.condition? = condition := by
  let matching := fun p : FunctionPattern =>
    p.matchesLower (Text.lower function) (component.map Text.lower)
  have hcovers : (fun q : Request => decide (q.Covers function component)) =
      fun q => matching q.pattern := by
    funext q
    rw [Bool.eq_iff_iff, decide_eq_true_iff]
    exact FunctionPattern.matchesLower_iff_covers.symm
  have hcheck : (r.replace requested).2.check function component =
      if rejects (created r.nextId requested) function.utf8ByteSize then none
      else ((created r.nextId requested).find? (matching ·.pattern)).map Entry.hit := rfl
  have hfind := find_created matching r.nextId requested
  rw [hcheck, List.head?_filter, hcovers]
  cases hrejects : rejects (created r.nextId requested) function.utf8ByteSize with
  | true =>
    have hwithout : ¬WithinBounds requested function := by
      rw [← rejects_eq_false_iff r.nextId, hrejects]
      exact Bool.noConfusion
    simp [hwithout]
  | false =>
    rw [and_iff_right ((rejects_eq_false_iff _ _ _).mp hrejects), if_neg Bool.false_ne_true]
    rw [← Option.map_eq_some_iff, ← Option.map_eq_some_iff, ← hfind, Option.map_map]
    rfl

end FunctionBreakpoints

end DebugAdapter
