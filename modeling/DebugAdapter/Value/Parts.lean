import DebugAdapter.Value.Basic
import Std.Data.TreeMap

/-!
# What is held

A value is alive while it is held or part, at any depth, of something that is held.  Values that are
shared are gathered once, so gathering takes as long as there are values, however often they occur.
-/

namespace DebugAdapter

/-- Identities by region, offset and use. -/
instance : Ord Identity where
  compare := compareLex (compareOn (·.address.region))
    (compareLex (compareOn (·.address.offset)) (compareOn (·.use)))

theorem compare_identity (i j : Identity) :
    compare i j = (compare i.address.region j.address.region).then
      ((compare i.address.offset j.address.offset).then (compare i.use j.use)) := rfl

instance : Std.TransOrd Identity :=
  inferInstanceAs (Std.TransCmp (compareLex (compareOn fun i : Identity => i.address.region)
    (compareLex (compareOn (·.address.offset)) (compareOn (·.use)))))

instance : Std.LawfulEqOrd Identity where
  compare_self := Std.ReflCmp.compare_self
  eq_of_compare {i j} h := by
    obtain ⟨⟨_, _⟩, _⟩ := i
    obtain ⟨⟨_, _⟩, _⟩ := j
    simpa [compare_identity, Ordering.then_eq_eq, and_assoc] using h

namespace Value

theorem sizeOf_append_lt (xs ys : List Value) : sizeOf (xs ++ ys) < sizeOf xs + sizeOf ys := by
  induction xs with
  | nil => simp
  | cons x xs ih => simp; omega

theorem sizeOf_snd_le (fields : List (String × Value)) :
    sizeOf (fields.map (·.2)) ≤ sizeOf fields := by
  induction fields with
  | nil => simp
  | cons f fields ih => obtain ⟨name, v⟩ := f; simp; omega

theorem sizeOf_flatten_le (rows : List (List Value)) : sizeOf rows.flatten ≤ sizeOf rows := by
  induction rows with
  | nil => simp
  | cons r rows ih =>
    have := sizeOf_append_lt r rows.flatten
    simp only [List.flatten_cons, List.cons.sizeOf_spec]
    omega

theorem sizeOf_parts_le (v : Value) : sizeOf v.parts ≤ sizeOf v := by
  obtain ⟨_, _, shape⟩ := v
  cases shape with
  | array items => simp [parts, shape, Shape.parts]; omega
  | struct fields =>
    have := sizeOf_snd_le fields
    simp [parts, shape, Shape.parts]; omega
  | table columns rows =>
    have := sizeOf_flatten_le rows
    simp [parts, shape, Shape.parts]; omega
  | function definition fields =>
    have := sizeOf_snd_le fields
    simp [parts, shape, Shape.parts]; omega
  | null | bool _ => simp [parts, shape, Shape.parts]
  | number _ | text _ | other _ _ => simp [parts, shape, Shape.parts]; omega

/-- Values by allocation. -/
abbrev Holding := Std.TreeMap Identity Value

/-- Gathers values and all their parts, those of a value that is there already excepted. -/
def gather : List Value → Holding → Holding
  | [], found => found
  | v :: rest, found =>
    if found.contains v.identity then gather rest found
    else gather (v.parts ++ rest) (found.insert v.identity v)
termination_by values => sizeOf values
decreasing_by
  · simp only [List.cons.sizeOf_spec]
    omega
  · have := sizeOf_append_lt v.parts rest
    have := sizeOf_parts_le v
    simp only [List.cons.sizeOf_spec]
    omega

/-- What is held with the given values. -/
def holding (held : List Value) : Holding := gather held ∅

/-- Gathering loses nothing. -/
theorem contains_gather {i : Identity} {values : List Value} {found : Holding}
    (h : found.contains i = true) : (gather values found).contains i = true := by
  fun_induction gather values found with
  | case1 => exact h
  | case2 _ _ _ _ ih => exact ih h
  | case3 _ _ _ _ ih => exact ih (by simp [h])

theorem contains_gather_of_mem {v : Value} {values : List Value} {found : Holding}
    (h : v ∈ values) : (gather values found).contains v.identity = true := by
  fun_induction gather values found with
  | case1 => simp at h
  | case2 w rest found seen ih =>
    obtain rfl | h := List.mem_cons.1 h
    · exact contains_gather seen
    · exact ih h
  | case3 w rest found _ ih =>
    obtain rfl | h := List.mem_cons.1 h
    · exact contains_gather (by simp)
    · exact ih (List.mem_append_right _ h)

/-- A held value is alive. -/
theorem contains_holding {v : Value} {held : List Value} (h : v ∈ held) :
    (holding held).contains v.identity = true :=
  contains_gather_of_mem h

end Value

end DebugAdapter
