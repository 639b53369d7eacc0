import DebugAdapter.Redaction
import Mathlib.Data.List.Infix

/-!
# Where pieces are found

A piece that is found is found at the same place when more text follows (`indexOf?_append`), and one
that is not found can then only end in what follows (`lt_endOf?_append`). A piece cannot reach across
a character that it does not have, so such a character cuts a search in two (`indexOf?_append_cons`).
-/

namespace DebugAdapter.Text

section
variable {piece cs xs ys : List Char} {c : Char} {n e : Nat}

theorem indexOf?_nil_eq_some_iff : indexOf? piece [] = some n ↔ piece = [] ∧ n = 0 := by
  rw [indexOf?, Option.ite_none_right_eq_some, List.isEmpty_iff, Option.some.injEq, eq_comm (a := 0)]

theorem indexOf?_cons_of_isPrefix (h : piece <+: c :: cs) : indexOf? piece (c :: cs) = some 0 :=
  if_pos (List.isPrefixOf_iff_prefix.mpr h)

theorem indexOf?_cons_of_not_isPrefix (h : ¬piece <+: c :: cs) :
    indexOf? piece (c :: cs) = (indexOf? piece cs).map (· + 1) :=
  if_neg fun hpre => h (List.isPrefixOf_iff_prefix.mp hpre)

theorem indexOf?_of_isPrefix (h : piece <+: cs) : indexOf? piece cs = some 0 := by
  cases cs with
  | nil =>
    rw [List.prefix_nil.mp h]
    rfl
  | cons c cs => exact indexOf?_cons_of_isPrefix h

theorem add_length_le_of_indexOf? (h : indexOf? piece cs = some n) :
    n + piece.length ≤ cs.length := by
  induction cs generalizing n with
  | nil =>
    obtain ⟨rfl, rfl⟩ := indexOf?_nil_eq_some_iff.mp h
    exact Nat.le_refl 0
  | cons c cs ih =>
    by_cases hpre : piece <+: c :: cs
    · rw [indexOf?_cons_of_isPrefix hpre] at h
      cases h
      rw [Nat.zero_add]
      exact hpre.length_le
    · rw [indexOf?_cons_of_not_isPrefix hpre, Option.map_eq_some_iff] at h
      obtain ⟨m, hm, rfl⟩ := h
      have := ih hm
      rw [List.length_cons]
      omega

theorem isPrefix_drop_of_indexOf? (h : indexOf? piece cs = some n) : piece <+: cs.drop n := by
  induction cs generalizing n with
  | nil =>
    obtain ⟨rfl, rfl⟩ := indexOf?_nil_eq_some_iff.mp h
    exact List.nil_prefix
  | cons c cs ih =>
    by_cases hpre : piece <+: c :: cs
    · rw [indexOf?_cons_of_isPrefix hpre] at h
      cases h
      exact hpre
    · rw [indexOf?_cons_of_not_isPrefix hpre, Option.map_eq_some_iff] at h
      obtain ⟨m, hm, rfl⟩ := h
      exact ih hm

theorem indexOf?_eq_none_iff : indexOf? piece cs = none ↔ ¬piece <:+: cs := by
  induction cs with
  | nil => simp [indexOf?, List.infix_nil]
  | cons c cs ih =>
    by_cases hpre : piece <+: c :: cs
    · simp [indexOf?_cons_of_isPrefix hpre, hpre.isInfix]
    · rw [indexOf?_cons_of_not_isPrefix hpre, Option.map_eq_none_iff, ih, List.infix_cons_iff]
      simp [hpre]

/-! ## Text that follows -/

theorem indexOf?_append (h : indexOf? piece xs = some n) (ys : List Char) :
    indexOf? piece (xs ++ ys) = some n := by
  induction xs generalizing n with
  | nil =>
    obtain ⟨rfl, rfl⟩ := indexOf?_nil_eq_some_iff.mp h
    exact indexOf?_of_isPrefix List.nil_prefix
  | cons x xs ih =>
    by_cases hpre : piece <+: x :: xs
    · rw [indexOf?_cons_of_isPrefix hpre] at h
      rw [← h]
      exact indexOf?_of_isPrefix (hpre.trans (List.prefix_append _ _))
    · rw [indexOf?_cons_of_not_isPrefix hpre, Option.map_eq_some_iff] at h
      obtain ⟨m, hm, rfl⟩ := h
      have hlength := add_length_le_of_indexOf? hm
      have hlater : ¬piece <+: x :: (xs ++ ys) := fun hlong =>
        hpre (List.prefix_of_prefix_length_le hlong (List.prefix_append (x :: xs) ys)
          (by rw [List.length_cons]; omega))
      rw [List.cons_append, indexOf?_cons_of_not_isPrefix hlater, ih hm, Option.map_some]

theorem endOf?_eq_some_iff :
    endOf? piece cs = some e ↔ ∃ n, indexOf? piece cs = some n ∧ n + piece.length = e := by
  simp [endOf?]

theorem endOf?_append (h : endOf? piece xs = some e) (ys : List Char) :
    endOf? piece (xs ++ ys) = some e := by
  obtain ⟨n, hn, rfl⟩ := endOf?_eq_some_iff.mp h
  exact endOf?_eq_some_iff.mpr ⟨n, indexOf?_append hn ys, rfl⟩

theorem lt_endOf?_append (hnone : endOf? piece xs = none) (h : endOf? piece (xs ++ ys) = some e) :
    xs.length < e := by
  obtain ⟨n, hn, rfl⟩ := endOf?_eq_some_iff.mp h
  rw [endOf?, Option.map_eq_none_iff, indexOf?_eq_none_iff] at hnone
  by_contra hle
  have hpre := isPrefix_drop_of_indexOf? hn
  rw [List.drop_append_of_le_length (by omega)] at hpre
  have hshort : piece <+: xs.drop n :=
    List.prefix_of_prefix_length_le hpre (List.prefix_append _ _)
      (by rw [List.length_drop]; omega)
  exact hnone (hshort.isInfix.trans (List.drop_suffix n xs).isInfix)

theorem endOf?_le_length (h : endOf? piece cs = some e) : e ≤ cs.length := by
  obtain ⟨n, hn, rfl⟩ := endOf?_eq_some_iff.mp h
  exact add_length_le_of_indexOf? hn

/-- Nothing behind a piece is needed to find it. -/
theorem endOf?_of_append (h : endOf? piece (xs ++ ys) = some e) (he : e ≤ xs.length) :
    endOf? piece xs = some e := by
  cases hshort : endOf? piece xs with
  | none => exact absurd (lt_endOf?_append hshort h) (Nat.not_lt.mpr he)
  | some x => rw [← endOf?_append hshort ys, h]

/-- A piece that ends where the text does is its end. -/
theorem isSuffix_of_endOf? (h : endOf? piece cs = some cs.length) : piece <:+ cs := by
  obtain ⟨n, hn, hlength⟩ := endOf?_eq_some_iff.mp h
  have hwhole : piece = cs.drop n :=
    (isPrefix_drop_of_indexOf? hn).eq_of_length (by rw [List.length_drop]; omega)
  exact hwhole ▸ List.drop_suffix n cs

/-! ## Characters that cut a text -/

/-- A piece that has a character at its beginning at most is found before the character or from it
on. -/
theorem indexOf?_append_cons (hc : c ∉ piece.tail) :
    indexOf? piece (xs ++ c :: ys) =
      (indexOf? piece xs).or ((indexOf? piece (c :: ys)).map (· + xs.length)) := by
  induction xs with
  | nil =>
    by_cases hpiece : piece = []
    · rw [hpiece, indexOf?_of_isPrefix List.nil_prefix]
      rfl
    · simp [indexOf?, hpiece]
  | cons x xs ih =>
    by_cases hpre : piece <+: x :: xs
    · have hlong := hpre.trans (List.prefix_append _ (c :: ys))
      rw [indexOf?_of_isPrefix hlong, indexOf?_of_isPrefix hpre, Option.some_or]
    · have hlong : ¬piece <+: x :: (xs ++ c :: ys) := by
        intro hlong
        rcases List.prefix_or_prefix_of_prefix hlong
          (show x :: xs ++ [c] <+: x :: (xs ++ c :: ys) from ⟨ys, by simp⟩) with h | h
        · rcases List.prefix_concat_iff.mp h with h | h
          · rw [h] at hc
            simp at hc
          · exact hpre h
        · obtain ⟨rest, hrest⟩ := h
          rw [← hrest] at hc
          simp at hc
      rw [List.cons_append, indexOf?_cons_of_not_isPrefix hlong, indexOf?_cons_of_not_isPrefix hpre,
        ih, Option.map_or, Option.map_map]
      rfl

/-- A piece that does not have the character at all is on one side of it. -/
theorem isInfix_append_cons_iff (hne : piece ≠ []) (hc : c ∉ piece) :
    piece <:+: xs ++ c :: ys ↔ piece <:+: xs ∨ piece <:+: ys := by
  have hstart : ¬piece <+: c :: ys := by
    intro hpre
    cases piece with
    | nil => exact hne rfl
    | cons p piece => exact hc ((List.cons_prefix_cons.mp hpre).1 ▸ List.mem_cons_self)
  have hcut : indexOf? piece (xs ++ c :: ys) =
      (indexOf? piece xs).or ((indexOf? piece (c :: ys)).map (· + xs.length)) :=
    indexOf?_append_cons fun h => hc (List.mem_of_mem_tail h)
  rw [indexOf?_cons_of_not_isPrefix hstart] at hcut
  have hnone := congrArg (· = none) hcut
  simp only [Option.or_eq_none_iff, Option.map_eq_none_iff, indexOf?_eq_none_iff, eq_iff_iff,
    ← not_or] at hnone
  exact not_iff_not.mp hnone

end

end DebugAdapter.Text
