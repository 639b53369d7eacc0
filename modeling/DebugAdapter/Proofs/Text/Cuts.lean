import DebugAdapter.Text.Blank
import Mathlib.Data.List.TakeWhile

/-!
# Cutting text

What is left of a text after a cut, and where it was cut: at its end, at both ends, or at the first
character of a kind.
-/

namespace DebugAdapter.Text

theorem dropTrailing_append_of_pos {p : Char → Bool} {cs trailing : List Char}
    (htrailing : ∀ c ∈ trailing, p c = true) :
    dropTrailing p (cs ++ trailing) = dropTrailing p cs := by
  have hreverse : ∀ c ∈ trailing.reverse, p c = true := fun c hc =>
    htrailing c (List.mem_reverse.mp hc)
  rw [dropTrailing, List.reverse_append, List.dropWhile_append_of_pos hreverse, dropTrailing]

theorem exists_dropTrailing (p : Char → Bool) (cs : List Char) :
    ∃ trailing, cs = dropTrailing p cs ++ trailing ∧ ∀ c ∈ trailing, p c = true := by
  refine ⟨(cs.reverse.takeWhile p).reverse, ?_, ?_⟩
  · rw [dropTrailing, ← List.reverse_append, List.takeWhile_append_dropWhile, List.reverse_reverse]
  · intro c hc
    exact List.all_eq_true.mp List.all_takeWhile c (List.mem_reverse.mp hc)

theorem dropTrailing_eq_nil_iff {p : Char → Bool} {cs : List Char} :
    dropTrailing p cs = [] ↔ ∀ c ∈ cs, p c = true := by
  rw [dropTrailing, List.reverse_eq_nil_iff, List.dropWhile_eq_nil_iff]
  simp

theorem trimChars_append_of_blank {cs trailing : List Char}
    (htrailing : ∀ c ∈ trailing, isBlank c = true) : trimChars (cs ++ trailing) = trimChars cs := by
  rw [trimChars, trimChars, List.dropWhile_append]
  split
  · rename_i hnothing
    have hcs : cs.dropWhile isBlank = [] := List.isEmpty_iff.mp hnothing
    rw [hcs, List.dropWhile_eq_nil_iff.mpr htrailing]
  · exact dropTrailing_append_of_pos htrailing

theorem trimChars_around {leading cs trailing : List Char}
    (hleading : ∀ c ∈ leading, isBlank c = true) (hcs : ∀ c ∈ cs, isBlank c = false)
    (htrailing : ∀ c ∈ trailing, isBlank c = true) :
    trimChars (leading ++ cs ++ trailing) = cs := by
  have hbegin : cs.dropWhile isBlank = cs := by
    rw [List.dropWhile_eq_self_iff]
    intro hpos
    rw [hcs _ (List.getElem_mem hpos)]
    exact Bool.false_ne_true
  have hend : dropTrailing isBlank (cs ++ []) = cs :=
    dropTrailing_append (List.forall_mem_nil _) fun c hc => hcs c (List.mem_of_getLast? hc)
  rw [List.append_nil] at hend
  rw [trimChars_append_of_blank htrailing, trimChars, List.dropWhile_append_of_pos hleading, hbegin,
    hend]

theorem isBlank_of_isDigit {c : Char} (hc : c.isDigit = true) : isBlank c = false := by
  rw [Char.isDigit_iff_toNat] at hc
  have hzero : '0'.toNat = 48 := rfl
  have hnine : '9'.toNat = 57 := rfl
  rw [← Bool.not_eq_true, isBlank, inRanges_iff]
  rintro ⟨r, hr, hlow, hhigh⟩
  simp only [blanks, List.mem_cons, List.not_mem_nil, or_false] at hr
  rcases hr with rfl | rfl | rfl | rfl | rfl | rfl | rfl | rfl | rfl | rfl <;> omega

theorem splitFirst?_eq_some_iff {p : Char → Bool} {cs before behind : List Char} :
    splitFirst? p cs = some (before, behind) ↔
      ∃ c, cs = before ++ c :: behind ∧ p c = true ∧ ∀ x ∈ before, p x = false := by
  induction cs generalizing before with
  | nil => simp [splitFirst?]
  | cons c cs ih =>
    rw [splitFirst?]
    cases hc : p c with
    | true =>
      constructor
      · intro h
        cases h
        exact ⟨c, rfl, hc, nofun⟩
      · rintro ⟨d, hcut, -, hbefore⟩
        cases before with
        | nil => simp [List.cons.inj hcut]
        | cons b before =>
          have hb := hbefore b List.mem_cons_self
          rw [← (List.cons.inj hcut).1, hc] at hb
          contradiction
    | false =>
      rw [if_neg Bool.false_ne_true, Option.map_eq_some_iff]
      constructor
      · rintro ⟨⟨a, b⟩, hsplit, hab⟩
        obtain ⟨rfl, rfl⟩ := Prod.mk.inj hab
        obtain ⟨d, rfl, hd, ha⟩ := ih.mp hsplit
        exact ⟨d, rfl, hd, List.forall_mem_cons.mpr ⟨hc, ha⟩⟩
      · rintro ⟨d, hcut, hd, hbefore⟩
        cases before with
        | nil =>
          rw [← (List.cons.inj hcut).1, hc] at hd
          contradiction
        | cons b before =>
          obtain ⟨rfl, hcs⟩ := List.cons.inj hcut
          have hrest := ih.mpr ⟨d, hcs, hd, (List.forall_mem_cons.mp hbefore).2⟩
          exact ⟨_, hrest, rfl⟩

end DebugAdapter.Text
