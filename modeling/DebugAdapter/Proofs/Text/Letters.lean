import DebugAdapter.Text.Blank
import DebugAdapter.Text.Letters

/-!
# Blanks are no letters

No range of blanks meets one of letters or numerals. Both tables are walked through once; the ASCII
letters and digits that the predicates ask for by themselves stand in the tables as well.
-/

namespace DebugAdapter.Text

def rangesApart (xs ys : List (Nat × Nat)) : Bool :=
  xs.all fun r => ys.all fun q => r.2 < q.1 || q.2 < r.1

theorem inRanges_eq_false_of_apart {xs ys : List (Nat × Nat)} {c : Char}
    (h : rangesApart xs ys = true) (hc : inRanges xs c = true) : inRanges ys c = false := by
  rw [← Bool.not_eq_true, inRanges_iff]
  rintro ⟨q, hq, hqlow, hqhigh⟩
  obtain ⟨r, hr, hrlow, hrhigh⟩ := inRanges_iff.mp hc
  have hapart : r.2 < q.1 ∨ q.2 < r.1 := by
    simpa using List.all_eq_true.mp (List.all_eq_true.mp h r hr) q hq
  omega

theorem blanks_apart_alphabetic : rangesApart blanks alphabetic = true := by decide +kernel

theorem blanks_apart_numeric : rangesApart blanks numeric = true := by decide +kernel

theorem bounds_of_isAlpha {c : Char} (h : c.isAlpha = true) :
    (0x41 ≤ c.toNat ∧ c.toNat ≤ 0x5A) ∨ (0x61 ≤ c.toNat ∧ c.toNat ≤ 0x7A) := by
  rcases Bool.or_eq_true_iff.mp h with hupper | hlower
  · exact Or.inl (of_decide_eq_true hupper)
  · obtain ⟨hlow, hhigh⟩ := Bool.and_eq_true_iff.mp hlower
    exact Or.inr ⟨of_decide_eq_true hlow, of_decide_eq_true hhigh⟩

theorem inRanges_of_isLetter {c : Char} (h : isLetter c = true) :
    inRanges alphabetic c = true := by
  simp only [isLetter, Bool.or_eq_true, Bool.and_eq_true] at h
  rcases h with halpha | ⟨-, h⟩
  · rcases bounds_of_isAlpha halpha with hupper | hlower
    · exact inRanges_iff.mpr ⟨(0x41, 0x5A), List.mem_cons_self, hupper⟩
    · exact inRanges_iff.mpr ⟨(0x61, 0x7A), List.mem_cons_of_mem _ List.mem_cons_self, hlower⟩
  · exact h

theorem inRanges_of_isNumeral {c : Char} (h : isNumeral c = true) : inRanges numeric c = true := by
  simp only [isNumeral, Bool.or_eq_true, Bool.and_eq_true] at h
  rcases h with h | ⟨-, h⟩
  · obtain ⟨hlow, hhigh⟩ := Char.isDigit_iff_toNat.mp h
    exact inRanges_iff.mpr ⟨(0x30, 0x39), List.mem_cons_self, hlow, hhigh⟩
  · exact h

theorem isLetter_of_isBlank {c : Char} (h : isBlank c = true) : isLetter c = false := by
  rw [← Bool.not_eq_true]
  intro hletter
  have hapart := inRanges_eq_false_of_apart blanks_apart_alphabetic h
  rw [inRanges_of_isLetter hletter] at hapart
  contradiction

theorem isNumeral_of_isBlank {c : Char} (h : isBlank c = true) : isNumeral c = false := by
  rw [← Bool.not_eq_true]
  intro hnumeral
  have hapart := inRanges_eq_false_of_apart blanks_apart_numeric h
  rw [inRanges_of_isNumeral hnumeral] at hapart
  contradiction

end DebugAdapter.Text
