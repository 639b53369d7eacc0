import DebugAdapter.Text.Case

/-!
# Lowercase is final

The characters that lowercase gives for a character are their own lowercase
(`lowerChar_of_mem`), and lowercase makes letters only (`eq_or_le_of_mem_lowerChar`). Beyond ASCII
both are read off the table, run by run.
-/

namespace DebugAdapter.Text

namespace CapitalRun

/-- No small letter of `r` is a capital of `q`: their code points lie apart, or alternate. -/
def apart (r q : CapitalRun) : Bool :=
  (r.small + (r.last - r.first)).blt q.first || q.last.blt r.small ||
    q.step.beq 2 && (r.step.beq 2 || r.first.beq r.last) && ((r.small + q.first) % 2).beq 1

/-- The small letters of `r` are characters, and neither the dotted capital I nor in ASCII anything
but small letters. -/
def Proper (r : CapitalRun) : Prop :=
  (r.small + (r.last - r.first) < 0x130 ∨ 0x130 < r.small) ∧
    (128 ≤ r.small ∨ r.first = r.last ∧ 97 ≤ r.small ∧ r.small ≤ 122) ∧
    (r.small + (r.last - r.first) < 0xD800 ∨
      0xDFFF < r.small ∧ r.small + (r.last - r.first) < 0x110000)

instance (r : CapitalRun) : Decidable (Proper r) := inferInstanceAs (Decidable (_ ∧ _))

theorem small?_eq_some_iff {r : CapitalRun} {n m : Nat} :
    r.small? n = some m ↔ r.first ≤ n ∧ n ≤ r.last ∧ (n - r.first) % r.step = 0 ∧
      r.small + (n - r.first) = m := by
  simp [small?, and_assoc]

theorem small?_eq_none_of_apart {r q : CapitalRun} {n m : Nat} (h : r.apart q = true)
    (hm : r.small? n = some m) : q.small? m = none := by
  obtain ⟨hfirst, hlast, hstep, rfl⟩ := small?_eq_some_iff.mp hm
  rw [Option.eq_none_iff_forall_ne_some]
  intro k hk
  obtain ⟨hqfirst, hqlast, hqstep, -⟩ := small?_eq_some_iff.mp hk
  simp only [apart, Bool.or_eq_true, Bool.and_eq_true, Nat.blt_eq, Nat.beq_eq] at h
  rcases h with (hbelow | habove) | ⟨⟨hq, hr⟩, hodd⟩
  · omega
  · omega
  · rw [hq] at hqstep
    rcases hr with hr | hr
    · rw [hr] at hstep
      omega
    · omega

end CapitalRun

theorem capitals_apart : (capitals.all fun r => capitals.all r.apart) = true := by decide +kernel

theorem capitals_proper : ∀ r ∈ capitals, r.Proper := by decide +kernel

theorem ascii_lower : ∀ n < 128, (Char.ofNat n).toLower.toLower = (Char.ofNat n).toLower ∧
    (Char.ofNat n).toLower.toNat < 128 ∧
    ((Char.ofNat n).toLower = Char.ofNat n ∨ 97 ≤ (Char.ofNat n).toLower.toNat) := by
  decide

theorem lowerChar_of_ascii {c : Char} (h : c.toNat < 128) : lowerChar c = [c.toLower] := by
  rw [lowerChar, if_pos h]

/-- What lowercase gives for a character that it changes, beyond ASCII. -/
theorem lowerChar_cases {c : Char} (h : ¬c.toNat < 128) :
    lowerChar c = [c] ∨ c = 'İ' ∧ lowerChar c = ['i', '\u0307'] ∨
      ∃ r ∈ capitals, ∃ m, r.small? c.toNat = some m ∧ lowerChar c = [Char.ofNat m] := by
  rw [lowerChar, if_neg h]
  split
  · rename_i hdotted
    exact Or.inr (Or.inl ⟨eq_of_beq hdotted, rfl⟩)
  · split
    · rename_i m hm
      obtain ⟨r, hr, hsmall⟩ := List.exists_of_findSome?_eq_some hm
      exact Or.inr (Or.inr ⟨r, hr, m, hsmall, rfl⟩)
    · exact Or.inl rfl

theorem toNat_of_small? {r : CapitalRun} (hr : r ∈ capitals) {n m : Nat}
    (hm : r.small? n = some m) :
    (Char.ofNat m).toNat = m ∧ m ≠ 0x130 ∧ (128 ≤ m ∨ 97 ≤ m ∧ m ≤ 122) := by
  obtain ⟨hfirst, hlast, -, rfl⟩ := CapitalRun.small?_eq_some_iff.mp hm
  obtain ⟨hdotted, hascii, hvalid⟩ := capitals_proper r hr
  have hchar : (r.small + (n - r.first)).isValidChar := by
    rcases hvalid with hbelow | ⟨habove, hlimit⟩
    · exact Or.inl (by omega)
    · exact Or.inr ⟨by omega, by omega⟩
  refine ⟨?_, by omega, by omega⟩
  rw [Char.ofNat, dif_pos hchar]
  rfl

theorem lowerChar_small {r : CapitalRun} (hr : r ∈ capitals) {n m : Nat}
    (hm : r.small? n = some m) : lowerChar (Char.ofNat m) = [Char.ofNat m] := by
  obtain ⟨hnat, hdotted, hletter⟩ := toNat_of_small? hr hm
  by_cases hascii : m < 128
  · have hsmall : ∀ m < 128, 97 ≤ m → (Char.ofNat m).toLower = Char.ofNat m := by decide
    rw [lowerChar_of_ascii (by omega), hsmall m hascii (by omega)]
  · rcases lowerChar_cases (c := Char.ofNat m) (by omega) with hsame | ⟨hcapital, -⟩ |
      ⟨q, hq, k, hk, -⟩
    · exact hsame
    · rw [hcapital] at hnat
      exact absurd hnat.symm hdotted
    · have hapart := List.all_eq_true.mp (List.all_eq_true.mp capitals_apart r hr) q hq
      rw [hnat, CapitalRun.small?_eq_none_of_apart hapart hm] at hk
      contradiction

theorem lowerChar_of_mem {c d : Char} (h : d ∈ lowerChar c) : lowerChar d = [d] := by
  by_cases hascii : c.toNat < 128
  · rw [lowerChar_of_ascii hascii, List.mem_singleton] at h
    obtain ⟨htwice, hsmall, -⟩ := ascii_lower c.toNat hascii
    rw [Char.ofNat_toNat, ← h] at htwice hsmall
    rw [lowerChar_of_ascii hsmall, htwice]
  · rcases lowerChar_cases hascii with hsame | ⟨-, hdotted⟩ | ⟨r, hr, m, hm, hsmall⟩
    · rw [hsame, List.mem_singleton] at h
      rw [h, hsame]
    · rw [hdotted, List.mem_cons, List.mem_singleton] at h
      rcases h with rfl | rfl <;> decide
    · rw [hsmall, List.mem_singleton] at h
      rw [h, lowerChar_small hr hm]

theorem lowerChar_ne_nil (c : Char) : lowerChar c ≠ [] := by
  by_cases hascii : c.toNat < 128
  · simp [lowerChar_of_ascii hascii]
  · rcases lowerChar_cases hascii with h | ⟨-, h⟩ | ⟨_, _, _, _, h⟩ <;> simp [h]

/-- Lowercase leaves a character alone or gives something from the small letters on. -/
theorem eq_or_le_of_mem_lowerChar {c d : Char} (h : d ∈ lowerChar c) : d = c ∨ 97 ≤ d.toNat := by
  by_cases hascii : c.toNat < 128
  · rw [lowerChar_of_ascii hascii, List.mem_singleton] at h
    obtain ⟨-, -, hletter⟩ := ascii_lower c.toNat hascii
    rwa [Char.ofNat_toNat, ← h] at hletter
  · rcases lowerChar_cases hascii with hsame | ⟨-, hdotted⟩ | ⟨r, hr, m, hm, hsmall⟩
    · rw [hsame, List.mem_singleton] at h
      exact Or.inl h
    · rw [hdotted, List.mem_cons, List.mem_singleton] at h
      right
      rcases h with rfl | rfl <;> decide
    · rw [hsmall, List.mem_singleton] at h
      obtain ⟨hnat, -, hletter⟩ := toNat_of_small? hr hm
      right
      rw [h, hnat]
      omega

end DebugAdapter.Text
