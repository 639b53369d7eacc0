import DebugAdapter.Proofs.Path.Transform

/-!
# Taking a leading part off a path

The matcher walks along the path as it is spelled and along the canonical form of the wanted part at
once. What it finds can be told without the walk: the path is put together of a part that names the
same as the wanted one and of the rest (`Cut`), and there is at most one way to do so. How letters are
folded does not matter, as long as none is folded to nothing at all.
-/

namespace DebugAdapter.Path

/-- A path as a part that names the same as `start` and the rest behind it. A separator that ends the
part ends a run of them. -/
structure Cut (fold : Folding) (path start leading rest : String) : Prop where
  path_eq : path = leading ++ rest
  canonical_eq : canonical fold leading = canonical fold start
  whole : endsSeparated false leading.toList = true → startsSeparated rest.toList = false

section
variable {fold : Folding} (hne : ∀ c, fold c ≠ []) {path start : String}
include hne

theorem rest?_eq_some_iff_cut {rest : String} :
    rest? fold path start = some rest ↔ ∃ leading, Cut fold path start leading rest := by
  rw [rest?_eq_some_iff hne]
  constructor
  · rintro ⟨leading, hpath, hleads⟩
    refine ⟨String.ofList leading, ?_, ?_, ?_⟩
    · rw [← String.toList_inj, String.toList_append, String.toList_ofList, hpath]
    · rw [canonical_eq_iff, String.toList_ofList, hleads.canonical_eq]
    · rw [String.toList_ofList]
      exact hleads.whole
  · rintro ⟨leading, hcut⟩
    refine ⟨leading.toList, ?_, ?_, hcut.whole⟩
    · rw [hcut.path_eq, String.toList_append]
    · exact canonical_eq_iff.mp hcut.canonical_eq

theorem Cut.unique {leading rest leading' rest' : String} (h : Cut fold path start leading rest)
    (h' : Cut fold path start leading' rest') : leading = leading' ∧ rest = rest' := by
  have hrest : some rest = some rest' := by
    rw [← (rest?_eq_some_iff_cut hne).mpr ⟨leading, h⟩]
    exact (rest?_eq_some_iff_cut hne).mpr ⟨leading', h'⟩
  obtain rfl := Option.some.inj hrest
  have hsame : leading ++ rest = leading' ++ rest := h.path_eq.symm.trans h'.path_eq
  refine ⟨?_, rfl⟩
  rw [← String.toList_inj, String.toList_append, String.toList_append] at hsame
  exact String.toList_inj.mp (List.append_cancel_right hsame)

omit hne in
/-- No leading part ends among the characters that one character of the path is folded to. -/
theorem canonicalFrom_ne_within {before behind leading rest : List Char} {c : Char}
    {begun missing : List Char} (hc : isSeparator c = false) (hfold : fold c = begun ++ missing)
    (hbegun : begun ≠ []) (hmissing : missing ≠ [])
    (hpath : before ++ c :: behind = leading ++ rest) :
    canonicalFrom fold false leading ≠ canonicalFrom fold false before ++ begun := by
  intro hcanonical
  rcases List.append_eq_append_iff.mp hpath with ⟨more, rfl, hmore⟩ | ⟨more, rfl, -⟩
  · -- The part goes on behind the earlier one: with nothing, or with all that `c` is folded to.
    rw [canonicalFrom_append, List.append_cancel_left_eq] at hcanonical
    cases more with
    | nil => exact hbegun hcanonical.symm
    | cons d more =>
      obtain ⟨rfl, -⟩ := List.cons.inj hmore
      rw [canonicalFrom, if_neg (by simp [hc]), hfold, List.append_assoc,
        List.append_right_eq_self] at hcanonical
      exact hmissing (List.append_eq_nil_iff.mp hcanonical).1
  · -- The part ends within the earlier one, whose canonical form is then no shorter.
    rw [canonicalFrom_append, List.append_assoc, List.self_eq_append_right] at hcanonical
    exact hbegun (List.append_eq_nil_iff.mp hcanonical).2

end

/-- A leading part comes off a path exactly where the path can be cut behind a part that names the
same. It can be cut so in one place at most, and nowhere if the leading part ends among the characters
that one character of the path is folded to. -/
theorem rest?_cuts {fold : Folding} (hne : ∀ c, fold c ≠ []) (path start : String) :
    (∀ rest, rest? fold path start = some rest ↔ ∃ leading, Cut fold path start leading rest) ∧
    (∀ leading rest leading' rest', Cut fold path start leading rest →
      Cut fold path start leading' rest' → leading = leading' ∧ rest = rest') ∧
    (rest? fold path start = none ↔ ∀ leading rest, ¬Cut fold path start leading rest) ∧
    ∀ before c behind begun missing, path.toList = before ++ c :: behind → isSeparator c = false →
      fold c = begun ++ missing → begun ≠ [] → missing ≠ [] →
      canonicalFrom fold false start.toList = canonicalFrom fold false before ++ begun →
      rest? fold path start = none := by
  have hnone : rest? fold path start = none ↔ ∀ leading rest, ¬Cut fold path start leading rest := by
    rw [Option.eq_none_iff_forall_ne_some, forall_comm]
    apply forall_congr'
    intro rest
    rw [ne_eq, rest?_eq_some_iff_cut hne, not_exists]
  refine ⟨fun _ => rest?_eq_some_iff_cut hne, fun _ _ _ _ => Cut.unique hne, hnone, ?_⟩
  intro before c behind begun missing hpath hc hfold hbegun hmissing hstart
  apply hnone.mpr
  intro leading rest hcut
  have hsplit : before ++ c :: behind = leading.toList ++ rest.toList := by
    rw [← hpath, hcut.path_eq, String.toList_append]
  apply canonicalFrom_ne_within hc hfold hbegun hmissing hsplit
  rw [canonical_eq_iff.mp hcut.canonical_eq, hstart]

/-- The dotted capital I is folded to two characters. A part that ends behind it can be taken off, one
that ends between the two cannot. -/
theorem rest?_cuts_dottedCapital :
    (∀ c, Folding.ofCaseSensitive false c ≠ []) ∧
      rest? (.ofCaseSensitive false) "\\SRV//İ/x.src" "/srv/İ" = some "/x.src" ∧
      rest? (.ofCaseSensitive false) "\\SRV//İ/x.src" "/srv/i" = none := by
  have hne := (Folding.final_ofCaseSensitive false).ne_nil
  refine ⟨hne, ?_, ?_⟩
  · apply ((rest?_cuts hne "\\SRV//İ/x.src" "/srv/İ").1 "/x.src").mpr
    exact ⟨"\\SRV//İ", by decide, by decide, by decide⟩
  · apply (rest?_cuts hne "\\SRV//İ/x.src" "/srv/i").2.2.2 "\\SRV//".toList 'İ' "/x.src".toList ['i']
      ['\u0307'] <;> decide

end DebugAdapter.Path
