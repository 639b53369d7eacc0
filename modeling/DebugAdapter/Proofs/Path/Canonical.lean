import DebugAdapter.Path.Canonical
import DebugAdapter.Proofs.Text.Lowercase

/-!
# Canonical forms of paths

The canonical form of a path in two parts is that of the first part, followed by that of the second
as it stands behind the first (`canonicalFrom_append`). Canonical forms are final
(`canonicalFrom_canonicalFrom`). Walking along a path takes off it exactly a part of the wanted
canonical form, up to the end of a run of separators (`restFrom?_eq_some_iff`).
-/

namespace DebugAdapter.Path

/-- What a character is folded to is folded to itself, and no letter becomes a separator. -/
structure Folding.Final (fold : Folding) : Prop where
  ne_nil : ∀ c, fold c ≠ []
  fold_of_mem : ∀ {c d}, d ∈ fold c → fold d = [d]
  isSeparator_of_mem : ∀ {c d}, isSeparator c = false → d ∈ fold c → isSeparator d = false

theorem isSeparator_iff {c : Char} : isSeparator c = true ↔ c = '/' ∨ c = '\\' := by
  simp [isSeparator]

theorem Folding.final_exact : Folding.exact.Final where
  ne_nil c := List.cons_ne_nil c []
  fold_of_mem _ := rfl
  isSeparator_of_mem hc hd := List.mem_singleton.mp hd ▸ hc

theorem Folding.final_ignoreCase : Folding.ignoreCase.Final where
  ne_nil := Text.lowerChar_ne_nil
  fold_of_mem := Text.lowerChar_of_mem
  isSeparator_of_mem {c d} hc hd := by
    rcases Text.eq_or_le_of_mem_lowerChar hd with hsame | hletter
    · rw [hsame, hc]
    · rw [← Bool.not_eq_true, isSeparator_iff]
      rintro (rfl | rfl) <;> exact absurd hletter (by decide)

theorem Folding.final_ofCaseSensitive (sensitive : Bool) : (ofCaseSensitive sensitive).Final := by
  cases sensitive with
  | true => exact final_exact
  | false => exact final_ignoreCase

/-! ## Separators at the ends -/

def startsSeparated (cs : List Char) : Bool := cs.head?.any isSeparator

/-- What follows `cs` follows a separator, if what comes before `cs` ends as `before` says. -/
def endsSeparated (before : Bool) : List Char → Bool
  | [] => before
  | c :: cs => endsSeparated (isSeparator c) cs

theorem endsSeparated_append (before : Bool) (xs ys : List Char) :
    endsSeparated before (xs ++ ys) = endsSeparated (endsSeparated before xs) ys := by
  induction xs generalizing before with
  | nil => rfl
  | cons x xs ih => exact ih (isSeparator x)

theorem endsSeparated_eq_false {cs : List Char} (hne : cs ≠ [])
    (hcs : ∀ c ∈ cs, isSeparator c = false) (before : Bool) : endsSeparated before cs = false := by
  induction cs generalizing before with
  | nil => contradiction
  | cons c cs ih =>
    rw [endsSeparated, hcs c List.mem_cons_self]
    by_cases hnil : cs = []
    · rw [hnil]
      rfl
    · exact ih hnil (fun d hd => hcs d (List.mem_cons_of_mem c hd)) false

theorem startsSeparated_append {xs : List Char} (hne : xs ≠ []) (ys : List Char) :
    startsSeparated (xs ++ ys) = startsSeparated xs := by
  cases xs with
  | nil => contradiction
  | cons x xs => rfl

/-! ## Parts of a path -/

section
variable (fold : Folding)

theorem canonicalFrom_append (before : Bool) (xs ys : List Char) :
    canonicalFrom fold before (xs ++ ys) =
      canonicalFrom fold before xs ++ canonicalFrom fold (endsSeparated before xs) ys := by
  induction xs generalizing before with
  | nil => rfl
  | cons x xs ih =>
    rw [List.cons_append, canonicalFrom, canonicalFrom, endsSeparated]
    cases hx : isSeparator x with
    | true =>
      cases before with
      | true => exact ih true
      | false => exact congrArg ('/' :: ·) (ih true)
    | false =>
      simp only [Bool.false_eq_true, if_false, ih false, List.append_assoc]

theorem canonicalFrom_of_not_starts {cs : List Char} (h : startsSeparated cs = false)
    (before before' : Bool) : canonicalFrom fold before cs = canonicalFrom fold before' cs := by
  cases cs with
  | nil => rfl
  | cons c cs =>
    have hc : isSeparator c = false := h
    simp only [canonicalFrom, hc, Bool.false_eq_true, if_false]

theorem canonicalFrom_of_starts {cs : List Char} (h : startsSeparated cs = true) :
    canonicalFrom fold false cs = '/' :: canonicalFrom fold true cs := by
  cases cs with
  | nil => contradiction
  | cons c cs =>
    have hc : isSeparator c = true := h
    simp only [canonicalFrom, hc, Bool.false_eq_true, if_false, if_true]

theorem canonicalFrom_eq_iff {cs : List Char} :
    canonicalFrom fold true cs = canonicalFrom fold false cs ↔ startsSeparated cs = false := by
  cases h : startsSeparated cs with
  | false => simp only [canonicalFrom_of_not_starts fold h true false]
  | true =>
    rw [canonicalFrom_of_starts fold h]
    have hlonger := List.cons_ne_self '/' (canonicalFrom fold true cs)
    simp [hlonger.symm]

end

section
variable {fold : Folding} (hfold : fold.Final)
include hfold

theorem canonicalFrom_fold_append {c : Char} (hc : isSeparator c = false) (before : Bool)
    (ys : List Char) : canonicalFrom fold before (fold c ++ ys) =
      fold c ++ canonicalFrom fold false ys := by
  have hall : ∀ ds : List Char, ds ≠ [] → (∀ d ∈ ds, d ∈ fold c) → ∀ before,
      canonicalFrom fold before (ds ++ ys) = ds ++ canonicalFrom fold false ys := by
    intro ds hne hds
    induction ds with
    | nil => contradiction
    | cons d ds ih =>
      intro before
      have hd := hds d List.mem_cons_self
      simp only [List.cons_append, canonicalFrom, hfold.isSeparator_of_mem hc hd,
        Bool.false_eq_true, if_false, hfold.fold_of_mem hd, List.nil_append]
      by_cases hnil : ds = []
      · rw [hnil]
        rfl
      · rw [ih hnil (fun d hd => hds d (List.mem_cons_of_mem _ hd)) false]
  exact hall (fold c) (hfold.ne_nil c) (fun _ hd => hd) before

theorem startsSeparated_canonicalFrom (before : Bool) (cs : List Char) :
    startsSeparated (canonicalFrom fold before cs) = (!before && startsSeparated cs) := by
  induction cs generalizing before with
  | nil => cases before <;> rfl
  | cons c cs ih =>
    rw [canonicalFrom]
    cases hc : isSeparator c with
    | true =>
      cases before with
      | true => exact ih true
      | false => exact hc.symm
    | false =>
      have hstart : startsSeparated (fold c) = false := by
        cases hf : fold c with
        | nil => rfl
        | cons d ds => exact hfold.isSeparator_of_mem (c := c) hc (hf ▸ List.mem_cons_self)
      simp only [Bool.false_eq_true, if_false, startsSeparated_append (hfold.ne_nil c), hstart]
      simp [startsSeparated, hc]

theorem endsSeparated_canonicalFrom (before : Bool) (cs : List Char) :
    endsSeparated before (canonicalFrom fold before cs) = endsSeparated before cs := by
  induction cs generalizing before with
  | nil => rfl
  | cons c cs ih =>
    rw [canonicalFrom, endsSeparated]
    cases hc : isSeparator c with
    | true =>
      cases before with
      | true => exact ih true
      | false => exact ih true
    | false =>
      have hletters := endsSeparated_eq_false (hfold.ne_nil c)
        (fun d hd => hfold.isSeparator_of_mem hc hd) before
      simp only [Bool.false_eq_true, if_false, endsSeparated_append, hletters]
      exact ih false

/-- The canonical form of a canonical form leaves at most its first separator out. -/
theorem canonicalFrom_canonicalFrom (before before' : Bool) (cs : List Char) :
    canonicalFrom fold before (canonicalFrom fold before' cs) =
      canonicalFrom fold (before || before') cs := by
  induction cs generalizing before before' with
  | nil => rfl
  | cons c cs ih =>
    cases hc : isSeparator c with
    | true =>
      cases before' with
      | true => simp only [canonicalFrom, hc, if_true, ih, Bool.or_true]
      | false =>
        have hslash : isSeparator '/' = true := rfl
        simp only [canonicalFrom, hc, hslash, if_true, Bool.false_eq_true, if_false, ih,
          Bool.or_false, Bool.or_true]
    | false =>
      simp only [canonicalFrom, hc, Bool.false_eq_true, if_false,
        canonicalFrom_fold_append hfold hc, ih, Bool.or_false]

/-- Parts of paths that have the same canonical form in one place have it in any other. -/
theorem canonicalFrom_congr {before : Bool} {xs ys : List Char}
    (h : canonicalFrom fold before xs = canonicalFrom fold before ys)
    (hxs : before = true → startsSeparated xs = false)
    (hys : before = true → startsSeparated ys = false) (elsewhere : Bool) :
    canonicalFrom fold elsewhere xs = canonicalFrom fold elsewhere ys := by
  cases before with
  | true =>
    rw [canonicalFrom_of_not_starts fold (hxs rfl) elsewhere true, h,
      canonicalFrom_of_not_starts fold (hys rfl) true elsewhere]
  | false =>
    have hfinal := canonicalFrom_canonicalFrom hfold elsewhere false
    simp only [Bool.or_false] at hfinal
    rw [← hfinal xs, h, hfinal ys]

end

theorem toList_canonical (fold : Folding) (path : String) :
    (canonical fold path).toList = canonicalFrom fold false path.toList :=
  String.toList_ofList

theorem canonical_eq_iff {fold : Folding} {p q : String} :
    canonical fold p = canonical fold q ↔
      canonicalFrom fold false p.toList = canonicalFrom fold false q.toList :=
  String.ofList_inj

theorem canonical_canonical {fold : Folding} (hfold : fold.Final) (path : String) :
    canonical fold (canonical fold path) = canonical fold path := by
  rw [canonical_eq_iff, toList_canonical, canonicalFrom_canonicalFrom hfold]
  rfl

/-! ## Leading parts -/

theorem dropStart?_eq_some_iff {xs cs rest : List Char} :
    dropStart? xs cs = some rest ↔ cs = xs ++ rest := by
  induction xs generalizing cs with
  | nil => simp [dropStart?]
  | cons x xs ih =>
    cases cs with
    | nil => simp [dropStart?]
    | cons c cs =>
      rw [dropStart?, List.cons_append, List.cons.injEq]
      by_cases hx : x = c
      · simp [hx, ih]
      · simp [hx, Ne.symm hx]

/-- A path as a leading part of the canonical form `wanted` and the rest. A run of separators is not
cut in two. -/
structure Leads (fold : Folding) (before : Bool) (wanted start rest : List Char) : Prop where
  canonical_eq : canonicalFrom fold before start = wanted
  whole : endsSeparated before start = true → startsSeparated rest = false

section
variable {fold : Folding} {before : Bool} {wanted cs rest : List Char}

theorem Leads.separator {c : Char} {start : List Char} (hc : isSeparator c = true)
    (h : Leads fold true wanted start rest) :
    Leads fold before (if before then wanted else '/' :: wanted) (c :: start) rest where
  canonical_eq := by
    rw [canonicalFrom, if_pos hc, h.canonical_eq]
  whole := by
    rw [endsSeparated, hc]
    exact h.whole

theorem Leads.letter {c : Char} {start : List Char} (hc : isSeparator c = false)
    (h : Leads fold false wanted start rest) :
    Leads fold before (fold c ++ wanted) (c :: start) rest where
  canonical_eq := by
    rw [canonicalFrom, if_neg (by simp [hc]), h.canonical_eq]
  whole := by
    rw [endsSeparated, hc]
    exact h.whole

theorem leads_of_restFrom? (h : restFrom? fold before wanted cs = some rest) :
    ∃ start, cs = start ++ rest ∧ Leads fold before wanted start rest := by
  induction cs generalizing before wanted with
  | nil =>
    cases wanted with
    | nil =>
      cases h
      exact ⟨[], rfl, rfl, fun _ => rfl⟩
    | cons w ws => contradiction
  | cons c cs ih =>
    -- The cases are those of a step: a run goes on, nothing is wanted any more, or what the
    -- character is folded to comes off the wanted characters.
    rw [restFrom?.eq_def] at h
    cases hc : isSeparator c with
    | true =>
      cases before with
      | true =>
        simp only [hc, Bool.and_self, if_true] at h
        obtain ⟨start, rfl, hleads⟩ := ih h
        exact ⟨c :: start, rfl, hleads.separator hc⟩
      | false =>
        simp only [hc, Bool.and_false, Bool.false_eq_true, if_false, if_true] at h
        cases wanted with
        | nil =>
          cases h
          exact ⟨[], rfl, rfl, nofun⟩
        | cons w ws =>
          simp only [Option.ite_none_right_eq_some, beq_iff_eq] at h
          obtain ⟨rfl, hrest⟩ := h
          obtain ⟨start, rfl, hleads⟩ := ih hrest
          exact ⟨c :: start, rfl, hleads.separator hc⟩
    | false =>
      simp only [hc, Bool.false_and, Bool.false_eq_true, if_false] at h
      cases wanted with
      | nil =>
        cases h
        exact ⟨[], rfl, rfl, fun _ => hc⟩
      | cons w ws =>
        dsimp only at h
        split at h
        · rename_i left hleft
          rw [dropStart?_eq_some_iff] at hleft
          obtain ⟨start, rfl, hleads⟩ := ih h
          exact ⟨c :: start, rfl, hleft ▸ hleads.letter hc⟩
        · contradiction

theorem Leads.restFrom?_eq (hne : ∀ c, fold c ≠ []) {start : List Char}
    (h : Leads fold before wanted start rest) :
    restFrom? fold before wanted (start ++ rest) = some rest := by
  obtain ⟨rfl, hwhole⟩ := h
  induction start generalizing before with
  | nil =>
    cases rest with
    | nil => rfl
    | cons c cs =>
      rw [List.nil_append, restFrom?.eq_def]
      have hskip : ¬(isSeparator c && before) = true := by
        cases before with
        | true =>
          have hc : isSeparator c = false := hwhole rfl
          simp [hc]
        | false => simp
      simp only [if_neg hskip]
      rfl
  | cons c start ih =>
    rw [endsSeparated] at hwhole
    rw [List.cons_append, restFrom?.eq_def]
    cases hc : isSeparator c with
    | true =>
      rw [hc] at hwhole
      have hrest := ih hwhole
      cases before with
      | true => simpa [canonicalFrom, hc] using hrest
      | false => simpa [canonicalFrom, hc] using hrest
    | false =>
      rw [hc] at hwhole
      have hrest := ih hwhole
      have hdrop : dropStart? (fold c) (fold c ++ canonicalFrom fold false start) =
          some (canonicalFrom fold false start) := dropStart?_eq_some_iff.mpr rfl
      obtain ⟨d, ds, hd⟩ := List.exists_cons_of_ne_nil (hne c)
      simp only [canonicalFrom, hc, Bool.false_and, Bool.false_eq_true, if_false]
      rw [hd] at hdrop ⊢
      simp only [List.cons_append] at hdrop ⊢
      simp only [hdrop, hrest]

theorem restFrom?_eq_some_iff (hne : ∀ c, fold c ≠ []) :
    restFrom? fold before wanted cs = some rest ↔
      ∃ start, cs = start ++ rest ∧ Leads fold before wanted start rest := by
  constructor
  · exact leads_of_restFrom?
  · rintro ⟨start, rfl, h⟩
    exact h.restFrom?_eq hne

/-- Where characters are folded to single ones, a path can be cut wherever its canonical form can. -/
theorem exists_leads (hsingle : ∀ c ∈ cs, (fold c).length = 1) {behind : List Char}
    (h : canonicalFrom fold before cs = wanted ++ behind) :
    ∃ start rest, cs = start ++ rest ∧ Leads fold before wanted start rest := by
  induction cs generalizing before wanted with
  | nil =>
    obtain ⟨rfl, -⟩ := List.append_eq_nil_iff.mp h.symm
    exact ⟨[], [], rfl, rfl, fun _ => rfl⟩
  | cons c cs ih =>
    have hcs : ∀ d ∈ cs, (fold d).length = 1 := fun d hd => hsingle d (List.mem_cons_of_mem c hd)
    rw [canonicalFrom] at h
    cases hc : isSeparator c with
    | true =>
      rw [if_pos hc] at h
      cases before with
      | true =>
        obtain ⟨start, rest, rfl, hleads⟩ := ih hcs h
        exact ⟨c :: start, rest, rfl, hleads.separator hc⟩
      | false =>
        cases wanted with
        | nil => exact ⟨[], c :: cs, rfl, rfl, nofun⟩
        | cons w ws =>
          obtain ⟨rfl, htail⟩ := List.cons.inj h
          obtain ⟨start, rest, rfl, hleads⟩ := ih hcs htail
          exact ⟨c :: start, rest, rfl, hleads.separator hc⟩
    | false =>
      rw [if_neg (by simp [hc])] at h
      cases wanted with
      | nil => exact ⟨[], c :: cs, rfl, rfl, fun _ => hc⟩
      | cons w ws =>
        obtain ⟨d, hd⟩ := List.length_eq_one_iff.mp (hsingle c List.mem_cons_self)
        rw [hd] at h
        obtain ⟨rfl, htail⟩ := List.cons.inj h
        obtain ⟨start, rest, rfl, hleads⟩ := ih hcs htail
        exact ⟨c :: start, rest, rfl, by simpa [hd] using hleads.letter hc⟩

end

end DebugAdapter.Path
