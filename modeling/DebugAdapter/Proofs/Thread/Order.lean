import DebugAdapter.Decimal.Reading
import DebugAdapter.Thread.Order

/-!
# Thread names are ordered totally, and their numbers by value

The comparison is total because it is put together from total ones, piece by piece, and names of the
same pieces are told apart by their spelling.

A name is cut where digits begin and end, so a number is a piece of its own (`chunks_number`). Numbers
are compared by the count of their digits and then by these as text. Without leading zeros that is the
order of their values (`compare_ofRun`), however long they are.
-/

namespace DebugAdapter.Thread

open Decimal (ofDigits)

/-! ## The comparison -/

instance : Ord Chunk := ⟨Chunk.compare⟩

instance : Std.OrientedOrd Chunk where
  eq_swap := by
    intro a b
    change Chunk.compare a b = (Chunk.compare b a).swap
    cases a with
    | number m x =>
      cases b with
      | number n y =>
        rw [Chunk.compare, Chunk.compare, Ordering.swap_then, ← Std.OrientedOrd.eq_swap,
          ← Std.OrientedOrd.eq_swap]
      | text y => rfl
    | text x =>
      cases b with
      | number n y => rfl
      | text y => exact Std.OrientedOrd.eq_swap

instance : Std.TransOrd Chunk where
  isLE_trans := by
    intro a b c hab hbc
    cases a with
    | number m x =>
      cases c with
      | text z => rfl
      | number k z =>
        cases b with
        | text y => contradiction
        | number n y =>
          let bySize : Nat × String → Nat × String → Ordering :=
            compareLex (compareOn Prod.fst) (compareOn Prod.snd)
          have htrans : (bySize (m, x) (n, y)).isLE → (bySize (n, y) (k, z)).isLE →
              (bySize (m, x) (k, z)).isLE := Std.TransCmp.isLE_trans
          exact htrans hab hbc
    | text x =>
      cases b with
      | number n y => contradiction
      | text y =>
        cases c with
        | number k z => contradiction
        | text z =>
          have htrans : (compare x y).isLE → (compare y z).isLE → (compare x z).isLE :=
            Std.TransOrd.isLE_trans
          exact htrans hab hbc

theorem compareChunks_eq_compare (as bs : List Chunk) : compareChunks as bs = compare as bs := by
  induction as generalizing bs with
  | nil => cases bs <;> rfl
  | cons a as ih =>
    cases bs with
    | nil => rfl
    | cons b bs =>
      rw [compareChunks, ih, List.compare_cons_cons]
      rfl

theorem compareChunks_append_left (before as bs : List Chunk) :
    compareChunks (before ++ as) (before ++ bs) = compareChunks as bs := by
  induction before with
  | nil => rfl
  | cons c before ih =>
    have hself : c.compare c = .eq := @Std.ReflOrd.compare_self Chunk _ _ c
    rw [List.cons_append, List.cons_append, compareChunks, hself, ih]
    rfl

instance : Std.TransCmp compareNames := by
  have h : compareNames = compareLex (compareOn chunks) compare := by
    funext a b
    rw [compareNames, compareChunks_eq_compare]
    rfl
  rw [h]
  infer_instance

theorem compareNames_eq_iff {a b : String} : compareNames a b = .eq ↔ a = b := by
  constructor
  · intro h
    rw [compareNames, Ordering.then_eq_eq] at h
    exact Std.LawfulEqOrd.eq_of_compare h.2
  · rintro rfl
    exact Std.ReflCmp.compare_self

/-! ## Runs -/

theorem exists_runs_cons (c : Char) (cs : List Char) :
    ∃ run rest, runs (c :: cs) = (c :: run) :: rest := by
  rw [runs]
  cases h : runs cs with
  | nil => exact ⟨[], [], rfl⟩
  | cons run rest =>
    cases run with
    | nil => exact ⟨[], [] :: rest, rfl⟩
    | cons d run =>
      simp only
      split
      · exact ⟨d :: run, rest, rfl⟩
      · exact ⟨[], (d :: run) :: rest, rfl⟩

theorem runs_cons {c d : Char} {cs run : List Char} {rest : List (List Char)}
    (h : runs cs = (d :: run) :: rest) :
    runs (c :: cs) = if Text.isDecimal c == Text.isDecimal d then (c :: d :: run) :: rest
      else [c] :: (d :: run) :: rest := by
  rw [runs, h]

/-- A name may be cut between a digit and another character. -/
theorem runs_append {before behind : List Char}
    (h : ∀ c ∈ before.getLast?, ∀ d ∈ behind.head?, Text.isDecimal c ≠ Text.isDecimal d) :
    runs (before ++ behind) = runs before ++ runs behind := by
  induction before with
  | nil => rfl
  | cons c before ih =>
    cases before with
    | nil =>
      cases behind with
      | nil => rw [List.append_nil, runs, List.append_nil]
      | cons d behind =>
        obtain ⟨run, rest, hruns⟩ := exists_runs_cons d behind
        have hcut : (Text.isDecimal c == Text.isDecimal d) = false :=
          beq_eq_false_iff_ne.mpr (h c rfl d rfl)
        rw [List.singleton_append, runs_cons hruns, hruns, hcut]
        rfl
    | cons e before =>
      obtain ⟨run, rest, hruns⟩ := exists_runs_cons e before
      have hrest : runs (e :: before ++ behind) = (e :: run) :: (rest ++ runs behind) := by
        rw [ih fun c hc => h c (by rwa [List.getLast?_cons_cons]), hruns, List.cons_append]
      rw [List.cons_append, runs_cons hrest, runs_cons hruns]
      split <;> rfl

theorem runs_of_decimal {ds : List Char} (hne : ds ≠ [])
    (h : ∀ c ∈ ds, Text.isDecimal c = true) : runs ds = [ds] := by
  induction ds with
  | nil => contradiction
  | cons c ds ih =>
    cases ds with
    | nil => rfl
    | cons d ds =>
      have hrest := ih (List.cons_ne_nil d ds) (fun c hc => h c (List.mem_cons_of_mem _ hc))
      have hsame : (Text.isDecimal c == Text.isDecimal d) = true := by
        rw [h c List.mem_cons_self, h d (List.mem_cons_of_mem _ List.mem_cons_self)]
        rfl
      rw [runs_cons hrest, hsame]
      rfl

/-- At least one ASCII digit, and nothing else. -/
def IsNumber (ds : List Char) : Prop := ds ≠ [] ∧ ∀ c ∈ ds, c.isDigit = true

instance (ds : List Char) : Decidable (IsNumber ds) :=
  @instDecidableAnd _ _ _ (List.decidableBAll _ ds)

theorem isDecimal_of_isDigit {c : Char} (h : c.isDigit = true) : Text.isDecimal c = true := by
  rw [Text.isDecimal, h, Bool.true_or]

/-- Before and behind a number, where no other digits are, a name is cut. -/
theorem chunks_number {p d s : String} (hd : IsNumber d.toList)
    (hp : ∀ c ∈ p.toList.getLast?, Text.isDecimal c = false)
    (hs : ∀ c ∈ s.toList.head?, Text.isDecimal c = false) :
    chunks (p ++ d ++ s) = chunks p ++ Chunk.ofRun d.toList :: chunks s := by
  obtain ⟨hne, hdigits⟩ := hd
  have hdecimal : ∀ c ∈ d.toList, Text.isDecimal c = true := fun c hc =>
    isDecimal_of_isDigit (hdigits c hc)
  have hbehind : runs (d.toList ++ s.toList) = d.toList :: runs s.toList := by
    rw [runs_append, runs_of_decimal hne hdecimal, List.singleton_append]
    intro c hc e he
    rw [hdecimal c (List.mem_of_mem_getLast? hc), hs e he]
    decide
  have hbefore : runs (p.toList ++ (d.toList ++ s.toList)) =
      runs p.toList ++ d.toList :: runs s.toList := by
    rw [runs_append, hbehind]
    intro c hc e he
    have hmem : e ∈ d.toList := by
      cases hcs : d.toList with
      | nil => contradiction
      | cons x xs =>
        rw [hcs] at he
        obtain rfl : x = e := Option.some.inj he
        exact List.mem_cons_self
    rw [hp c hc, hdecimal e hmem]
    decide
  rw [chunks, String.toList_append, String.toList_append, List.append_assoc, hbefore,
    List.map_append, List.map_cons]
  rfl

/-! ## Values -/

/-- The number that digits write behind those of `n`. -/
def continued (n : Nat) (ds : List Char) : Nat :=
  ds.foldl (fun n c => 10 * n + (c.toNat - '0'.toNat)) n

section
variable {a b : List Char} {m n : Nat}

theorem digit_le {c : Char} (h : c.isDigit = true) :
    '0'.toNat ≤ c.toNat ∧ c.toNat - '0'.toNat ≤ 9 := by
  simp only [Char.isDigit, Bool.and_eq_true, decide_eq_true_eq] at h
  have hlow : (48 : Nat) ≤ c.toNat := h.1
  have hhigh : c.toNat ≤ 57 := h.2
  have hzero : '0'.toNat = 48 := rfl
  omega

theorem continued_cons (c : Char) :
    continued n (c :: a) = continued (10 * n + (c.toNat - '0'.toNat)) a :=
  List.foldl_cons ..

theorem le_continued (n : Nat) (b : List Char) : n ≤ continued n b := by
  induction b generalizing n with
  | nil => exact Nat.le_refl n
  | cons d b ih =>
    have hrest := ih (10 * n + (d.toNat - '0'.toNat))
    rw [continued_cons]
    omega

/-- The earlier digits decide, unless more follow on the other side. -/
theorem continued_lt_of_lt (hlen : a.length ≤ b.length) (ha : ∀ c ∈ a, c.isDigit = true)
    (h : m < n) : continued m a < continued n b := by
  induction a generalizing b m n with
  | nil => exact Nat.lt_of_lt_of_le h (le_continued n b)
  | cons c a ih =>
    cases b with
    | nil => contradiction
    | cons d b =>
      have hc := digit_le (ha c List.mem_cons_self)
      rw [continued_cons, continued_cons]
      apply ih
      · simpa using hlen
      · exact fun c hc => ha c (List.mem_cons_of_mem _ hc)
      · omega

/-- Digits of the same count are ordered as text. -/
theorem continued_lt_of_text_lt (hlen : a.length = b.length) (ha : ∀ c ∈ a, c.isDigit = true)
    (h : a < b) : continued n a < continued n b := by
  induction a generalizing b n with
  | nil =>
    obtain rfl := List.eq_nil_of_length_eq_zero hlen.symm
    exact absurd h (List.lt_irrefl [])
  | cons c a ih =>
    cases b with
    | nil => contradiction
    | cons d b =>
      have hrest : ∀ c ∈ a, c.isDigit = true := fun c hc => ha c (List.mem_cons_of_mem _ hc)
      have hlength : a.length = b.length := by simpa using hlen
      rw [continued_cons, continued_cons]
      rcases List.cons_lt_cons_iff.mp h with hless | ⟨rfl, hless⟩
      · have hc := digit_le (ha c List.mem_cons_self)
        have hvalue : c.toNat < d.toNat := Char.lt_def.mp hless
        apply continued_lt_of_lt (Nat.le_of_eq hlength) hrest
        omega
      · exact ih hlength hrest hless

/-- Digits without leading zeros write more than fewer digits do. -/
theorem ofDigits_lt_of_length_lt (hlen : a.length < b.length) (ha : ∀ c ∈ a, c.isDigit = true)
    (hb : ∀ c ∈ b, c.isDigit = true) (hzero : b.head? ≠ some '0') : ofDigits a < ofDigits b := by
  cases b with
  | nil => exact absurd hlen (Nat.not_lt_zero _)
  | cons d b =>
    have hd := digit_le (hb d List.mem_cons_self)
    have hpositive : d.toNat ≠ '0'.toNat := by
      intro h
      rw [Char.toNat_inj.mp h] at hzero
      exact hzero rfl
    change continued 0 a < continued 0 (d :: b)
    rw [continued_cons]
    apply continued_lt_of_lt
    · exact Nat.le_of_lt_succ hlen
    · exact ha
    · omega

theorem compare_ofDigits (ha : ∀ c ∈ a, c.isDigit = true) (hb : ∀ c ∈ b, c.isDigit = true)
    (hazero : a.head? ≠ some '0') (hbzero : b.head? ≠ some '0') :
    (compare a.length b.length).then (compare (String.ofList a) (String.ofList b)) =
      compare (ofDigits a) (ofDigits b) := by
  have htext : ∀ {x y : List Char}, x < y → compare (String.ofList x) (String.ofList y) = .lt := by
    intro x y h
    apply compareOfLessAndEq_eq_lt.mpr
    rwa [String.lt_iff, String.toList_ofList, String.toList_ofList]
  have hvalue : ∀ {x y : List Char}, x.length = y.length → (∀ c ∈ x, c.isDigit = true) → x < y →
      ofDigits x < ofDigits y := continued_lt_of_text_lt
  rcases Nat.lt_trichotomy a.length b.length with hlen | hlen | hlen
  · rw [Nat.compare_eq_lt.mpr hlen,
      Nat.compare_eq_lt.mpr (ofDigits_lt_of_length_lt hlen ha hb hbzero)]
    rfl
  · rw [Nat.compare_eq_eq.mpr hlen, Ordering.eq_then]
    rcases Std.lt_trichotomy a b with hless | rfl | hless
    · rw [htext hless, Nat.compare_eq_lt.mpr (hvalue hlen ha hless)]
    · rw [Std.ReflOrd.compare_self, Std.ReflOrd.compare_self]
    · rw [Std.OrientedCmp.gt_of_lt (htext hless),
        Nat.compare_eq_gt.mpr (hvalue hlen.symm hb hless)]
  · rw [Nat.compare_eq_gt.mpr hlen,
      Nat.compare_eq_gt.mpr (ofDigits_lt_of_length_lt hlen hb ha hazero)]
    rfl

theorem ofDigits_dropWhile_zero (ds : List Char) :
    ofDigits (ds.dropWhile (· == '0')) = ofDigits ds := by
  induction ds with
  | nil => rfl
  | cons c ds ih =>
    rw [List.dropWhile_cons]
    split
    · rename_i hc
      rw [ih, eq_of_beq hc]
      rfl
    · rfl

theorem utf8ByteSize_ofList_digits (ha : ∀ c ∈ a, c.isDigit = true) :
    (String.ofList a).utf8ByteSize = a.length := by
  induction a with
  | nil => rfl
  | cons c a ih =>
    have hsize : c.utf8Size = 1 := by
      have hc := ha c List.mem_cons_self
      simp only [Char.isDigit, Bool.and_eq_true, decide_eq_true_eq] at hc
      exact Char.utf8Size_eq_one_iff.mpr (UInt32.le_trans hc.2 (by decide))
    rw [String.ofList_cons, String.utf8ByteSize_append, String.utf8ByteSize_singleton, hsize,
      ih fun c hc => ha c (List.mem_cons_of_mem _ hc), List.length_cons, Nat.add_comm]

end

/-- Pieces that are numbers are ordered by value. -/
theorem compare_ofRun {a b : List Char} (ha : IsNumber a) (hb : IsNumber b) :
    (Chunk.ofRun a).compare (Chunk.ofRun b) = compare (ofDigits a) (ofDigits b) := by
  have hrun : ∀ {ds : List Char}, IsNumber ds → Chunk.ofRun ds =
      .number (ds.dropWhile (· == '0')).length (String.ofList (ds.dropWhile (· == '0'))) := by
    intro ds ⟨hne, hdigits⟩
    have hhead : ds.head?.any Char.isDigit = true := by
      cases ds with
      | nil => contradiction
      | cons c ds => exact hdigits c List.mem_cons_self
    rw [Chunk.ofRun, if_pos hhead]
    simp only
    rw [utf8ByteSize_ofList_digits]
    exact fun c hc => hdigits c ((List.dropWhile_sublist _).mem hc)
  have hzero : ∀ ds : List Char, (ds.dropWhile (· == '0')).head? ≠ some '0' := by
    intro ds h
    have hfirst := List.head?_dropWhile_not (· == '0') ds
    rw [h] at hfirst
    contradiction
  rw [hrun ha, hrun hb, Chunk.compare, compare_ofDigits, ofDigits_dropWhile_zero,
    ofDigits_dropWhile_zero]
  · exact fun c hc => ha.2 c ((List.dropWhile_sublist _).mem hc)
  · exact fun c hc => hb.2 c ((List.dropWhile_sublist _).mem hc)
  · exact hzero a
  · exact hzero b

/-- The comparison of names is a total order, and of names that agree up to a number the one with the
less number comes first, whatever follows. -/
theorem names_ordered :
    (∀ a b, compareNames a b = .eq ↔ a = b) ∧
    (∀ a b, compareNames b a = (compareNames a b).swap) ∧
    (∀ a b c, (compareNames a b).isLE → (compareNames b c).isLE → (compareNames a c).isLE) ∧
    ∀ p d₁ d₂ s₁ s₂ : String, (∀ c ∈ p.toList.getLast?, Text.isDecimal c = false) →
      IsNumber d₁.toList → IsNumber d₂.toList →
      (∀ c ∈ s₁.toList.head?, Text.isDecimal c = false) →
      (∀ c ∈ s₂.toList.head?, Text.isDecimal c = false) →
      ofDigits d₁.toList ≠ ofDigits d₂.toList →
      compareNames (p ++ d₁ ++ s₁) (p ++ d₂ ++ s₂) =
        compare (ofDigits d₁.toList) (ofDigits d₂.toList) := by
  refine ⟨fun _ _ => compareNames_eq_iff, fun _ _ => Std.OrientedCmp.eq_swap,
    fun _ _ _ => Std.TransCmp.isLE_trans, ?_⟩
  intro p d₁ d₂ s₁ s₂ hp hd₁ hd₂ hs₁ hs₂ hne
  have hdecided : compare (ofDigits d₁.toList) (ofDigits d₂.toList) ≠ .eq :=
    fun h => hne (Nat.compare_eq_eq.mp h)
  rw [compareNames, chunks_number hd₁ hp hs₁, chunks_number hd₂ hp hs₂, compareChunks_append_left,
    compareChunks, compare_ofRun hd₁ hd₂]
  cases h : compare (ofDigits d₁.toList) (ofDigits d₂.toList) with
  | eq => contradiction
  | lt | gt => rfl

/-- Leading zeros do not matter, nor how many digits there are, nor what follows. -/
theorem names_ordered_leadingZeros :
    compareNames "w-007" "w-9" = .lt ∧ compareNames "w-9" "w-10b" = .lt ∧
      (compareNames "w-007" "w-10b").isLE := by
  obtain ⟨_, _, htrans, hnumbers⟩ := names_ordered
  have hbefore : ∀ c ∈ "w-".toList.getLast?, Text.isDecimal c = false := by
    rintro c ⟨⟩
    rfl
  have hletter : ∀ c ∈ "b".toList.head?, Text.isDecimal c = false := by
    rintro c ⟨⟩
    rfl
  have hend : ∀ c ∈ "".toList.head?, Text.isDecimal c = false := by
    rintro c ⟨⟩
  have hseven : compareNames "w-007" "w-9" = .lt :=
    hnumbers "w-" "007" "9" "" "" hbefore (by decide) (by decide) hend hend (by decide)
  have hnine : compareNames "w-9" "w-10b" = .lt :=
    hnumbers "w-" "9" "10" "" "b" hbefore (by decide) (by decide) hend hletter (by decide)
  refine ⟨hseven, hnine, htrans "w-007" "w-9" "w-10b" ?_ ?_⟩
  · rw [hseven]
    rfl
  · rw [hnine]
    rfl

end DebugAdapter.Thread
