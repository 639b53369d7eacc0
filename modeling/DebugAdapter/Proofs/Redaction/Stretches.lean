import DebugAdapter.Redaction
import Mathlib.Data.List.Infix

/-!
# Stretches between double quotes

The first part of redaction reads a text from left to right and keeps nothing but where it stands
(`Quoting.after`), so it is told over concatenation (`redactQuoted_append`). What it does to a stretch
does not depend on what is in there (`Quotable.redactQuoted_inside`). What it puts out is `Settled`: it
is left alone by another redaction, and cut at a character that is in no stretch it can be put together
again with other such text (`Settled.split`).
-/

namespace DebugAdapter.Redaction

deriving instance DecidableEq for Quoting

/-! ## From left to right -/

def Quoting.next : Quoting → Char → Quoting
  | .outside, c => if c == '"' then .inside else .outside
  | .inside, c => if c == '\\' then .escaped else if c == '"' then .outside else .inside
  | .escaped, _ => .inside

/-- Where the end of a text stands. -/
def Quoting.after (q : Quoting) (cs : List Char) : Quoting := cs.foldl Quoting.next q

/-- What is put out before the end of a text is seen. -/
def redactPart : Quoting → List Char → List Char
  | _, [] => []
  | .outside, c :: cs => c :: redactPart (Quoting.outside.next c) cs
  | .inside, c :: cs =>
    if c = '"' then mark ++ '"' :: redactPart .outside cs
    else redactPart (Quoting.inside.next c) cs
  | .escaped, _ :: cs => redactPart .inside cs

theorem redactQuoted_append (q : Quoting) (xs ys : List Char) :
    redactQuoted q (xs ++ ys) = redactPart q xs ++ redactQuoted (q.after xs) ys := by
  induction xs generalizing q with
  | nil => rfl
  | cons x xs ih =>
    rw [List.cons_append]
    cases q with
    | outside => exact congrArg (x :: ·) (ih _)
    | escaped => exact ih .inside
    | inside =>
      by_cases hquote : x = '"'
      · have hrest := ih .outside
        simp [redactQuoted, redactPart, Quoting.after, Quoting.next, hquote, hrest]
      · have hrest := ih (Quoting.inside.next x)
        by_cases hbackslash : x = '\\' <;>
          simp_all [redactQuoted, redactPart, Quoting.after, Quoting.next]

theorem redactQuoted_outside_append {xs : List Char} (hxs : '"' ∉ xs) (ys : List Char) :
    redactQuoted .outside (xs ++ ys) = xs ++ redactQuoted .outside ys := by
  induction xs with
  | nil => rfl
  | cons x xs ih =>
    rw [List.mem_cons, not_or] at hxs
    simp [redactQuoted, Ne.symm hxs.1, ih hxs.2]

theorem redactQuoted_outside_of_not_mem {cs : List Char} (h : '"' ∉ cs) :
    redactQuoted .outside cs = cs := by
  simpa [redactQuoted] using redactQuoted_outside_append h []

theorem redactQuoted_outside_quote (cs : List Char) :
    redactQuoted .outside ('"' :: cs) = '"' :: redactQuoted .inside cs := rfl

/-! ## What may stand in a stretch -/

/-- Text that may stand between double quotes: each quote and each backslash of it follows a
backslash. -/
inductive Quotable : List Char → Prop where
  | nil : Quotable []
  | plain {c : Char} {cs : List Char} (hquote : c ≠ '"') (hbackslash : c ≠ '\\') (h : Quotable cs) :
    Quotable (c :: cs)
  | escaped {cs : List Char} (c : Char) (h : Quotable cs) : Quotable ('\\' :: c :: cs)

theorem Quotable.append {xs ys : List Char} (hxs : Quotable xs) (hys : Quotable ys) :
    Quotable (xs ++ ys) := by
  induction hxs with
  | nil => exact hys
  | plain hquote hbackslash _ ih => exact .plain hquote hbackslash ih
  | escaped c _ ih => exact .escaped c ih

theorem Quotable.flatMap {α : Type} {f : α → List Char} (h : ∀ x, Quotable (f x)) (xs : List α) :
    Quotable (xs.flatMap f) := by
  induction xs with
  | nil => exact .nil
  | cons x xs ih => exact (h x).append ih

theorem quotable_of_plain {cs : List Char} (hquote : '"' ∉ cs) (hbackslash : '\\' ∉ cs) :
    Quotable cs := by
  induction cs with
  | nil => exact .nil
  | cons c cs ih =>
    obtain ⟨hc, hcs⟩ := List.ne_and_not_mem_of_not_mem_cons hquote
    obtain ⟨hc', hcs'⟩ := List.ne_and_not_mem_of_not_mem_cons hbackslash
    exact .plain hc.symm hc'.symm (ih hcs hcs')

theorem quotable_mark : Quotable mark := quotable_of_plain (by decide) (by decide)

/-- A closed stretch is told by the mark alone. -/
theorem Quotable.redactQuoted_inside {cs : List Char} (h : Quotable cs) (rest : List Char) :
    redactQuoted .inside (cs ++ '"' :: rest) = mark ++ '"' :: redactQuoted .outside rest := by
  induction h with
  | nil => rfl
  | plain hquote hbackslash _ ih => simpa [redactQuoted, hquote, hbackslash] using ih
  | escaped c _ ih => exact ih

theorem Quotable.redactQuoted_isPrefix {cs part : List Char} (h : Quotable cs) (hpart : part <+: cs) :
    redactQuoted .inside part = mark := by
  induction h generalizing part with
  | nil =>
    rw [List.prefix_nil.mp hpart]
    rfl
  | plain hquote hbackslash _ ih =>
    cases part with
    | nil => rfl
    | cons d part =>
      obtain ⟨rfl, hrest⟩ := List.cons_prefix_cons.mp hpart
      simpa [redactQuoted, hquote, hbackslash] using ih hrest
  | escaped c _ ih =>
    match part with
    | [] => rfl
    | [d] =>
      obtain ⟨rfl, -⟩ := List.cons_prefix_cons.mp hpart
      rfl
    | d :: e :: part =>
      obtain ⟨rfl, hrest⟩ := List.cons_prefix_cons.mp hpart
      have hpart := ih (List.cons_prefix_cons.mp hrest).2
      exact hpart

/-- The last quote that is put out for a text that ends in a stretch opens it. -/
theorem exists_redactQuoted_eq {q : Quoting} {cs : List Char} (h : q.after cs ≠ .outside) :
    ∃ before, (if q = .outside then redactQuoted q cs else '"' :: redactQuoted q cs) =
      before ++ '"' :: mark := by
  induction cs generalizing q with
  | nil =>
    cases q with
    | outside => contradiction
    | inside => exact ⟨[], rfl⟩
    | escaped => exact ⟨[], rfl⟩
  | cons c cs ih =>
    obtain ⟨before, hbefore⟩ := ih h
    cases q with
    | outside =>
      by_cases hquote : c = '"'
      · rw [hquote] at hbefore
        exact ⟨before, by rw [hquote]; exact hbefore⟩
      · refine ⟨c :: before, ?_⟩
        simp_all [redactQuoted, Quoting.next]
    | escaped => exact ⟨before, hbefore⟩
    | inside =>
      by_cases hbackslash : c = '\\'
      · rw [hbackslash] at hbefore
        exact ⟨before, by rw [hbackslash]; exact hbefore⟩
      · by_cases hquote : c = '"'
        · refine ⟨'"' :: mark ++ '"' :: before, ?_⟩
          simp_all [redactQuoted, Quoting.next]
        · refine ⟨before, ?_⟩
          simp_all [redactQuoted, Quoting.next]

/-! ## What is put out -/

/-- Text in which nothing but the mark stands between double quotes. The last stretch may be open. -/
inductive Settled : List Char → Prop where
  | nil : Settled []
  | cons {c : Char} {cs : List Char} (hc : c ≠ '"') (h : Settled cs) : Settled (c :: cs)
  | stretch {cs : List Char} (h : Settled cs) : Settled ('"' :: (mark ++ '"' :: cs))
  | cut : Settled ('"' :: mark)

theorem Settled.append_of_not_mem {xs ys : List Char} (hxs : '"' ∉ xs) (hys : Settled ys) :
    Settled (xs ++ ys) := by
  induction xs with
  | nil => exact hys
  | cons x xs ih =>
    rw [List.mem_cons, not_or] at hxs
    exact .cons (Ne.symm hxs.1) (ih hxs.2)

theorem settled_redactQuoted (q : Quoting) (cs : List Char) :
    Settled (if q = .outside then redactQuoted q cs else '"' :: redactQuoted q cs) := by
  induction cs generalizing q with
  | nil =>
    cases q with
    | outside => exact .nil
    | inside => exact .cut
    | escaped => exact .cut
  | cons c cs ih =>
    cases q with
    | outside =>
      by_cases hquote : c = '"'
      · rw [hquote]
        exact ih .inside
      · simpa [redactQuoted, hquote] using Settled.cons hquote (ih .outside)
    | escaped => exact ih .inside
    | inside =>
      by_cases hbackslash : c = '\\'
      · rw [hbackslash]
        exact ih .escaped
      · by_cases hquote : c = '"'
        · rw [hquote]
          exact .stretch (ih .outside)
        · simpa [redactQuoted, hquote, hbackslash] using ih .inside

theorem Settled.redactQuoted_eq {cs : List Char} (h : Settled cs) :
    redactQuoted .outside cs = cs := by
  induction h with
  | nil => rfl
  | cons hc _ ih => simp [redactQuoted, hc, ih]
  | stretch _ ih => rw [redactQuoted_outside_quote, quotable_mark.redactQuoted_inside, ih]
  | cut => rw [redactQuoted_outside_quote, quotable_mark.redactQuoted_isPrefix (List.prefix_refl _)]

/-- A character that is neither a quote nor in the mark stands outside, and the text may go on there
in another way. -/
theorem Settled.split {cs xs ys : List Char} {c : Char} (h : Settled cs) (hcs : cs = xs ++ c :: ys)
    (hquote : c ≠ '"') (hmark : c ∉ mark) :
    Settled ys ∧ ∀ zs, Settled zs → Settled (xs ++ zs) := by
  induction h generalizing xs with
  | nil => simp at hcs
  | @cons d cs hd h ih =>
    cases xs with
    | nil =>
      obtain ⟨-, rfl⟩ := List.cons.inj hcs
      exact ⟨h, fun _ => id⟩
    | cons x xs =>
      obtain ⟨rfl, hrest⟩ := List.cons.inj hcs
      obtain ⟨hys, hxs⟩ := ih hrest
      exact ⟨hys, fun zs hzs => .cons hd (hxs zs hzs)⟩
  | @stretch cs h ih =>
    have hopen : ('"' :: mark ++ ['"']) ++ cs = xs ++ c :: ys := by simpa using hcs
    have hother : c ∉ '"' :: mark ++ ['"'] := by simp [hquote, hmark]
    rcases List.append_eq_append_iff.mp hopen with ⟨as, rfl, has⟩ | ⟨as, has, hrest⟩
    · obtain ⟨hys, hxs⟩ := ih has
      refine ⟨hys, fun zs hzs => ?_⟩
      simpa using Settled.stretch (hxs zs hzs)
    · cases as with
      | nil =>
        obtain ⟨hys, -⟩ := @ih [] hrest.symm
        rw [List.append_nil] at has
        exact ⟨hys, fun zs hzs => by simpa [← has] using Settled.stretch hzs⟩
      | cons a as =>
        obtain ⟨rfl, -⟩ := List.cons.inj hrest
        exact absurd (has ▸ List.mem_append_right _ List.mem_cons_self) hother
  | cut =>
    have hmem : c ∈ '"' :: mark := hcs ▸ List.mem_append_right _ List.mem_cons_self
    simp [hquote, hmark] at hmem

end DebugAdapter.Redaction
