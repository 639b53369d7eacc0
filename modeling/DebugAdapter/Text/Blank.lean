/-!
# Blanks

Properties of characters are given as lists of inclusive code point ranges.  The simplest of them is
the Unicode property `White_Space`; text is cut at the characters that have it by trimming both ends
and by taking the first word off.  Lines end at a line feed, with or without a carriage return before
it.
-/

namespace DebugAdapter.Text

/-- The character lies in one of the inclusive ranges. -/
def inRanges (ranges : List (Nat × Nat)) (c : Char) : Bool :=
  ranges.any fun r => r.1 ≤ c.toNat && c.toNat ≤ r.2

theorem inRanges_iff {ranges : List (Nat × Nat)} {c : Char} :
    inRanges ranges c = true ↔ ∃ r ∈ ranges, r.1 ≤ c.toNat ∧ c.toNat ≤ r.2 := by
  simp [inRanges]

/-- Code points with the property `White_Space`. -/
def blanks : List (Nat × Nat) :=
  [(0x9, 0xD), (0x20, 0x20), (0x85, 0x85), (0xA0, 0xA0), (0x1680, 0x1680), (0x2000, 0x200A),
   (0x2028, 0x2029), (0x202F, 0x202F), (0x205F, 0x205F), (0x3000, 0x3000)]

/-- A blank of any script. -/
def isBlank (c : Char) : Bool := inRanges blanks c

/-- The text without the trailing characters that satisfy `p`. -/
def dropTrailing (p : Char → Bool) (cs : List Char) : List Char := (cs.reverse.dropWhile p).reverse

theorem dropTrailing_append {p : Char → Bool} {cs trailing : List Char}
    (htrailing : ∀ c ∈ trailing, p c = true) (hlast : ∀ c ∈ cs.getLast?, p c = false) :
    dropTrailing p (cs ++ trailing) = cs := by
  have hreverse : ∀ c ∈ trailing.reverse, p c = true := fun c hc =>
    htrailing c (List.mem_reverse.mp hc)
  rw [dropTrailing, List.reverse_append, List.dropWhile_append_of_pos hreverse]
  have hkept : cs.reverse.dropWhile p = cs.reverse := by
    cases hcs : cs.reverse with
    | nil => rfl
    | cons c rest =>
      have hc : p c = false := hlast c (by rw [← List.head?_reverse, hcs]; rfl)
      rw [List.dropWhile_cons_of_neg (by simp [hc])]
  rw [hkept, List.reverse_reverse]

/-- The characters without the blanks at both ends. -/
def trimChars (cs : List Char) : List Char := dropTrailing isBlank (cs.dropWhile isBlank)

/-- The text without the blanks at both ends. -/
def trim (s : String) : String := String.ofList (trimChars s.toList)

/-- The trimmed text, unless nothing is left of it. -/
def nonBlank? (s : String) : Option String :=
  let t := trim s
  if t.isEmpty then none else some t

/-- The parts before and after the first character that satisfies `p`, without that character. -/
def splitFirst? (p : Char → Bool) : List Char → Option (List Char × List Char)
  | [] => none
  | c :: cs => if p c then some ([], cs) else (splitFirst? p cs).map fun (a, b) => (c :: a, b)

/-- The first word, and what follows the blank after it, trimmed. -/
def firstWord (cs : List Char) : List Char × List Char :=
  match splitFirst? isBlank cs with
  | some (word, rest) => (word, trimChars rest)
  | none => (cs, [])

/-- The part after the last character that satisfies `p`; everything if there is none. -/
def afterLast (p : Char → Bool) (cs : List Char) : List Char :=
  (cs.reverse.takeWhile fun c => !p c).reverse

theorem afterLast_append_cons {p : Char → Bool} (before : List Char) {behind : List Char} {c : Char}
    (hc : p c = true) (hbehind : ∀ x ∈ behind, p x = false) :
    afterLast p (before ++ c :: behind) = behind := by
  have hreverse : ∀ x ∈ behind.reverse, (!p x) = true := by simpa using hbehind
  have hcut : (before ++ c :: behind).reverse = behind.reverse ++ c :: before.reverse := by simp
  rw [afterLast, hcut, List.takeWhile_append_of_pos hreverse,
    List.takeWhile_cons_of_neg (by simp [hc]), List.append_nil, List.reverse_reverse]

theorem afterLast_eq_self {p : Char → Bool} {cs : List Char} (h : ∀ x ∈ cs, p x = false) :
    afterLast p cs = cs := by
  have hreverse : ∀ x ∈ cs.reverse, (!p x) = true := by simpa using h
  have htaken : (cs.reverse ++ []).takeWhile (fun c => !p c) = cs.reverse ++ [] :=
    List.takeWhile_append_of_pos hreverse
  rw [List.append_nil] at htaken
  rw [afterLast, htaken, List.reverse_reverse]

/-- A line without the carriage return that ends it. -/
def chomp (cs : List Char) : List Char :=
  match cs.reverse with
  | '\r' :: r => r.reverse
  | _ => cs

/-- The lines of a text.  A final line feed ends the last line and does not begin another. -/
def lines (cs : List Char) : List (List Char) := go [] cs
where
  /-- `current` is the line so far, in reverse. -/
  go (current : List Char) : List Char → List (List Char)
    | [] => if current.isEmpty then [] else [current.reverse]
    | '\n' :: cs => chomp current.reverse :: go [] cs
    | c :: cs => go (c :: current) cs

end DebugAdapter.Text
