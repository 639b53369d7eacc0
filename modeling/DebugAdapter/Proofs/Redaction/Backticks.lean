import DebugAdapter.Proofs.Text.Search
import DebugAdapter.Redaction

/-!
# Names and values between backticks

The second part of redaction looks for the words before a name or a value (`hiddenFrom?`) and for the
backtick behind it (`hiddenEnd?`). Words that are found are found there whatever follows
(`unknownName?_append`).
-/

namespace DebugAdapter.Redaction

open Text (indexOf? endOf?)

/-- The backtick behind a name, and the words that follow it. -/
def closing : List Char := "`, expected".toList

/-- Where what has to be hidden between backticks begins. -/
def hiddenFrom? (cs : List Char) : Option Nat := (unknownName? cs).or (wrongValue? cs)

/-- How long it is. -/
def hiddenEnd? (cs : List Char) : Option Nat := (indexOf? closing cs).or (indexOf? ['`'] cs)

/-- What redaction does once nothing is left between double quotes. -/
def redactTicked (cs : List Char) : List Char :=
  match hiddenFrom? cs with
  | some start => redactFrom start cs
  | none => cs

theorem redactChars_eq (cs : List Char) :
    redactChars cs = redactTicked (redactQuoted .outside cs) := rfl

theorem redactFrom_append (before cs : List Char) : redactFrom before.length (before ++ cs) =
    (hiddenEnd? cs).elim (before ++ cs) fun n => before ++ (mark ++ cs.drop n) := by
  have hend : (indexOf? "`, expected".toList cs).or (indexOf? ['`'] cs) = hiddenEnd? cs := rfl
  simp only [redactFrom, List.drop_left, List.take_left, hend]
  cases hiddenEnd? cs with
  | none => rfl
  | some n => exact List.append_assoc _ _ _

/-! ## Where a name begins -/

section
variable {before cs : List Char} {start : Nat}

/-- It begins where the first of the two forms of words ends. -/
theorem unknownName?_eq_some_iff : unknownName? cs = some start ↔
    (endOf? "unknown field `".toList cs = some start ∨
      endOf? "unknown variant `".toList cs = some start) ∧
    (∀ e, endOf? "unknown field `".toList cs = some e → start ≤ e) ∧
    ∀ e, endOf? "unknown variant `".toList cs = some e → start ≤ e := by
  unfold unknownName?
  cases endOf? "unknown field `".toList cs <;> cases endOf? "unknown variant `".toList cs <;>
    simp <;> omega

theorem unknownName?_append (h : unknownName? before = some before.length) (cs : List Char) :
    unknownName? (before ++ cs) = some before.length := by
  obtain ⟨hends, hfield, hvariant⟩ := unknownName?_eq_some_iff.mp h
  have hlater : ∀ piece, (∀ e, endOf? piece before = some e → before.length ≤ e) →
      ∀ e, endOf? piece (before ++ cs) = some e → before.length ≤ e := by
    intro piece hpiece e he
    cases hfound : endOf? piece before with
    | none => exact Nat.le_of_lt (Text.lt_endOf?_append hfound he)
    | some x =>
      rw [Text.endOf?_append hfound] at he
      exact Option.some.inj he ▸ hpiece x hfound
  exact unknownName?_eq_some_iff.mpr
    ⟨hends.imp (Text.endOf?_append · cs) (Text.endOf?_append · cs), hlater _ hfield,
      hlater _ hvariant⟩

theorem unknownName?_of_append (h : unknownName? (before ++ cs) = some before.length) :
    unknownName? before = some before.length := by
  obtain ⟨hends, hfield, hvariant⟩ := unknownName?_eq_some_iff.mp h
  have hwithin : ∀ piece, endOf? piece (before ++ cs) = some before.length →
      endOf? piece before = some before.length := fun _ hpiece =>
    Text.endOf?_of_append hpiece (Nat.le_refl _)
  exact unknownName?_eq_some_iff.mpr ⟨hends.imp (hwithin _) (hwithin _),
    fun e he => hfield e (Text.endOf?_append he cs),
    fun e he => hvariant e (Text.endOf?_append he cs)⟩

end

/-! ## Where it ends -/

section
variable {cs xs ys : List Char} {n : Nat}

theorem hiddenEnd?_le_length (h : hiddenEnd? cs = some n) : n ≤ cs.length := by
  have hle : ∀ piece, indexOf? piece cs = some n → n ≤ cs.length := fun piece hpiece =>
    Nat.le_trans (Nat.le_add_right _ _) (Text.add_length_le_of_indexOf? hpiece)
  rcases Option.or_eq_some_iff.mp h with h | ⟨-, h⟩
  · exact hle _ h
  · exact hle _ h

/-- Behind text without the backtick and its words it is where these are. -/
theorem hiddenEnd?_append_closing (xs ys : List Char) :
    hiddenEnd? (xs ++ (closing ++ ys)) = (indexOf? closing xs).or (some xs.length) := by
  have hcut : indexOf? closing (xs ++ '`' :: (", expected".toList ++ ys)) =
      (indexOf? closing xs).or ((indexOf? closing (closing ++ ys)).map (· + xs.length)) :=
    Text.indexOf?_append_cons (by decide)
  rw [Text.indexOf?_of_isPrefix (List.prefix_append _ _), Option.map_some, Nat.zero_add] at hcut
  rw [hiddenEnd?, show closing ++ ys = '`' :: (", expected".toList ++ ys) from rfl, hcut]
  cases indexOf? closing xs <;> rfl

theorem hiddenEnd?_append_cons {c : Char} (hc : c ∉ closing.tail) (hnone : hiddenEnd? (c :: ys) = none) :
    hiddenEnd? (xs ++ c :: ys) = hiddenEnd? xs := by
  obtain ⟨hclosing, htick⟩ := Option.or_eq_none_iff.mp hnone
  rw [hiddenEnd?, Text.indexOf?_append_cons hc, Text.indexOf?_append_cons List.not_mem_nil, hclosing,
    htick]
  simp [hiddenEnd?]

/-- What is put in place of the hidden text ends where that did. -/
theorem exists_tail_of_hiddenEnd? (h : hiddenEnd? cs = some n) :
    ∃ tail, cs.drop n = '`' :: tail ∧ hiddenEnd? (mark ++ '`' :: tail) = some mark.length := by
  have hmark : ∀ tail, hiddenEnd? (mark ++ '`' :: tail) =
      (hiddenEnd? ('`' :: tail)).map (· + mark.length) := by
    intro tail
    rw [hiddenEnd?, Text.indexOf?_append_cons (by decide), Text.indexOf?_append_cons (by decide),
      show indexOf? closing mark = none by decide, show indexOf? ['`'] mark = none by decide,
      Option.none_or, Option.none_or, ← Option.map_or]
    rfl
  rcases Option.or_eq_some_iff.mp h with hclosing | ⟨hnone, htick⟩
  · obtain ⟨rest, hrest⟩ := Text.isPrefix_drop_of_indexOf? hclosing
    have hfound : indexOf? closing ('`' :: (", expected".toList ++ rest)) = some 0 :=
      Text.indexOf?_of_isPrefix ⟨rest, rfl⟩
    refine ⟨", expected".toList ++ rest, hrest.symm, ?_⟩
    rw [hmark, hiddenEnd?, hfound]
    rfl
  · obtain ⟨tail, htail⟩ := Text.isPrefix_drop_of_indexOf? htick
    have hfound : indexOf? ['`'] ('`' :: tail) = some 0 := Text.indexOf?_of_isPrefix ⟨tail, rfl⟩
    have hsuffix : '`' :: tail <:+ cs := by
      rw [← List.singleton_append, htail]
      exact List.drop_suffix n cs
    have hrest : indexOf? closing ('`' :: tail) = none := by
      rw [Text.indexOf?_eq_none_iff] at hnone ⊢
      exact fun hlater => hnone (hlater.trans hsuffix.isInfix)
    refine ⟨tail, htail.symm, ?_⟩
    rw [hmark, hiddenEnd?, hrest, hfound]
    rfl

end

end DebugAdapter.Redaction
