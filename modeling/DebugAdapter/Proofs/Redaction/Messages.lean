import DebugAdapter.Json.Decode
import DebugAdapter.Proofs.Redaction.Backticks
import DebugAdapter.Proofs.Redaction.Stretches

/-!
# Messages with quoted strings

What comes out for a message with quoted strings is what comes out with the mark in their place
(`redactQuoted_message`), so it depends on the text between them alone. Redaction is final: what it puts
out it leaves alone (`redactChars_redactChars`).
-/

namespace DebugAdapter.Redaction

open Text (indexOf? endOf?)

/-! ## Hiding twice -/

section
variable {before rest cs tail : List Char} {start n : Nat}

/-- Words that do not have the brackets of the mark and are not in it do not come up with it. -/
theorem isInfix_mark_iff {piece : List Char} (hne : piece ≠ []) (hopen : '<' ∉ piece)
    (hclose : '>' ∉ piece) (hmark : ¬piece <:+: "redacted".toList) :
    piece <:+: before ++ (mark ++ tail) ↔ piece <:+: before ∨ piece <:+: tail := by
  have hsplit : before ++ (mark ++ tail) = before ++ '<' :: ("redacted".toList ++ '>' :: tail) := rfl
  rw [hsplit, Text.isInfix_append_cons_iff hne hopen, Text.isInfix_append_cons_iff hne hclose,
    or_iff_right hmark]

theorem unknownName?_eq_none_iff : unknownName? cs = none ↔
    ¬"unknown field `".toList <:+: cs ∧ ¬"unknown variant `".toList <:+: cs := by
  rw [← Text.indexOf?_eq_none_iff, ← Text.indexOf?_eq_none_iff]
  unfold unknownName? endOf?
  cases indexOf? "unknown field `".toList cs <;> cases indexOf? "unknown variant `".toList cs <;>
    simp

theorem unknownName?_mark (hnone : unknownName? (before ++ rest) = none) (htail : tail <:+ rest) :
    unknownName? (before ++ (mark ++ tail)) = none := by
  obtain ⟨hfield, hvariant⟩ := unknownName?_eq_none_iff.mp hnone
  have hbefore : before <:+: before ++ rest := (List.prefix_append _ _).isInfix
  replace htail : tail <:+: before ++ rest := (htail.trans (List.suffix_append _ _)).isInfix
  rw [unknownName?_eq_none_iff, isInfix_mark_iff (by decide) (by decide) (by decide) (by decide),
    isInfix_mark_iff (by decide) (by decide) (by decide) (by decide), not_or, not_or]
  exact ⟨⟨fun h => hfield (h.trans hbefore), fun h => hfield (h.trans htail)⟩,
    fun h => hvariant (h.trans hbefore), fun h => hvariant (h.trans htail)⟩

/-- Where the words on what was expected begin. -/
def expectation (cs : List Char) : Nat := (indexOf? ", expected".toList cs).getD cs.length

theorem wrongValue?_eq (cs : List Char) :
    wrongValue? cs = none ∨ wrongValue? cs = endOf? ['`'] (cs.take (expectation cs)) := by
  unfold wrongValue?
  split
  · exact Or.inr rfl
  · exact Or.inl rfl

/-- Behind text that does not have these words they can only come later. -/
theorem length_le_expectation (h : before.length ≤ expectation (before ++ rest)) (tail : List Char) :
    before.length ≤ expectation (before ++ (mark ++ tail)) := by
  have hcut : indexOf? ", expected".toList (before ++ (mark ++ tail)) =
      (indexOf? ", expected".toList before).or
        ((indexOf? ", expected".toList (mark ++ tail)).map (· + before.length)) :=
    Text.indexOf?_append_cons (by decide)
  rw [expectation, hcut]
  cases hbefore : indexOf? ", expected".toList before with
  | none =>
    cases indexOf? ", expected".toList (mark ++ tail) with
    | none => simp
    | some m => simp
  | some m =>
    have hend := Text.add_length_le_of_indexOf? hbefore
    have hwords : 0 < ", expected".toList.length := by decide
    rw [expectation, Text.indexOf?_append hbefore, Option.getD_some] at h
    omega

theorem wrongValue?_append (h : wrongValue? (before ++ rest) = some before.length) :
    before.length ≤ expectation (before ++ rest) ∧ endOf? ['`'] before = some before.length := by
  have htick : endOf? ['`'] ((before ++ rest).take (expectation (before ++ rest))) =
      some before.length := by
    rcases wrongValue?_eq (before ++ rest) with hnone | heq
    · rw [hnone] at h
      contradiction
    · rw [← heq, h]
  have hstart : before.length ≤ expectation (before ++ rest) :=
    Nat.le_trans (Text.endOf?_le_length htick) (List.length_take_le _ _)
  rw [List.take_append, List.take_of_length_le hstart] at htick
  exact ⟨hstart, Text.endOf?_of_append htick (Nat.le_refl _)⟩

/-- With the mark behind the backtick, the value still begins there or none does. -/
theorem wrongValue?_mark (h : wrongValue? (before ++ rest) = some before.length)
    (tail : List Char) :
    wrongValue? (before ++ (mark ++ tail)) = some before.length ∨
      wrongValue? (before ++ (mark ++ tail)) = none := by
  obtain ⟨hstart, htick⟩ := wrongValue?_append h
  rcases wrongValue?_eq (before ++ (mark ++ tail)) with hnone | heq
  · exact Or.inr hnone
  · rw [heq, List.take_append, List.take_of_length_le (length_le_expectation hstart tail)]
    exact Or.inl (Text.endOf?_append htick _)

theorem isSuffix_of_hiddenFrom? (h : hiddenFrom? (before ++ rest) = some before.length) :
    ['`'] <:+ before := by
  rcases Option.or_eq_some_iff.mp h with hname | ⟨-, hvalue⟩
  · have hwords := (unknownName?_eq_some_iff.mp (unknownName?_of_append hname)).1
    rcases hwords with hwords | hwords
    · exact (show ['`'] <:+ "unknown field `".toList by decide).trans
        (Text.isSuffix_of_endOf? hwords)
    · exact (show ['`'] <:+ "unknown variant `".toList by decide).trans
        (Text.isSuffix_of_endOf? hwords)
  · exact Text.isSuffix_of_endOf? (wrongValue?_append hvalue).2

theorem hiddenFrom?_mark (h : hiddenFrom? (before ++ rest) = some before.length)
    (htail : tail <:+ rest) :
    hiddenFrom? (before ++ (mark ++ tail)) = some before.length ∨
      hiddenFrom? (before ++ (mark ++ tail)) = none := by
  rcases Option.or_eq_some_iff.mp h with hname | ⟨hnone, hvalue⟩
  · have hagain := unknownName?_append (unknownName?_of_append hname) (mark ++ tail)
    exact Or.inl (Option.or_eq_some_iff.mpr (Or.inl hagain))
  · rw [hiddenFrom?, unknownName?_mark hnone htail, Option.none_or]
    exact wrongValue?_mark hvalue tail

theorem hiddenFrom?_le_length (h : hiddenFrom? cs = some start) : start ≤ cs.length := by
  rcases Option.or_eq_some_iff.mp h with hname | ⟨-, hvalue⟩
  · exact (unknownName?_eq_some_iff.mp hname).1.elim Text.endOf?_le_length Text.endOf?_le_length
  · rcases wrongValue?_eq cs with hnone | heq
    · rw [hnone] at hvalue
      contradiction
    · rw [heq] at hvalue
      exact Nat.le_trans (Text.endOf?_le_length hvalue) (List.length_take_le' _ _)

/-- What hiding a name or a value does: nothing, or what is between two backticks gives way to the
mark, and then nothing more. -/
theorem redactTicked_cases (cs : List Char) : redactTicked cs = cs ∨
    ∃ before hidden tail, cs = before ++ '`' :: (hidden ++ '`' :: tail) ∧
      redactTicked cs = before ++ '`' :: (mark ++ '`' :: tail) ∧
      redactTicked (redactTicked cs) = redactTicked cs := by
  cases hfrom : hiddenFrom? cs with
  | none => exact Or.inl (by rw [redactTicked, hfrom])
  | some start =>
    obtain ⟨before, rest, rfl, rfl⟩ : ∃ before rest, cs = before ++ rest ∧ start = before.length :=
      ⟨cs.take start, cs.drop start, (List.take_append_drop start cs).symm,
        (List.length_take_of_le (hiddenFrom?_le_length hfrom)).symm⟩
    have hredact : ∀ ys, hiddenFrom? (before ++ ys) = some before.length →
        redactTicked (before ++ ys) =
          (hiddenEnd? ys).elim (before ++ ys) fun n => before ++ (mark ++ ys.drop n) := by
      intro ys hys
      rw [redactTicked, hys]
      exact redactFrom_append before ys
    cases hend : hiddenEnd? rest with
    | none => exact Or.inl (by rw [hredact rest hfrom, hend, Option.elim_none])
    | some n =>
      obtain ⟨tail, htail, hagain⟩ := exists_tail_of_hiddenEnd? hend
      have honce : redactTicked (before ++ rest) = before ++ (mark ++ '`' :: tail) := by
        rw [hredact rest hfrom, hend, Option.elim_some, htail]
      obtain ⟨words, hwords⟩ := isSuffix_of_hiddenFrom? hfrom
      refine Or.inr ⟨words, rest.take n, tail, ?_, ?_, ?_⟩
      · rw [← htail, List.take_append_drop, ← hwords, List.append_assoc, List.singleton_append]
      · rw [honce, ← hwords, List.append_assoc, List.singleton_append]
      · rw [honce]
        rcases hiddenFrom?_mark hfrom (htail ▸ List.drop_suffix n rest) with hnow | hnow
        · rw [hredact _ hnow, hagain, Option.elim_some, List.drop_left]
        · rw [redactTicked, hnow]

theorem Settled.redactTicked (h : Settled cs) : Settled (redactTicked cs) := by
  rcases redactTicked_cases cs with heq | ⟨before, hidden, tail, hcs, heq, -⟩
  · rwa [heq]
  · have hsecond : cs = (before ++ '`' :: hidden) ++ '`' :: tail := by
      rw [hcs, List.append_assoc, List.cons_append]
    obtain ⟨-, hbefore⟩ := h.split hcs (by decide) (by decide)
    obtain ⟨htail, -⟩ := h.split hsecond (by decide) (by decide)
    rw [heq]
    exact hbefore _ (.cons (by decide) (.append_of_not_mem (by decide) (.cons (by decide) htail)))

theorem redactChars_redactChars (cs : List Char) :
    redactChars (redactChars cs) = redactChars cs := by
  have hsettled : Settled (redactQuoted .outside cs) := settled_redactQuoted .outside cs
  rw [redactChars_eq cs, redactChars_eq, hsettled.redactTicked.redactQuoted_eq]
  rcases redactTicked_cases (redactQuoted .outside cs) with heq | ⟨_, _, _, -, -, htwice⟩
  · rw [heq, heq]
  · exact htwice

end

/-! ## Pieces and quoted strings -/

/-- Text without double quotes. -/
abbrev Piece := { cs : List Char // '"' ∉ cs }

/-- A string as it is printed between double quotes. -/
def escape (s : List Char) : List Char :=
  s.flatMap fun c => if c = '"' ∨ c = '\\' then ['\\', c] else [c]

/-- A piece of text, then strings between double quotes, each with another piece behind it. -/
def message (first : Piece) (rest : List (List Char × Piece)) : List Char :=
  first.1 ++ rest.flatMap fun x => '"' :: (escape x.1 ++ '"' :: x.2.1)

theorem quotable_escape (s : List Char) : Quotable (escape s) := by
  refine Quotable.flatMap (fun c => ?_) s
  split
  · exact .escaped c .nil
  · rename_i hc
    obtain ⟨hquote, hbackslash⟩ := not_or.mp hc
    exact .plain hquote hbackslash .nil

theorem escape_mark : escape mark = mark := by decide

theorem redactQuoted_message (first : Piece) (rest : List (List Char × Piece)) (tail : List Char) :
    redactQuoted .outside (message first rest ++ tail) =
      message first (rest.map fun x => (mark, x.2)) ++ redactQuoted .outside tail := by
  simp only [message, List.append_assoc, redactQuoted_outside_append first.2]
  congr 1
  induction rest with
  | nil => rfl
  | cons x rest ih =>
    simp only [List.flatMap_cons, List.map_cons, List.cons_append, List.append_assoc,
      redactQuoted_outside_quote, (quotable_escape x.1).redactQuoted_inside,
      redactQuoted_outside_append x.2.2, ih, escape_mark]

theorem redact_ofList (cs : List Char) :
    redact (String.ofList cs) = String.ofList (redactChars cs) := by
  rw [redact, String.toList_ofList]

/-- What comes out depends on the pieces alone, also where the last string is cut off, and it comes out
the same a second time. -/
theorem redact_eq_of_pieces (first : Piece) (rest rest' : List (List Char × Piece))
    (hpieces : rest.map (·.2) = rest'.map (·.2)) :
    redact (String.ofList (message first rest)) = redact (String.ofList (message first rest')) ∧
    (∀ s s' part part' : List Char, part <+: escape s → part' <+: escape s' →
      redact (String.ofList (message first rest ++ '"' :: part)) =
        redact (String.ofList (message first rest' ++ '"' :: part'))) ∧
    ∀ text : String, redact (redact text) = redact text := by
  have hmarks : (rest.map fun x => (mark, x.2)) = rest'.map fun x => (mark, x.2) := by
    have hpaired := congrArg (List.map (Prod.mk mark)) hpieces
    rwa [List.map_map, List.map_map] at hpaired
  have htail : ∀ tail tail', redactQuoted .outside tail = redactQuoted .outside tail' →
      redact (String.ofList (message first rest ++ tail)) =
        redact (String.ofList (message first rest' ++ tail')) := by
    intro tail tail' heq
    rw [redact_ofList, redact_ofList, redactChars_eq, redactChars_eq, redactQuoted_message,
      redactQuoted_message, hmarks, heq]
  refine ⟨?_, fun s s' part part' hpart hpart' => htail _ _ ?_, fun text => ?_⟩
  · simpa using htail [] [] rfl
  · rw [redactQuoted_outside_quote, redactQuoted_outside_quote,
      (quotable_escape s).redactQuoted_isPrefix hpart,
      (quotable_escape s').redactQuoted_isPrefix hpart']
  · rw [redact, redact, String.toList_ofList, redactChars_redactChars]

/-- The second string is cut off behind the backslash of an escaped quote. -/
theorem redact_eq_of_pieces_cutOff :
    redact "found \"a\\\"b\\\\\" and \"x\\" = redact "found \"\" and \"" := by
  have hpieces := redact_eq_of_pieces ⟨"found ".toList, by decide⟩
    [("a\"b\\".toList, ⟨" and ".toList, by decide⟩)] [([], ⟨" and ".toList, by decide⟩)] rfl
  exact hpieces.2.1 ['x', '"'] [] ['x', '\\'] [] (by decide) (by decide)

/-! ## Texts in the wrong place -/

theorem quotable_digitChar {n : Nat} (hn : n < 16) : Quotable [n.digitChar] := by
  have hplain : ∀ n < 16, '"' ∉ [n.digitChar] ∧ '\\' ∉ [n.digitChar] := by decide
  exact quotable_of_plain (hplain n hn).1 (hplain n hn).2

theorem quotable_toDigits (n : Nat) : Quotable (Nat.toDigits 16 n) := by
  induction n using Nat.strongRecOn with
  | _ n ih =>
    rcases Nat.lt_or_ge n 16 with hsmall | hlarge
    · rw [Nat.toDigits_of_lt_base hsmall]
      exact quotable_digitChar hsmall
    · rw [Nat.toDigits_of_base_le (by decide) hlarge]
      exact (ih _ (by omega)).append (quotable_digitChar (Nat.mod_lt n (by decide)))

theorem quotable_escapeChar (c : Char) : Quotable (Text.escapeChar '"' c) := by
  unfold Text.escapeChar
  split_ifs with _ _ _ _ hescaped
  · exact .escaped _ .nil
  · exact .escaped _ .nil
  · exact .escaped _ .nil
  · exact .escaped _ .nil
  · exact .escaped _ .nil
  · rw [Bool.or_eq_true, beq_iff_eq, beq_iff_eq, not_or] at hescaped
    exact .plain hescaped.2 hescaped.1 .nil
  · have hbraces : Quotable ['\x7b'] ∧ Quotable ['\x7d'] :=
      ⟨quotable_of_plain (by decide) (by decide), quotable_of_plain (by decide) (by decide)⟩
    exact .escaped 'u' ((hbraces.1.append (quotable_toDigits _)).append hbraces.2)

/-- An error about a text that the client has sent does not depend on the text. -/
theorem redact_wrongType_text (realText : Float → String) (expected s s' : String) :
    redact ((Json.DecodeError.wrongType (.text s) expected).message realText) =
      redact ((Json.DecodeError.wrongType (.text s') expected).message realText) := by
  have hquoted : ∀ t : String, redactQuoted .outside
      ((Json.DecodeError.wrongType (.text t) expected).message realText).toList =
        "invalid type: ".toList ++ ("string ".toList ++ '"' :: (mark ++ '"' ::
          redactQuoted .outside (", expected ".toList ++ expected.toList))) := by
    intro t
    have hmessage : (Json.DecodeError.wrongType (.text t) expected).message realText =
        "invalid type: " ++ ("string " ++ Text.quoted t) ++ ", expected " ++ expected := rfl
    rw [hmessage]
    simp only [Text.quoted, String.toList_append, String.toList_ofList, List.append_assoc,
      List.cons_append, List.nil_append]
    rw [redactQuoted_outside_append (by decide), redactQuoted_outside_append (by decide),
      redactQuoted_outside_quote, (Quotable.flatMap quotable_escapeChar _).redactQuoted_inside]
  rw [redact, redact, redactChars_eq, redactChars_eq, hquoted s, hquoted s']

end DebugAdapter.Redaction
