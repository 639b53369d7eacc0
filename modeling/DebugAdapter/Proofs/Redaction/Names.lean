import DebugAdapter.Proofs.Redaction.Backticks
import DebugAdapter.Proofs.Redaction.Stretches

/-!
# Unknown names

A message that calls a name unknown has the name between backticks as it is, quotes and backticks
included. Its redaction finds the end of the name only if the name leaves it to be found: a quote in the
name can begin a stretch that takes in the closing backtick, and a name that has such a backtick and the
words behind it is taken to end there. A name with neither is hidden wholly
(`redact_unknown_eq_iff`).
-/

namespace DebugAdapter.Redaction

open Text (indexOf?)

/-- What a message can call unknown. -/
inductive Unknown where
  | field
  | variant

/-- The words before an unknown name. -/
def Unknown.opening : Unknown → String
  | .field => "unknown field `"
  | .variant => "unknown variant `"

/-- A message about an unknown name and the names that are expected. -/
def Unknown.message (u : Unknown) (name expected : String) : String :=
  u.opening ++ name ++ "`, expected" ++ expected

/-- Its stretches between double quotes end in the name, and outside of them the name does not have
what follows it in a message. -/
structure Concealable (name : String) : Prop where
  closed : Quoting.outside.after name.toList = .outside
  plain : ¬closing <:+: redactQuoted .outside name.toList

theorem concealable_of_plain {name : String} (hquote : '"' ∉ name.toList)
    (hclosing : ¬closing <:+: name.toList) : Concealable name := by
  have hafter : ∀ cs : List Char, '"' ∉ cs → Quoting.outside.after cs = .outside := by
    intro cs hcs
    induction cs with
    | nil => rfl
    | cons c cs ih =>
      rw [List.mem_cons, not_or] at hcs
      simpa [Quoting.after, Quoting.next, Ne.symm hcs.1] using ih hcs.2
  exact ⟨hafter _ hquote, by rwa [redactQuoted_outside_of_not_mem hquote]⟩

section
variable (u : Unknown)

theorem not_mem_opening : '"' ∉ u.opening.toList := by
  cases u <;> decide

theorem unknownName?_opening (cs : List Char) :
    unknownName? (u.opening.toList ++ cs) = some u.opening.toList.length :=
  unknownName?_append (by cases u <;> decide) cs

theorem redactTicked_opening (cs : List Char) : redactTicked (u.opening.toList ++ cs) =
    (hiddenEnd? cs).elim (u.opening.toList ++ cs) fun n =>
      u.opening.toList ++ (mark ++ cs.drop n) := by
  rw [redactTicked, hiddenFrom?, unknownName?_opening]
  exact redactFrom_append _ cs

theorem redactChars_opening (cs : List Char) : redactChars (u.opening.toList ++ cs) =
    redactTicked (u.opening.toList ++ redactQuoted .outside cs) := by
  rw [redactChars_eq, redactQuoted_outside_append (not_mem_opening u)]

/-! ## Names whose stretches end -/

theorem redactQuoted_closing (cs : List Char) :
    redactQuoted .outside (closing ++ cs) = closing ++ redactQuoted .outside cs :=
  redactQuoted_outside_append (by decide) cs

/-- The hidden part ends at the first backtick with its words, which the name may have itself. -/
theorem redactChars_of_closed {name : List Char} (hclosed : Quoting.outside.after name = .outside)
    (cs : List Char) :
    redactChars (u.opening.toList ++ (name ++ (closing ++ cs))) = u.opening.toList ++ (mark ++
      (redactQuoted .outside name ++ (closing ++ redactQuoted .outside cs)).drop
        ((indexOf? closing (redactQuoted .outside name)).getD
          (redactQuoted .outside name).length)) := by
  have hname : redactPart .outside name = redactQuoted .outside name := by
    have hnothing := redactQuoted_append .outside name []
    rw [hclosed, List.append_nil] at hnothing
    rw [hnothing]
    exact (List.append_nil _).symm
  rw [redactChars_opening, redactQuoted_append, hclosed, hname, redactQuoted_closing,
    redactTicked_opening, hiddenEnd?_append_closing]
  cases indexOf? closing (redactQuoted .outside name) <;> rfl

theorem redactChars_of_concealable {name : String} (h : Concealable name) (cs : List Char) :
    redactChars (u.opening.toList ++ (name.toList ++ (closing ++ cs))) =
      u.opening.toList ++ (mark ++ (closing ++ redactQuoted .outside cs)) := by
  rw [redactChars_of_closed u h.closed, Text.indexOf?_eq_none_iff.mpr h.plain, Option.getD_none,
    List.drop_left]

/-- A name that has the backtick and the words behind it shows from there on. -/
theorem redactChars_ne_of_infix {name : List Char} (hclosed : Quoting.outside.after name = .outside)
    (h : closing <:+: redactQuoted .outside name) (cs : List Char) :
    redactChars (u.opening.toList ++ (name ++ (closing ++ cs))) ≠
      u.opening.toList ++ (mark ++ (closing ++ redactQuoted .outside cs)) := by
  obtain ⟨n, hn⟩ : ∃ n, indexOf? closing (redactQuoted .outside name) = some n := by
    rw [← Option.ne_none_iff_exists', ne_eq, Text.indexOf?_eq_none_iff, not_not]
    exact h
  have hlength : n + closing.length ≤ (redactQuoted .outside name).length :=
    Text.add_length_le_of_indexOf? hn
  have hpositive : 0 < closing.length := by decide
  rw [redactChars_of_closed u hclosed, hn, Option.getD_some]
  intro heq
  have hsame := congrArg List.length (List.append_cancel_left (List.append_cancel_left heq))
  simp only [List.length_drop, List.length_append] at hsame
  omega

/-! ## Names that end in a stretch -/

theorem after_ne_outside {q : Quoting} (hq : q ≠ .outside) {cs : List Char} (hcs : '"' ∉ cs) :
    q.after cs ≠ .outside := by
  induction cs generalizing q with
  | nil => exact hq
  | cons c cs ih =>
    rw [List.mem_cons, not_or] at hcs
    refine ih (q := q.next c) ?_ hcs.2
    cases q with
    | outside => contradiction
    | escaped => simp [Quoting.next]
    | inside =>
      simp only [Quoting.next, beq_iff_eq, Ne.symm hcs.1, if_false]
      split <;> simp

/-- A name that ends in a stretch shows up to the quote that begins it. -/
theorem quote_mem_redactChars {name : List Char} (hopen : Quoting.outside.after name ≠ .outside)
    {cs : List Char} (hcs : '"' ∉ cs) :
    '"' ∈ redactChars (u.opening.toList ++ (name ++ cs)) := by
  have hafter : Quoting.outside.after (name ++ cs) ≠ .outside := by
    rw [Quoting.after, List.foldl_append]
    exact after_ne_outside hopen hcs
  obtain ⟨before, hbefore⟩ := exists_redactQuoted_eq hafter
  rw [if_pos rfl] at hbefore
  rw [redactChars_opening, hbefore, redactTicked_opening,
    hiddenEnd?_append_cons (by decide) (by decide)]
  cases hn : hiddenEnd? before with
  | none => simp
  | some n =>
    rw [Option.elim_some, List.drop_append_of_le_length (hiddenEnd?_le_length hn)]
    simp

end

/-! ## All names -/

theorem redact_message (u : Unknown) (name expected : String) :
    redact (u.message name expected) = String.ofList
      (redactChars (u.opening.toList ++ (name.toList ++ (closing ++ expected.toList)))) := by
  simp only [redact, Unknown.message, String.toList_append, List.append_assoc]
  rfl

theorem message_mark (u : Unknown) (cs : List Char) :
    u.message "<redacted>" (String.ofList cs) =
      String.ofList (u.opening.toList ++ (mark ++ (closing ++ cs))) := by
  simp only [Unknown.message, String.ofList_append, String.ofList_toList, String.append_assoc]
  rfl

/-- The name is hidden exactly if it is concealable; then nothing in the result depends on it. -/
theorem redact_unknown_eq_iff (u : Unknown) (name : String) :
    (Concealable name → ∀ expected : String, redact (u.message name expected) =
      u.message "<redacted>" (String.ofList (redactQuoted .outside expected.toList))) ∧
    ∀ expected : String, '"' ∉ expected.toList →
      (redact (u.message name expected) = u.message "<redacted>" expected ↔ Concealable name) := by
  have hhidden : Concealable name → ∀ expected : String, redact (u.message name expected) =
      u.message "<redacted>" (String.ofList (redactQuoted .outside expected.toList)) := by
    intro h expected
    rw [redact_message, redactChars_of_concealable u h, message_mark]
  refine ⟨hhidden, fun expected hexpected => ⟨fun heq => ?_, fun h => ?_⟩⟩
  · rw [redact_message, ← String.ofList_toList (s := expected), message_mark] at heq
    replace heq := congrArg String.toList heq
    simp only [String.toList_ofList] at heq
    have hrest : '"' ∉ closing ++ expected.toList := by
      rw [List.mem_append, not_or]
      exact ⟨by decide, hexpected⟩
    have hclosed : Quoting.outside.after name.toList = .outside := by
      by_contra hopen
      have hquote := quote_mem_redactChars u hopen hrest
      rw [heq, List.mem_append, List.mem_append] at hquote
      rcases hquote with hquote | hquote | hquote
      · exact not_mem_opening u hquote
      · exact absurd hquote (by decide)
      · exact hrest hquote
    refine ⟨hclosed, fun hshown => redactChars_ne_of_infix u hclosed hshown expected.toList ?_⟩
    rw [heq, redactQuoted_outside_of_not_mem hexpected]
  · rw [hhidden h, redactQuoted_outside_of_not_mem hexpected, String.ofList_toList]

/-- A name with a stretch in which there are a backtick and the words behind it, and one without
quotes in which the words do not follow the backtick. -/
theorem redact_unknown_eq_iff_stretch :
    Concealable "a\"`, expected b\"c" ∧ Concealable "a`b, expected c" ∧
      '"' ∉ " `line`".toList ∧
      redact (Unknown.field.message "a\"`, expected b\"c" " `line`") =
        Unknown.field.message "<redacted>" " `line`" ∧
      redact (Unknown.variant.message "a`b, expected c" " `line`") =
        Unknown.variant.message "<redacted>" " `line`" := by
  have hstretch : Concealable "a\"`, expected b\"c" := ⟨by decide, by decide⟩
  have hplain : Concealable "a`b, expected c" := concealable_of_plain (by decide) (by decide)
  have hexpected : '"' ∉ " `line`".toList := by decide
  refine ⟨hstretch, hplain, hexpected, ?_, ?_⟩
  · exact ((redact_unknown_eq_iff .field _).2 _ hexpected).mpr hstretch
  · exact ((redact_unknown_eq_iff .variant _).2 _ hexpected).mpr hplain

/-- A quote in a name shows what comes before it, and a backtick with its words what comes after. -/
theorem names_show_through :
    redact (Unknown.field.message "pass\"word" " `line`") = "unknown field `pass\"<redacted>" ∧
      redact (Unknown.variant.message "a`, expected word" " `line`") =
        "unknown variant `<redacted>`, expected word`, expected `line`" ∧
      redact (Unknown.field.message "other" " `line`") =
        "unknown field `<redacted>`, expected `line`" := by
  decide

end DebugAdapter.Redaction
