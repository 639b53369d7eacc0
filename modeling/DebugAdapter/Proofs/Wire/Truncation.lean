import DebugAdapter.Proofs.Wire.Framing

/-!
# Streams that end within a frame

What the reader makes of a frame that is cut short. Within the body it is an error, and so it is
within a header line that is no text or tells no length; but the end of the stream behind a header
line, or in one with which nothing is wrong, passes for the end between two frames.
`closed_iff_cutUnseen` tells which cuts do.
-/

namespace DebugAdapter.Wire

/-- The reading of a frame gives an error: the stream cannot be read on, or the body is no JSON. -/
def Arrival.Fails : Arrival → Prop
  | .failed _ => True
  | .frame body _ => Json.ofBytes? body = none
  | .pending _ | .closed => False

/-- A line of a header block, whole or cut short, with which nothing is wrong. -/
def IsField (line : String) : Prop := ∃ after, Notes line none after

/-- What stands behind the last line feed. -/
def unfinished (bytes : List UInt8) : List UInt8 := (bytes.reverse.takeWhile (· ≠ 10)).reverse

/-- The bytes end in the header block, behind a line of it or in one with which nothing is wrong. -/
def CutUnseen (f : Framed) (bytes : List UInt8) : Prop :=
  bytes.length < f.head.length ∧
    (unfinished bytes = [] ∨ ∃ line, IsField line ∧ unfinished bytes = Text.bytesOf line)

theorem Arrival.Fails.ne_closed {a : Arrival} (h : a.Fails) : a ≠ .closed := by
  rintro rfl
  exact h

theorem exists_notes_iff {line : String} {before : Option Nat} :
    (∃ after, Notes line before after) ↔ IsField line := by
  have hany : ∀ {a b : Option Nat}, (∃ after, Notes line a after) → ∃ after, Notes line b after := by
    rintro a b ⟨after, hnotes⟩
    cases hnotes with
    | length hline hn => exact ⟨_, .length hline hn⟩
    | other hline hother => exact ⟨_, .other hline hother⟩
  exact ⟨hany, hany⟩

theorem IsField.not_blank {line : String} (h : IsField line) : ¬IsBlankLine line :=
  h.elim fun _ hnotes => hnotes.not_blank

theorem Declares.left {before after : Option Nat} {a b : List String}
    (h : Declares before (a ++ b) after) : ∃ middle, Declares before a middle := by
  induction a generalizing before with
  | nil => exact ⟨before, .nil⟩
  | cons line a ih =>
    cases h with
    | cons hline hlines =>
      obtain ⟨middle, hmiddle⟩ := ih hlines
      exact ⟨middle, .cons hline hmiddle⟩

/-! ## Bytes of lines -/

theorem IsBlankLine.eq_of_mem {line : String} (h : IsBlankLine line) {b : UInt8}
    (hb : b ∈ Text.bytesOf line) : b = 13 := by
  rw [Text.bytesOf_eq_flatMap, List.mem_flatMap] at hb
  obtain ⟨c, hc, hb⟩ := hb
  rw [h c hc, Text.utf8EncodeChar_of_ascii (by decide), List.mem_singleton] at hb
  exact hb

theorem eq_or_eq_of_mem_linesOf {lines : List String} (h : ∀ line ∈ lines, IsBlankLine line)
    {b : UInt8} (hb : b ∈ linesOf lines) : b = 13 ∨ b = 10 := by
  obtain ⟨line, hline, hb⟩ := List.mem_flatMap.mp hb
  rw [bytesOf_line] at hb
  rcases List.mem_append.mp hb with hb | hb
  · exact .inl ((h line hline).eq_of_mem hb)
  · exact .inr (List.mem_singleton.mp hb)

/-- Bytes at which lines are cut short are some of the lines and a part of the next one. -/
theorem exists_cut {lines : List String} {bytes : List UInt8} (hinitial : bytes <+: linesOf lines)
    (hproper : bytes ≠ linesOf lines) :
    ∃ done line behind part, lines = done ++ line :: behind ∧ bytes = linesOf done ++ part ∧
      part <+: Text.bytesOf line := by
  induction lines generalizing bytes with
  | nil => exact absurd (List.prefix_nil.mp hinitial) hproper
  | cons line lines ih =>
    obtain ⟨more, hmore⟩ := hinitial
    rw [linesOf_cons, bytesOf_line] at hmore hproper
    -- The first line is cut, or it is whole and the others are.
    have hcut : bytes <+: Text.bytesOf line ∨
        ∃ rest, bytes = Text.bytesOf line ++ [10] ++ rest ∧ rest <+: linesOf lines := by
      rcases List.append_eq_append_iff.mp hmore with ⟨a, hline, -⟩ | ⟨rest, hbytes, hlines⟩
      · rcases List.prefix_concat_iff.mp ⟨a, hline.symm⟩ with hwhole | hpart
        · exact .inr ⟨[], by rw [hwhole, List.append_nil], List.nil_prefix⟩
        · exact .inl hpart
      · exact .inr ⟨rest, hbytes, more, hlines.symm⟩
    rcases hcut with hpart | ⟨rest, rfl, hrest⟩
    · exact ⟨[], line, lines, bytes, rfl, rfl, hpart⟩
    · have hshort : rest ≠ linesOf lines := fun h => hproper (by rw [h])
      obtain ⟨done, next, behind, part, rfl, rfl, hpart⟩ := ih hrest hshort
      refine ⟨line :: done, next, behind, part, rfl, ?_, hpart⟩
      rw [linesOf_cons, bytesOf_line, ← List.append_assoc]

theorem unfinished_append {done : List String} {part : List UInt8} (hpart : 10 ∉ part) :
    unfinished (linesOf done ++ part) = part := by
  have hall : ∀ b ∈ part.reverse, decide (b ≠ 10) = true := by
    intro b hb
    rw [decide_eq_true_iff]
    rintro rfl
    exact hpart (List.mem_reverse.mp hb)
  have hdone : (linesOf done).reverse.takeWhile (· ≠ 10) = [] := by
    rcases List.eq_nil_or_concat done with rfl | ⟨lines, line, rfl⟩
    · rfl
    · rw [List.concat_eq_append, linesOf_append, linesOf_singleton, bytesOf_line, ← List.append_assoc,
        List.reverse_append]
      rfl
  rw [unfinished, List.reverse_append, List.takeWhile_append_of_pos hall, hdone, List.append_nil,
    List.reverse_reverse]

/-! ## The end of the stream -/

theorem fails_readBody_nil (h : Header) : (readBody true h []).Fails := by
  rw [readBody]
  split
  · trivial
  · rename_i n _
    split
    · trivial
    · split
      · trivial
      · -- A body of no bytes is no JSON.
        rw [List.take_nil]
        rfl

theorem readFrom_end (h : Header) {part : List UInt8} (hpart : 10 ∉ part) (hne : part ≠ []) :
    readFrom true h [] part =
      match h.readLine part with
      | .error e => .failed e
      | .ok (true, h) => readBody true h []
      | .ok (false, _) => .closed := by
  obtain ⟨line, rfl⟩ : ∃ line, part = line.reverse := ⟨part.reverse, part.reverse_reverse.symm⟩
  have hlast : ¬line.isEmpty = true := by simpa using hne
  have hpiece : readFrom true h [] (line.reverse ++ []) =
      readFrom true h (line.reverse.reverse ++ []) [] := readFrom_piece true h hpart []
  rw [List.append_nil, List.append_nil, List.reverse_reverse] at hpiece
  exact hpiece.trans ((if_neg (by decide)).trans (if_neg hlast))

/-- The last line need not be complete to be read. A blank one ends the header block, and the body
is missing then. -/
theorem readFrom_text {h : Header} {line : String} (hfeed : '\n' ∉ line.toList)
    (hne : Text.bytesOf line ≠ []) (hsize : h.size + (Text.bytesOf line).length ≤ maxHeader)
    (hbegun : h.begun = true ∨ ¬IsBlankLine line) :
    (readFrom true h [] (Text.bytesOf line) = .closed ∧ IsField line) ∨
      ((readFrom true h [] (Text.bytesOf line)).Fails ∧ ¬IsField line) := by
  have hunended : Text.bytesOf (line ++ "") = Text.bytesOf line := by rw [String.append_empty]
  rw [← hunended] at hsize
  rw [readFrom_end h (feed_not_mem_bytesOf hfeed) hne, ← hunended]
  by_cases hblank : IsBlankLine line
  · right
    rw [readLine_of_blank (.inl rfl) hsize hblank, hbegun.resolve_right (not_not_intro hblank)]
    exact ⟨fails_readBody_nil _, fun hfield => hfield.not_blank hblank⟩
  · by_cases hfield : IsField line
    · left
      obtain ⟨after, hnotes⟩ := exists_notes_iff.mpr hfield
      rw [readLine_of_notes (.inl rfl) hsize hfeed hnotes]
      exact ⟨rfl, hfield⟩
    · right
      have hnotes : ∀ after, ¬Notes line h.length after := fun after hnotes =>
        hfield (exists_notes_iff.mp ⟨after, hnotes⟩)
      rw [readLine_of_not_notes (.inl rfl) hsize hfeed hblank hnotes]
      exact ⟨trivial, hfield⟩

theorem readFrom_part {h : Header} {part : List UInt8} (hpart : 10 ∉ part) (hne : part ≠ [])
    (hsize : h.size + part.length ≤ maxHeader) (hbegun : h.begun = true ∨ ∃ b ∈ part, b ≠ 13) :
    (readFrom true h [] part = .closed ∧ ∃ line, IsField line ∧ part = Text.bytesOf line) ∨
      ((readFrom true h [] part).Fails ∧ ¬∃ line, IsField line ∧ part = Text.bytesOf line) := by
  cases htext : String.fromUTF8? ⟨part.toArray⟩ with
  | none =>
    right
    constructor
    · rw [readFrom_end h hpart hne, Header.readLine, htext]
      trivial
    · rintro ⟨line, -, hline⟩
      rw [Text.fromUTF8?_eq_some_iff.mpr hline] at htext
      contradiction
  | some line =>
    obtain rfl := Text.fromUTF8?_eq_some_iff.mp htext
    have hunique : (∃ l, IsField l ∧ Text.bytesOf line = Text.bytesOf l) ↔ IsField line := by
      constructor
      · rintro ⟨l, hl, hbytes⟩
        rw [Text.fromUTF8?_eq_some_iff.mpr hbytes] at htext
        cases htext
        exact hl
      · exact fun hl => ⟨line, hl, rfl⟩
    have hfeed : '\n' ∉ line.toList := fun hmem =>
      hpart ((Text.mem_bytesOf_iff (by decide)).mpr hmem)
    rw [hunique]
    apply readFrom_text hfeed hne hsize
    refine hbegun.imp id ?_
    rintro ⟨b, hb, hother⟩ hblank
    exact hother (hblank.eq_of_mem hb)

namespace Framed

variable (f : Framed)

theorem no_feed {line : String} (hline : line ∈ f.skipped ++ f.fields ++ [f.final]) :
    '\n' ∉ line.toList := by
  rw [List.mem_append, List.mem_append, List.mem_singleton] at hline
  rcases hline with (hline | hline) | rfl
  · exact (f.blank_skipped line hline).no_feed
  · exact f.one_line line hline
  · exact f.blank_final.no_feed

/-- Unless nothing but blank lines has been seen, the lines before a cut are those that are skipped
and some of the fields. -/
theorem exists_fields {done behind : List String} {line : String} {part : List UInt8}
    (hlines : f.skipped ++ f.fields ++ [f.final] = done ++ line :: behind)
    (hpart : part <+: Text.bytesOf line) (hbegun : ∃ b ∈ linesOf done ++ part, b ≠ 13 ∧ b ≠ 10) :
    ∃ fields more, f.fields = fields ++ more ∧ done = f.skipped ++ fields := by
  rw [List.append_assoc] at hlines
  rcases List.append_eq_append_iff.mp hlines with ⟨fields, rfl, hrest⟩ | ⟨left, hskipped, hrest⟩
  · rcases List.append_eq_append_iff.mp hrest with ⟨more, rfl, hfinal⟩ | ⟨more, hfields, -⟩
    · have hlength := congrArg List.length hfinal
      rw [List.length_singleton, List.length_append, List.length_cons] at hlength
      have hmore : more = [] := List.length_eq_zero_iff.mp (by omega)
      exact ⟨f.fields, [], (List.append_nil _).symm, by rw [hmore, List.append_nil]⟩
    · exact ⟨fields, more, hfields, rfl⟩
  · cases left with
    | nil => exact ⟨[], f.fields, rfl, by rw [hskipped, List.append_nil, List.append_nil]⟩
    | cons next left =>
      -- The cut is before the first field.
      have hblank := f.blank_skipped
      rw [hskipped, ← (List.cons.inj hrest).1, List.forall_mem_append] at hblank
      obtain ⟨b, hb, hreturn, hfeed⟩ := hbegun
      rcases List.mem_append.mp hb with hb | hb
      · rcases eq_or_eq_of_mem_linesOf hblank.1 hb with heq | heq
        · exact absurd heq hreturn
        · exact absurd heq hfeed
      · exact absurd ((hblank.2 line List.mem_cons_self).eq_of_mem (hpart.subset hb)) hreturn

/-- Within the header block, it is up to the unfinished line whether the end of the stream is an
error. -/
theorem readFrame_of_prefix_head {bytes : List UInt8} (hinitial : bytes <+: f.head)
    (hproper : bytes ≠ f.head) (hbegun : ∃ b ∈ bytes, b ≠ 13 ∧ b ≠ 10) :
    (readFrame true bytes = .closed ∧ CutUnseen f bytes) ∨
      ((readFrame true bytes).Fails ∧ ¬CutUnseen f bytes) := by
  have hsize := f.length_head
  have hshort : bytes.length < f.head.length :=
    Nat.lt_of_le_of_ne hinitial.length_le fun hlength => hproper (hinitial.eq_of_length hlength)
  obtain ⟨done, line, behind, part, hlines, rfl, hpart⟩ := exists_cut hinitial hproper
  obtain ⟨fields, more, hfields, rfl⟩ := f.exists_fields hlines hpart hbegun
  have hfeed : 10 ∉ part := by
    intro hmem
    refine feed_not_mem_bytesOf (f.no_feed ?_) (hpart.subset hmem)
    rw [hlines]
    exact List.mem_append_right _ List.mem_cons_self
  have hone := f.one_line
  have hdeclares := f.declares
  rw [hfields] at hone hdeclares
  obtain ⟨length, hlength⟩ := hdeclares.left
  have hless : (linesOf (f.skipped ++ fields)).length + part.length < maxHeader := by
    rw [← List.length_append]
    exact Nat.lt_of_lt_of_le hshort hsize
  rw [readFrame_lines true part f.blank_skipped (List.forall_mem_append.mp hone).1 hlength (by omega)]
  by_cases hnil : part = []
  · refine .inl ⟨?_, hshort, .inl ((unfinished_append hfeed).trans hnil)⟩
    rw [hnil]
    rfl
  · have hunseen : CutUnseen f (linesOf (f.skipped ++ fields) ++ part) ↔
        ∃ line, IsField line ∧ part = Text.bytesOf line := by
      rw [CutUnseen, unfinished_append hfeed]
      exact ⟨fun h => h.2.resolve_left hnil, fun h => ⟨hshort, .inr h⟩⟩
    rw [hunseen]
    apply readFrom_part hfeed hnil (Nat.le_of_lt hless)
    cases fields with
    | cons field fields => exact .inl rfl
    | nil =>
      obtain ⟨b, hb, hreturn, hnext⟩ := hbegun
      rw [List.append_nil] at hb
      rcases List.mem_append.mp hb with hb | hb
      · rcases eq_or_eq_of_mem_linesOf f.blank_skipped hb with heq | heq
        · exact absurd heq hreturn
        · exact absurd heq hnext
      · exact .inr ⟨b, hb, hreturn⟩

theorem readFrame_of_head_prefix {part : List UInt8} (hshort : part.length < f.body.length) :
    readFrame true (f.head ++ part) = .failed .truncated := by
  rw [readFrame_head, readBody]
  simp only [if_neg (Nat.not_lt.mpr f.length_body), if_pos hshort, if_true]

end Framed

/-- A frame that is cut short, anywhere behind the blank lines before it, is taken for the end of the
stream exactly if the cut is in the header block, behind a line of it or in one with which nothing is
wrong. Every other cut is an error, in particular every one in the body. -/
theorem closed_iff_cutUnseen (f : Framed) {bytes : List UInt8} (hinitial : bytes <+: f.bytes)
    (hproper : bytes ≠ f.bytes) (hbegun : ∃ b ∈ bytes, b ≠ 13 ∧ b ≠ 10) :
    (readFrame true bytes = .closed ↔ CutUnseen f bytes) ∧
      ((readFrame true bytes).Fails ↔ ¬CutUnseen f bytes) := by
  have hcut : (bytes <+: f.head ∧ bytes ≠ f.head) ∨
      ∃ part, bytes = f.head ++ part ∧ part <+: f.body := by
    obtain ⟨more, hmore⟩ := hinitial
    rcases List.append_eq_append_iff.mp hmore with ⟨a, hhead, -⟩ | ⟨part, hbytes, hbody⟩
    · by_cases hwhole : bytes = f.head
      · exact .inr ⟨[], by rw [hwhole, List.append_nil], List.nil_prefix⟩
      · exact .inl ⟨⟨a, hhead.symm⟩, hwhole⟩
    · exact .inr ⟨part, hbytes, more, hbody.symm⟩
  have hdecided : (readFrame true bytes = .closed ∧ CutUnseen f bytes) ∨
      ((readFrame true bytes).Fails ∧ ¬CutUnseen f bytes) := by
    rcases hcut with ⟨hhead, hne⟩ | ⟨part, rfl, hbody⟩
    · exact f.readFrame_of_prefix_head hhead hne hbegun
    · have hshort : part.length < f.body.length := by
        refine Nat.lt_of_le_of_ne hbody.length_le fun hlength => hproper ?_
        rw [hbody.eq_of_length hlength, Framed.bytes]
      right
      constructor
      · rw [f.readFrame_of_head_prefix hshort]
        trivial
      · rintro ⟨hless, -⟩
        rw [List.length_append] at hless
        omega
  rcases hdecided with ⟨hclosed, hunseen⟩ | ⟨hfails, hseen⟩
  · exact ⟨iff_of_true hclosed hunseen,
      iff_of_false (fun hfails => hfails.ne_closed hclosed) (not_not_intro hunseen)⟩
  · exact ⟨iff_of_false hfails.ne_closed hseen, iff_of_true hfails hseen⟩

/-- The last byte of a body is missing. -/
theorem closed_iff_cutUnseen_lastByte :
    let f := Framed.ofText "[]" (by decide)
    let bytes := Text.bytesOf "Content-Length: 2\r\n\r\n["
    (bytes <+: f.bytes ∧ bytes ≠ f.bytes ∧ ∃ b ∈ bytes, b ≠ 13 ∧ b ≠ 10) ∧
      (readFrame true bytes).Fails := by
  intro f bytes
  have hframe : frame "[]" = "Content-Length: 2\r\n\r\n[" ++ "]" := by decide
  have hbytes : f.bytes = bytes ++ [93] := by
    rw [Framed.bytes_ofText, hframe, Text.bytesOf_append, Text.bytesOf_eq_flatMap "]"]
    rfl
  have hinitial : bytes <+: f.bytes := ⟨[93], hbytes.symm⟩
  have hproper : bytes ≠ f.bytes := by simp [hbytes]
  have hbegun : ∃ b ∈ bytes, b ≠ 13 ∧ b ≠ 10 :=
    ⟨67, (Text.mem_bytesOf_iff (c := 'C') (by decide)).mpr (by decide), by decide, by decide⟩
  refine ⟨⟨hinitial, hproper, hbegun⟩, (closed_iff_cutUnseen f hinitial hproper hbegun).2.mpr ?_⟩
  rintro ⟨hless, -⟩
  have hwhole : f.head.length + f.body.length = bytes.length + 1 := by
    rw [← List.length_append, ← Framed.bytes, hbytes, List.length_append, List.length_singleton]
  have hbody : f.body.length = 2 := Text.length_bytesOf "[]"
  omega

/-- The whole line that tells the length of a body is there, and nothing else. -/
theorem header_taken_for_end :
    let f := Framed.ofText "[]" (by decide)
    let bytes := Text.bytesOf "Content-Length: 2\r\n"
    bytes <+: f.bytes ∧ bytes ≠ f.bytes ∧ (∃ b ∈ bytes, b ≠ 13 ∧ b ≠ 10) ∧
      readFrame true bytes = .closed := by
  intro f bytes
  have hframe : frame "[]" = "Content-Length: 2\r\n" ++ "\r\n[]" := by decide
  have hbytes : f.bytes = bytes ++ Text.bytesOf "\r\n[]" := by
    rw [Framed.bytes_ofText, hframe, Text.bytesOf_append]
  have hproper : bytes ≠ f.bytes := by
    rw [hbytes, Text.bytesOf_eq_flatMap "\r\n[]"]
    simp
  have hbegun : ∃ b ∈ bytes, b ≠ 13 ∧ b ≠ 10 :=
    ⟨67, (Text.mem_bytesOf_iff (c := 'C') (by decide)).mpr (by decide), by decide, by decide⟩
  have hlines : bytes = linesOf (f.skipped ++ f.fields) ++ [] := by
    have hline : lengthLine 2 ++ "\n" = "Content-Length: 2\r\n" := by decide
    exact (congrArg Text.bytesOf hline).symm.trans
      ((linesOf_singleton (lengthLine 2)).symm.trans (List.append_nil _).symm)
  have hsize := f.length_head
  rw [linesOf_append, List.length_append] at hsize
  refine ⟨⟨_, hbytes.symm⟩, hproper, hbegun, ?_⟩
  rw [hlines, readFrame_lines true [] f.blank_skipped f.one_line f.declares (by omega)]
  rfl

end DebugAdapter.Wire
