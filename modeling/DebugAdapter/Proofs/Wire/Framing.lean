import DebugAdapter.Proofs.Text.Bytes
import DebugAdapter.Proofs.Text.Cuts
import DebugAdapter.Proofs.Wire.Stream

/-!
# Framing

What a frame is, told without the reader: lines of text that declare the length of a body, a blank
line, and the body, with blank lines before it all if wanted. `frames_read_back` reads any frames
that follow each other, and finds every one where it begins, whatever the bodies before it hold; what
is written is such a frame.
-/

namespace DebugAdapter.Wire

/-! ## Lines of a header block

Lines are texts without the line feed that ends them.
-/

/-- Nothing is left of the line without the carriage returns at its end. -/
def IsBlankLine (line : String) : Prop := ∀ c ∈ line.toList, c = '\r'

/-- The line has the name of the body's length before its first colon, in any letter case and
with blanks around it, and `value` behind. -/
def GivesLength (line : String) (value : List Char) : Prop :=
  ∃ name, line.toList = name ++ ':' :: value ∧ ':' ∉ name ∧
    (Text.trimChars name).map Char.toLower = Header.lengthName.toList

/-- Digits with a number below the limit, and a plus sign before them if wanted. -/
def NamesLength (cs : List Char) (n : Nat) : Prop :=
  n < Header.lengthLimit ∧ ∃ ds, (cs = ds ∨ cs = '+' :: ds) ∧ ds ≠ [] ∧
    (∀ d ∈ ds, d.isDigit = true) ∧ Decimal.ofDigits ds = n

/-- How a line that is not blank changes the length that is known. -/
inductive Notes (line : String) (before : Option Nat) : Option Nat → Prop where
  | length {value : List Char} {n : Nat} (hline : GivesLength line value)
      (hn : NamesLength (Text.trimChars value) n) : Notes line before (some n)
  | other (hline : ¬IsBlankLine line) (hlength : ∀ value, ¬GivesLength line value) :
      Notes line before before

/-- Lines that are not blank, one after the other. -/
inductive Declares : Option Nat → List String → Option Nat → Prop where
  | nil {n : Option Nat} : Declares n [] n
  | cons {line : String} {lines : List String} {before middle after : Option Nat}
      (hline : Notes line before middle) (hlines : Declares middle lines after) :
      Declares before (line :: lines) after

/-- The bytes of lines, with the line feeds that end them. -/
def linesOf (lines : List String) : List UInt8 :=
  lines.flatMap fun line => Text.bytesOf (line ++ "\n")

/-- A frame as it may be sent. -/
structure Framed where
  /-- The lines before the first that is not blank. -/
  skipped : List String
  fields : List String
  final : String
  body : List UInt8
  blank_skipped : ∀ line ∈ skipped, IsBlankLine line
  one_line : ∀ line ∈ fields, '\n' ∉ line.toList
  declares : Declares none fields (some body.length)
  blank_final : IsBlankLine final
  length_head : (linesOf (skipped ++ fields ++ [final])).length ≤ maxHeader
  length_body : body.length ≤ maxBody

namespace Framed

/-- Everything before the body. -/
def head (f : Framed) : List UInt8 := linesOf (f.skipped ++ f.fields ++ [f.final])

def bytes (f : Framed) : List UInt8 := f.head ++ f.body

end Framed

theorem linesOf_append (a b : List String) : linesOf (a ++ b) = linesOf a ++ linesOf b :=
  List.flatMap_append

theorem linesOf_cons (line : String) (lines : List String) :
    linesOf (line :: lines) = Text.bytesOf (line ++ "\n") ++ linesOf lines :=
  List.flatMap_cons

theorem linesOf_singleton (line : String) : linesOf [line] = Text.bytesOf (line ++ "\n") :=
  List.append_nil _

theorem IsBlankLine.no_feed {line : String} (h : IsBlankLine line) : '\n' ∉ line.toList := by
  intro hmem
  have heq := h _ hmem
  contradiction

theorem readNat?_eq_some_iff {cs : List Char} {n : Nat} :
    Decimal.readNat? Header.lengthLimit cs = some n ↔ NamesLength cs n := by
  unfold Decimal.readNat?
  extract_lets ds m
  have hsign (es : List Char) (hes : ∀ d ∈ es, d.isDigit = true) :
      (cs = es ∨ cs = '+' :: es) ↔ ds = es := by
    unfold ds
    split
    · constructor
      · rintro (rfl | hcons)
        · -- A plus sign is no digit.
          exact absurd (hes '+' List.mem_cons_self) (by decide)
        · exact (List.cons.inj hcons).2
      · rintro rfl
        exact .inr rfl
    · rename_i hplus
      exact ⟨fun h => h.resolve_right (hplus es), .inl⟩
  simp only [Option.ite_none_left_eq_some, Option.ite_none_right_eq_some, Option.some.injEq,
    Bool.or_eq_true, Bool.not_eq_true', not_or, List.isEmpty_iff, Bool.not_eq_false,
    List.all_eq_true]
  constructor
  · rintro ⟨⟨hne, hall⟩, hlt, rfl⟩
    exact ⟨hlt, ds, (hsign ds hall).mpr rfl, hne, hall, rfl⟩
  · rintro ⟨hlt, es, hes, hne, hall, rfl⟩
    have hds : ds = es := (hsign es hall).mp hes
    have hm : m = Decimal.ofDigits es := congrArg Decimal.ofDigits hds
    rw [hds, hm]
    exact ⟨⟨hne, hall⟩, hlt, rfl⟩

/-! ## Reading a line -/

theorem GivesLength.mem {line : String} {value : List Char} (h : GivesLength line value) :
    ':' ∈ line.toList := by
  obtain ⟨name, hline, -, -⟩ := h
  rw [hline]
  exact List.mem_append_right _ List.mem_cons_self

theorem Notes.not_blank {line : String} {before after : Option Nat} (h : Notes line before after) :
    ¬IsBlankLine line := by
  cases h with
  | length hline _ =>
    intro hblank
    have hcolon := hblank _ hline.mem
    contradiction
  | other hline _ => exact hline

section
variable {line : String} {kept trailing : List Char} (hline : line.toList = kept ++ trailing)
  (htrailing : ∀ c ∈ trailing, c = '\r')
include hline htrailing

theorem givesLength_iff {value : List Char} :
    GivesLength line value ↔ ∃ name rest,
      Text.splitFirst? (· == ':') kept = some (name, rest) ∧ value = rest ++ trailing ∧
        (Text.trimChars name).map Char.toLower = Header.lengthName.toList := by
  have hcolon : ':' ∉ trailing := by
    intro hmem
    have hreturn := htrailing _ hmem
    contradiction
  simp only [Text.splitFirst?_eq_some_iff, beq_iff_eq, beq_eq_false_iff_ne]
  constructor
  · rintro ⟨name, hcut, hname, hlength⟩
    rw [hline, List.append_eq_append_iff] at hcut
    rcases hcut with ⟨behind, -, rfl⟩ | ⟨behind, rfl, hcut⟩
    · exact absurd (List.mem_append_right _ List.mem_cons_self) hcolon
    · cases behind with
      | nil =>
        rw [List.nil_append] at hcut
        exact absurd (hcut ▸ List.mem_cons_self) hcolon
      | cons c behind =>
        obtain ⟨rfl, rfl⟩ := List.cons.inj hcut
        exact ⟨name, behind, ⟨_, rfl, rfl, fun x hx => by rintro rfl; exact hname hx⟩, rfl, hlength⟩
  · rintro ⟨name, rest, ⟨c, rfl, rfl, hname⟩, rfl, hlength⟩
    exact ⟨name, by rw [hline, List.append_assoc, List.cons_append],
      fun hmem => hname _ hmem rfl, hlength⟩

omit hline in
theorem trimChars_rest (rest : List Char) :
    Text.trimChars (rest ++ trailing) = Text.trimChars rest := by
  apply Text.trimChars_append_of_blank
  intro c hc
  rw [htrailing c hc]
  decide

variable {before : Option Nat} (size : Nat) (begun : Bool)

theorem readField_of_notes {after : Option Nat} (hnotes : Notes line before after) :
    Header.readField ⟨before, size, begun⟩ kept = .ok ⟨after, size, begun⟩ := by
  rw [Header.readField]
  cases hnotes with
  | length hgives hn =>
    obtain ⟨name, rest, hsplit, rfl, hname⟩ := (givesLength_iff hline htrailing).mp hgives
    rw [trimChars_rest htrailing, ← readNat?_eq_some_iff] at hn
    simp only [hsplit, if_pos hname, hn]
  | other _ hother =>
    split
    · rfl
    · rename_i name rest hsplit
      rw [if_neg]
      intro hname
      exact hother _ ((givesLength_iff hline htrailing).mpr ⟨name, rest, hsplit, rfl, hname⟩)

/-- A length that is no number is the only thing that is wrong in a line. -/
theorem readField_of_not_notes (hblank : ¬IsBlankLine line)
    (hnotes : ∀ after, ¬Notes line before after) :
    Header.readField ⟨before, size, begun⟩ kept = .error .invalidLength := by
  by_cases hother : ∀ value, ¬GivesLength line value
  · exact absurd (.other hblank hother) (hnotes _)
  · obtain ⟨value, hgives⟩ := not_forall_not.mp hother
    obtain ⟨name, rest, hsplit, rfl, hname⟩ := (givesLength_iff hline htrailing).mp hgives
    rw [Header.readField, hsplit]
    simp only [if_pos hname]
    split
    · rename_i n hn
      rw [readNat?_eq_some_iff, ← trimChars_rest htrailing] at hn
      exact absurd (.length hgives hn) (hnotes _)
    · rfl

end

section
variable {line ending : String} (hending : ending = "" ∨ ending = "\n")
include hending

theorem eq_feed_of_mem {c : Char} (hc : c ∈ ending.toList) : c = '\n' := by
  rcases hending with rfl | rfl
  · cases hc
  · exact List.mem_singleton.mp hc

/-- What the reader takes for a line that is not blank differs from it by carriage returns. -/
theorem exists_dropTrailing_line (hfeed : '\n' ∉ line.toList) :
    ∃ trailing, line.toList =
        Text.dropTrailing (fun c => c == '\r' || c == '\n') (line ++ ending).toList ++ trailing ∧
      ∀ c ∈ trailing, c = '\r' := by
  obtain ⟨trailing, hcut, htrailing⟩ :=
    Text.exists_dropTrailing (fun c => c == '\r' || c == '\n') line.toList
  have hfeeds : ∀ c ∈ ending.toList, (c == '\r' || c == '\n') = true := by
    intro c hc
    rw [eq_feed_of_mem hending hc]
    rfl
  rw [String.toList_append, Text.dropTrailing_append_of_pos hfeeds]
  refine ⟨trailing, hcut, ?_⟩
  intro c hc
  have hmem : c ∈ line.toList := by
    rw [hcut]
    exact List.mem_append_right _ hc
  have hreturn := htrailing c hc
  rw [Bool.or_eq_true, beq_iff_eq, beq_iff_eq] at hreturn
  rcases hreturn with hreturn | rfl
  · exact hreturn
  · exact absurd hmem hfeed

variable {h : Header} (hsize : h.size + (Text.bytesOf (line ++ ending)).length ≤ maxHeader)
include hsize

theorem readLine_of_blank (hblank : IsBlankLine line) :
    h.readLine (Text.bytesOf (line ++ ending)) =
      .ok (h.begun, { h with size := h.size + (Text.bytesOf (line ++ ending)).length }) := by
  have hkept : Text.dropTrailing (fun c => c == '\r' || c == '\n') (line ++ ending).toList = [] := by
    rw [Text.dropTrailing_eq_nil_iff]
    intro c hc
    rw [String.toList_append] at hc
    rcases List.mem_append.mp hc with hc | hc
    · rw [hblank c hc]
      rfl
    · rw [eq_feed_of_mem hending hc]
      rfl
  rw [Header.readLine, Text.fromUTF8?_eq_some_iff.mpr rfl]
  simp only [if_neg (Nat.not_lt.mpr hsize), hkept, List.isEmpty_nil, if_true]

theorem readLine_of_not_blank (hfeed : '\n' ∉ line.toList) (hblank : ¬IsBlankLine line) :
    ∃ kept trailing, line.toList = kept ++ trailing ∧ (∀ c ∈ trailing, c = '\r') ∧
      h.readLine (Text.bytesOf (line ++ ending)) =
        (Header.readField ⟨h.length, h.size + (Text.bytesOf (line ++ ending)).length, true⟩ kept).map
          (false, ·) := by
  obtain ⟨trailing, hcut, htrailing⟩ := exists_dropTrailing_line hending hfeed
  refine ⟨_, trailing, hcut, htrailing, ?_⟩
  rw [Header.readLine, Text.fromUTF8?_eq_some_iff.mpr rfl]
  simp only [if_neg (Nat.not_lt.mpr hsize)]
  rw [if_neg]
  intro hempty
  rw [List.isEmpty_iff.mp hempty, List.nil_append] at hcut
  rw [← hcut] at htrailing
  exact hblank htrailing

theorem readLine_of_notes (hfeed : '\n' ∉ line.toList) {after : Option Nat}
    (hnotes : Notes line h.length after) :
    h.readLine (Text.bytesOf (line ++ ending)) =
      .ok (false, ⟨after, h.size + (Text.bytesOf (line ++ ending)).length, true⟩) := by
  obtain ⟨kept, trailing, hcut, htrailing, hread⟩ :=
    readLine_of_not_blank hending hsize hfeed hnotes.not_blank
  rw [hread, readField_of_notes hcut htrailing _ _ hnotes]
  rfl

theorem readLine_of_not_notes (hfeed : '\n' ∉ line.toList) (hblank : ¬IsBlankLine line)
    (hnotes : ∀ after, ¬Notes line h.length after) :
    h.readLine (Text.bytesOf (line ++ ending)) = .error .invalidLength := by
  obtain ⟨kept, trailing, hcut, htrailing, hread⟩ :=
    readLine_of_not_blank hending hsize hfeed hblank
  rw [hread, readField_of_not_notes hcut htrailing _ _ hblank hnotes]
  rfl

end

/-! ## Reading a frame -/

theorem readFrom_piece (ended : Bool) (h : Header) {line piece : List UInt8} (hpiece : 10 ∉ piece)
    (rest : List UInt8) :
    readFrom ended h line (piece ++ rest) = readFrom ended h (piece.reverse ++ line) rest := by
  induction piece generalizing line with
  | nil => rfl
  | cons b piece ih =>
    obtain ⟨hb, hpiece⟩ := not_or.mp (List.mem_cons.not.mp hpiece)
    rw [List.cons_append, readFrom, if_neg (Ne.symm hb), ih hpiece, List.reverse_cons,
      List.append_assoc, List.singleton_append]

theorem feed_not_mem_bytesOf {line : String} (hfeed : '\n' ∉ line.toList) :
    10 ∉ Text.bytesOf line := fun hmem =>
  hfeed ((Text.mem_bytesOf_iff (c := '\n') (by decide)).mp hmem)

theorem bytesOf_line (line : String) : Text.bytesOf (line ++ "\n") = Text.bytesOf line ++ [10] := by
  rw [Text.bytesOf_append, Text.bytesOf_eq_flatMap "\n"]
  rfl

theorem readFrom_line (ended : Bool) (h : Header) {line : String} (hfeed : '\n' ∉ line.toList)
    (rest : List UInt8) :
    readFrom ended h [] (Text.bytesOf (line ++ "\n") ++ rest) =
      match h.readLine (Text.bytesOf (line ++ "\n")) with
      | .error e => .failed e
      | .ok (true, h) => readBody ended h rest
      | .ok (false, h) => readFrom ended h [] rest := by
  have hwhole : Text.bytesOf line ++ [10] = (10 :: (Text.bytesOf line).reverse).reverse := by
    rw [List.reverse_cons, List.reverse_reverse]
  rw [bytesOf_line, List.append_assoc, readFrom_piece ended h (feed_not_mem_bytesOf hfeed),
    List.append_nil, List.singleton_append, hwhole]
  exact if_pos rfl

section
variable (ended : Bool) {lines : List String} (rest : List UInt8)

theorem readFrom_skipped (hlines : ∀ line ∈ lines, IsBlankLine line) {size : Nat}
    (hsize : size + (linesOf lines).length ≤ maxHeader) :
    readFrom ended ⟨none, size, false⟩ [] (linesOf lines ++ rest) =
      readFrom ended ⟨none, size + (linesOf lines).length, false⟩ [] rest := by
  induction lines generalizing size with
  | nil => rfl
  | cons line lines ih =>
    obtain ⟨hline, hlines⟩ := List.forall_mem_cons.mp hlines
    rw [linesOf_cons, List.length_append, ← Nat.add_assoc] at hsize
    rw [linesOf_cons, List.append_assoc, readFrom_line ended _ hline.no_feed,
      readLine_of_blank (.inr rfl) (by dsimp only; omega) hline]
    simp only [ih hlines hsize, List.length_append, Nat.add_assoc]

theorem readFrom_fields {before after : Option Nat} (hlines : Declares before lines after)
    (hfeed : ∀ line ∈ lines, '\n' ∉ line.toList) {size : Nat}
    (hsize : size + (linesOf lines).length ≤ maxHeader) (begun : Bool) :
    readFrom ended ⟨before, size, begun⟩ [] (linesOf lines ++ rest) =
      readFrom ended ⟨after, size + (linesOf lines).length, begun || !lines.isEmpty⟩ [] rest := by
  induction hlines generalizing size begun with
  | nil => simp [linesOf]
  | @cons line lines before middle after hline hlines ih =>
    obtain ⟨hfeedLine, hfeed⟩ := List.forall_mem_cons.mp hfeed
    rw [linesOf_cons, List.length_append, ← Nat.add_assoc] at hsize
    rw [linesOf_cons, List.append_assoc, readFrom_line ended _ hfeedLine,
      readLine_of_notes (.inr rfl) (by dsimp only; omega) hfeedLine hline]
    simp only [ih hfeed hsize, List.length_append, Nat.add_assoc, Bool.true_or, List.isEmpty_cons,
      Bool.not_false, Bool.or_true]

/-- The reader has noted what lines of a header block declare, and how many bytes they take. -/
theorem readFrame_lines {skipped fields : List String}
    (hskipped : ∀ line ∈ skipped, IsBlankLine line) (hfeed : ∀ line ∈ fields, '\n' ∉ line.toList) {length : Option Nat}
    (hfields : Declares none fields length) (hsize : (linesOf (skipped ++ fields)).length ≤ maxHeader) :
    readFrame ended (linesOf (skipped ++ fields) ++ rest) =
      readFrom ended ⟨length, (linesOf (skipped ++ fields)).length, !fields.isEmpty⟩ [] rest := by
  rw [linesOf_append, List.length_append] at hsize
  rw [readFrame, Header.start, linesOf_append, List.append_assoc,
    readFrom_skipped ended _ hskipped (by omega), readFrom_fields ended _ hfields hfeed (by omega),
    Nat.zero_add, List.length_append, Bool.false_or]

end

namespace Framed

/-- Behind the header block of a frame, the length of its body is known. -/
theorem readFrame_head (f : Framed) (ended : Bool) (rest : List UInt8) :
    readFrame ended (f.head ++ rest) =
      readBody ended ⟨some f.body.length, f.head.length, true⟩ rest := by
  have hsize := f.length_head
  have hfields : f.fields.isEmpty = false := by
    cases hempty : f.fields with
    | nil =>
      have hdeclares := f.declares
      rw [hempty] at hdeclares
      cases hdeclares
    | cons line lines => rfl
  rw [linesOf_append, linesOf_singleton, List.length_append] at hsize
  rw [head, linesOf_append, linesOf_singleton, List.append_assoc,
    readFrame_lines ended _ f.blank_skipped f.one_line f.declares (by omega),
    readFrom_line ended _ f.blank_final.no_feed,
    readLine_of_blank (.inr rfl) hsize f.blank_final]
  simp only [hfields, List.length_append]
  rfl

theorem readFrame_append (f : Framed) (ended : Bool) (rest : List UInt8) :
    readFrame ended (f.bytes ++ rest) = .frame f.body rest := by
  have hbody : ¬(f.body ++ rest).length < f.body.length := by
    rw [List.length_append]
    omega
  rw [bytes, List.append_assoc, readFrame_head, readBody]
  simp only [if_neg (Nat.not_lt.mpr f.length_body), if_neg hbody, List.take_left, List.drop_left]

end Framed

/-- Frames are read one by one, each from where it begins. -/
theorem readAll_flatMap (fs : List Framed) :
    readAll true (fs.flatMap Framed.bytes) =
      (fs.map fun f => .ofBody f.body, [], some .closed) := by
  induction fs with
  | nil => rfl
  | cons f fs ih =>
    rw [List.flatMap_cons, readAll_eq, f.readFrame_append]
    simp only [ih, List.map_cons]

/-! ## What is written -/

theorem namesLength_toDigits {n : Nat} (hn : n < Header.lengthLimit) :
    NamesLength (Nat.toDigits 10 n) n := by
  refine ⟨hn, Nat.toDigits 10 n, .inl rfl, Nat.toDigits_ne_nil, ?_, ?_⟩
  · intro d hd
    exact Nat.isDigit_of_mem_toDigits (by decide) (by decide) hd
  · exact Nat.ofDigitChars_eq_foldl.symm.trans Nat.ofDigitChars_ten_toDigits

/-- The line that tells the length of a body. -/
def lengthLine (n : Nat) : String := "Content-Length: " ++ toString n ++ "\r"

theorem toList_lengthLine (n : Nat) :
    (lengthLine n).toList =
      "Content-Length".toList ++ ':' :: ([' '] ++ Nat.toDigits 10 n ++ ['\r']) := by
  have hdigits : (toString n).toList = Nat.toDigits 10 n := Nat.toList_repr
  have hname : "Content-Length: ".toList = "Content-Length".toList ++ [':', ' '] := by decide
  have hreturn : "\r".toList = ['\r'] := by decide
  change ("Content-Length: " ++ toString n ++ "\r").toList = _
  rw [String.toList_append, String.toList_append, hdigits, hname, hreturn]
  simp only [List.append_assoc, List.cons_append, List.nil_append]

theorem feed_not_mem_lengthLine (n : Nat) : '\n' ∉ (lengthLine n).toList := by
  intro hfeed
  rw [toList_lengthLine, List.mem_append, List.mem_cons, List.mem_append, List.mem_append] at hfeed
  rcases hfeed with hname | hcolon | (hspace | hdigit) | hreturn
  · exact absurd hname (by decide)
  · exact absurd hcolon (by decide)
  · exact absurd hspace (by decide)
  · exact absurd (Nat.isDigit_of_mem_toDigits (by decide) (by decide) hdigit) (by decide)
  · exact absurd hreturn (by decide)

theorem length_lengthLine (n : Nat) :
    (lengthLine n ++ "\n").toList.length = (Nat.toDigits 10 n).length + 18 := by
  have hname : "Content-Length".toList.length = 14 := by decide
  have hfeed : "\n".toList.length = 1 := by decide
  rw [String.toList_append, toList_lengthLine]
  simp only [List.length_append, List.length_cons, List.length_nil, hname, hfeed]
  omega

theorem notes_lengthLine {n : Nat} (hn : n < Header.lengthLimit) (before : Option Nat) :
    Notes (lengthLine n) before (some n) := by
  refine .length ⟨_, toList_lengthLine n, by decide, by decide⟩ ?_
  have hdigits : ∀ c ∈ Nat.toDigits 10 n, Text.isBlank c = false := by
    intro c hc
    exact Text.isBlank_of_isDigit (Nat.isDigit_of_mem_toDigits (by decide) (by decide) hc)
  rw [Text.trimChars_around (List.forall_mem_singleton.mpr rfl) hdigits
    (List.forall_mem_singleton.mpr rfl)]
  exact namesLength_toDigits hn

/-- A body as it is written. -/
def Framed.ofText (body : String) (hbody : body.utf8ByteSize ≤ maxBody) : Framed where
  skipped := []
  fields := [lengthLine body.utf8ByteSize]
  final := "\r"
  body := Text.bytesOf body
  blank_skipped := nofun
  one_line := by
    intro line hline
    rw [List.mem_singleton.mp hline]
    exact feed_not_mem_lengthLine _
  declares := by
    rw [Text.length_bytesOf]
    exact .cons (notes_lengthLine (Nat.lt_of_le_of_lt hbody (by decide)) none) .nil
  blank_final := fun _ hc => List.mem_singleton.mp hc
  length_head := by
    have hdigits : (Nat.toDigits 10 body.utf8ByteSize).length ≤ 8 :=
      (Nat.length_toDigits_le_iff (by decide) (by decide)).mpr (Nat.lt_of_le_of_lt hbody (by decide))
    have hfinal : ("\r" ++ "\n").toList.length = 2 := by decide
    have hlineSize := Text.length_bytesOf_le (lengthLine body.utf8ByteSize ++ "\n")
    have hfinalSize := Text.length_bytesOf_le ("\r" ++ "\n")
    rw [length_lengthLine] at hlineSize
    rw [List.nil_append, linesOf_append, linesOf_singleton, linesOf_singleton, List.length_append,
      maxHeader]
    omega
  length_body := by
    rw [Text.length_bytesOf]
    exact hbody

theorem Framed.bytes_ofText (body : String) (hbody : body.utf8ByteSize ≤ maxBody) :
    (Framed.ofText body hbody).bytes = Text.bytesOf (frame body) := by
  change linesOf [lengthLine body.utf8ByteSize, "\r"] ++ Text.bytesOf body = _
  have hends : "\r" ++ ("\n" ++ ("\r" ++ "\n")) = "\r\n\r\n" := by decide
  have hline (n : Nat) : lengthLine n ++ "\n" ++ ("\r" ++ "\n") =
      "Content-Length: " ++ toString n ++ "\r\n\r\n" :=
    calc lengthLine n ++ "\n" ++ ("\r" ++ "\n")
      _ = lengthLine n ++ ("\n" ++ ("\r" ++ "\n")) := String.append_assoc
      _ = "Content-Length: " ++ toString n ++ ("\r" ++ ("\n" ++ ("\r" ++ "\n"))) :=
        String.append_assoc
      _ = "Content-Length: " ++ toString n ++ "\r\n\r\n" := by rw [hends]
  rw [linesOf_cons, linesOf_singleton, ← Text.bytesOf_append, ← Text.bytesOf_append, hline]
  rfl

theorem ofBody_bytesOf (text : String) :
    Received.ofBody (Text.bytesOf text) = (Json.read? text).elim .malformed .value := by
  have hbytes : Json.ofBytes? (Text.bytesOf text) = Json.read? text := by
    rw [Json.ofBytes?, Text.fromUTF8?_eq_some_iff.mpr rfl]
    rfl
  rw [Received.ofBody, hbytes]
  cases Json.read? text <;> rfl

theorem readAll_written {js : List Json} (hsize : ∀ j ∈ js, j.render.utf8ByteSize ≤ maxBody)
    (hjson : ∀ j ∈ js, Json.read? j.render = some j) :
    readAll true (js.flatMap fun j => Text.bytesOf (written j)) =
      (js.map .value, [], some .closed) := by
  have hframes : ∃ fs : List Framed,
      fs.flatMap Framed.bytes = js.flatMap (fun j => Text.bytesOf (written j)) ∧
        fs.map (fun f => Received.ofBody f.body) = js.map .value := by
    induction js with
    | nil => exact ⟨[], rfl, rfl⟩
    | cons j js ih =>
      obtain ⟨hsizeHead, hsize⟩ := List.forall_mem_cons.mp hsize
      obtain ⟨hjsonHead, hjson⟩ := List.forall_mem_cons.mp hjson
      obtain ⟨fs, hbytes, hbodies⟩ := ih hsize hjson
      refine ⟨.ofText j.render hsizeHead :: fs, ?_, ?_⟩
      · rw [List.flatMap_cons, List.flatMap_cons, hbytes, Framed.bytes_ofText, written]
      · have hbody : Received.ofBody (Framed.ofText j.render hsizeHead).body = .value j := by
          rw [Framed.ofText, ofBody_bytesOf, hjsonHead]
          rfl
        rw [List.map_cons, List.map_cons, hbodies, hbody]
  obtain ⟨fs, hbytes, hbodies⟩ := hframes
  rw [← hbytes, readAll_flatMap, hbodies]

/-- Values that are written one after another are read as they are, provided that their texts are
within the limit and are read as them. More generally, any frames are read one by one, each as what
its own body holds, be it JSON or not, and the stream ends where the last one does. -/
theorem frames_read_back (js : List Json) (hsize : ∀ j ∈ js, j.render.utf8ByteSize ≤ maxBody)
    (hjson : ∀ j ∈ js, Json.read? j.render = some j) (fs : List Framed) :
    readAll true (js.flatMap fun j => Text.bytesOf (written j)) =
        (js.map .value, [], some .closed) ∧
      readAll true (fs.flatMap Framed.bytes) = (fs.map fun f => .ofBody f.body, [], some .closed) :=
  ⟨readAll_written hsize hjson, readAll_flatMap fs⟩

theorem frames_read_back_malformedBetween :
    let js : List Json := [.str "né", .arr [.null, .num (.int 7)]]
    let fs : List Framed :=
      [.ofText "[]" (by decide), .ofText "[é" (by decide), .ofText "7" (by decide)]
    (∀ j ∈ js, j.render.utf8ByteSize ≤ maxBody) ∧ (∀ j ∈ js, Json.read? j.render = some j) ∧
      readAll true (js.flatMap fun j => Text.bytesOf (written j)) =
        (js.map .value, [], some .closed) ∧
      readAll true (fs.flatMap Framed.bytes) =
        ([.value (.arr []), .malformed, .value (.num (.int 7))], [], some .closed) := by
  intro js fs
  have hsize : ∀ j ∈ js, j.render.utf8ByteSize ≤ maxBody := by decide
  have hjson : ∀ j ∈ js, Json.read? j.render = some j := by
    intro j hj
    simp only [js, List.mem_cons, List.not_mem_nil, or_false] at hj
    rcases hj with rfl | rfl
    · rfl
    · rfl
  obtain ⟨hwritten, hframes⟩ := frames_read_back js hsize hjson fs
  refine ⟨hsize, hjson, hwritten, hframes.trans ?_⟩
  simp only [fs, List.map_cons, List.map_nil, Framed.ofText, ofBody_bytesOf]
  rfl

end DebugAdapter.Wire
