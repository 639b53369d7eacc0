import DebugAdapter.Proofs.Script.Lines

/-!
# How programs are laid out

`LaidOut` tells which lines write a block, without regard to the reader: a statement is written by one
line, or by a line, its blocks and the line that closes them. Reading accepts exactly what is laid out
(`ofText_eq_ok_iff`), and so a program has one statement for every line that neither is passed over nor
closes a block, in the order of the lines (`LaidOut.statements_lines`).
-/

namespace DebugAdapter.Script

namespace Line

/-- The word that says what a line begins. -/
def keyword (l : Line) : String := String.ofList (Text.firstWord l.text).1

/-- What follows the keyword. -/
def argument (l : Line) : List Char := (Text.firstWord l.text).2

/-- The line only closes a block. -/
def Closes (l : Line) : Prop := l.text = "end".toList ∨ l.text = "else".toList

instance (l : Line) : Decidable l.Closes := inferInstanceAs (Decidable (_ ∨ _))

end Line

/-- The lines write the statements of a block. -/
inductive LaidOut : List Line → List Stmt → Prop where
  | nil : LaidOut [] []
  | simple {l : Line} {ls : List Line} {s : Stmt} {block : List Stmt}
      (hfunc : l.keyword ≠ "func") (hbranch : l.keyword ≠ "if") (hloop : l.keyword ≠ "while")
      (hs : readSimple l.number l.keyword l.argument = .ok s) (hrest : LaidOut ls block) :
      LaidOut (l :: ls) (s :: block)
  | func {l stop : Line} {inner ls : List Line} {name : String} {params : List String}
      {body block : List Stmt} (hword : l.keyword = "func")
      (hsignature : readSignature l.argument = .ok (name, params)) (hbody : LaidOut inner body)
      (hstop : stop.text = "end".toList) (hrest : LaidOut ls block) :
      LaidOut (l :: (inner ++ stop :: ls)) (.func l.number name params body :: block)
  | loop {l stop : Line} {inner ls : List Line} {test : Expr} {body block : List Stmt}
      (hword : l.keyword = "while") (htest : Expr.ofText l.argument = .ok test)
      (hbody : LaidOut inner body) (hstop : stop.text = "end".toList) (hrest : LaidOut ls block) :
      LaidOut (l :: (inner ++ stop :: ls)) (.loop l.number test body :: block)
  | branch {l stop : Line} {inner ls : List Line} {test : Expr} {yes block : List Stmt}
      (hword : l.keyword = "if") (htest : Expr.ofText l.argument = .ok test)
      (hyes : LaidOut inner yes) (hstop : stop.text = "end".toList) (hrest : LaidOut ls block) :
      LaidOut (l :: (inner ++ stop :: ls)) (.branch l.number test yes [] :: block)
  | branchElse {l middle stop : Line} {inner other ls : List Line} {test : Expr}
      {yes no block : List Stmt} (hword : l.keyword = "if")
      (htest : Expr.ofText l.argument = .ok test) (hyes : LaidOut inner yes)
      (hmiddle : middle.text = "else".toList) (hno : LaidOut other no)
      (hstop : stop.text = "end".toList) (hrest : LaidOut ls block) :
      LaidOut (l :: (inner ++ middle :: (other ++ stop :: ls)))
        (.branch l.number test yes no :: block)

/-- What stands behind the statements of a block: the line that closes it, or the end of the script.
-/
inductive Ends (e : Enclosure) : List Line → Closer → List Line → Prop where
  | script (he : e = .script) : Ends e [] .atEnd []
  | line {l : Line} {ls : List Line} {c : Closer} (hc : closer? e l.text = some c) :
      Ends e (l :: ls) c ls

/-! ## Reading -/

theorem closer?_cases {e : Enclosure} {text : List Char} {c : Closer} (h : closer? e text = some c) :
    text = "end".toList ∧ c = .atEnd ∨ text = "else".toList ∧ e = .branch ∧ c = .atElse := by
  unfold closer? at h
  split at h
  · contradiction
  · split at h
    · cases h
      exact Or.inl ⟨‹_›, rfl⟩
    · split at h
      · cases h
        rename_i helse
        exact Or.inr ⟨helse.2, helse.1, rfl⟩
      · contradiction

theorem closer?_end {e : Enclosure} (he : e ≠ .script) {text : List Char}
    (h : text = "end".toList) : closer? e text = some .atEnd := by
  rw [closer?, if_neg he, if_pos h]

theorem closer?_else {text : List Char} (h : text = "else".toList) :
    closer? .branch text = some .atElse := by
  rw [h]
  decide

/-- A line that closes a block has no other keyword. -/
theorem Line.Closes.keyword {l : Line} (h : l.Closes) : l.keyword = "end" ∨ l.keyword = "else" := by
  rcases h with h | h
  · left
    rw [Line.keyword, h]
    decide
  · right
    rw [Line.keyword, h]
    decide

theorem closer?_eq_none {e : Enclosure} {l : Line} (h : ¬l.Closes) : closer? e l.text = none := by
  rw [Option.eq_none_iff_forall_ne_some]
  intro c hc
  rcases closer?_cases hc with ⟨hend, -⟩ | ⟨helse, -⟩
  · exact h (Or.inl hend)
  · exact h (Or.inr helse)

theorem not_closes_of_keyword {l : Line} {word : String} (hword : l.keyword = word)
    (hend : word ≠ "end") (helse : word ≠ "else") : ¬l.Closes := by
  intro hl
  rcases hl.keyword with h | h
  · exact hend (hword.symm.trans h)
  · exact helse (hword.symm.trans h)

theorem not_closes_of_readSimple {l : Line} {s : Stmt} {n : Nat} {rest : List Char}
    (h : readSimple n l.keyword rest = .ok s) : ¬l.Closes := by
  intro hl
  rcases hl.keyword with hword | hword
  · rw [hword] at h
    contradiction
  · rw [hword] at h
    contradiction

section
variable {e : Enclosure} {opened fuel : Nat} {l : Line} {ls rest : List Line} {block : List Stmt}
  {c : Closer}

/-- Reads the rest of a block behind a statement. -/
def readBehind (e : Enclosure) (opened fuel : Nat) (s : Stmt) (ls : List Line) :
    Except SyntaxError (List Stmt × Closer × List Line) := do
  let (rest, c, ls) ← readBlock e opened fuel ls
  return (s :: rest, c, ls)

theorem readBehind_eq_ok_iff {s : Stmt} :
    readBehind e opened fuel s ls = .ok (block, c, rest) ↔
      ∃ behind, readBlock e opened fuel ls = .ok (behind, c, rest) ∧ block = s :: behind := by
  constructor
  · intro h
    obtain ⟨⟨behind, c', rest'⟩, hread, h⟩ := ok_of_bind h
    cases h
    exact ⟨behind, hread, rfl⟩
  · rintro ⟨behind, h, rfl⟩
    rw [readBehind, h]
    rfl

/-- A block closed by `end`, and the rest of the block that it is in. -/
theorem body_eq_ok_iff {n : Nat} {f : List Stmt → Stmt} :
    (do
      let (body, _, ls) ← readBlock .body n fuel ls
      readBehind e opened fuel (f body) ls) = .ok (block, c, rest) ↔
      ∃ body c' left behind, readBlock .body n fuel ls = .ok (body, c', left) ∧
        readBlock e opened fuel left = .ok (behind, c, rest) ∧ block = f body :: behind := by
  constructor
  · intro h
    obtain ⟨⟨body, c', left⟩, hbody, h⟩ := ok_of_bind h
    obtain ⟨behind, hbehind, rfl⟩ := readBehind_eq_ok_iff.mp h
    exact ⟨body, c', left, behind, hbody, hbehind, rfl⟩
  · rintro ⟨body, c', left, behind, hbody, hbehind, rfl⟩
    rw [hbody]
    exact readBehind_eq_ok_iff.mpr ⟨behind, hbehind, rfl⟩

theorem atLine_eq_ok_iff {α : Type} {n : Nat} {r : Except ExprError α} {a : α} :
    atLine n r = .ok a ↔ r = .ok a := by
  cases r with
  | error => simp [atLine]
  | ok => simp [atLine]

theorem readBlock_closed (hc : closer? e l.text = some c) :
    readBlock e opened (fuel + 1) (l :: ls) = .ok ([], c, ls) := by
  rw [readBlock, hc]

theorem readBlock_func (hopen : closer? e l.text = none) (hword : l.keyword = "func") :
    readBlock e opened (fuel + 1) (l :: ls) = .ok (block, c, rest) ↔
      ∃ name params body c' left behind, readSignature l.argument = .ok (name, params) ∧
        readBlock .body l.number fuel ls = .ok (body, c', left) ∧
        readBlock e opened fuel left = .ok (behind, c, rest) ∧
        block = .func l.number name params body :: behind := by
  have hread : readBlock e opened (fuel + 1) (l :: ls) = (do
      let signature ← atLine l.number (readSignature l.argument)
      let (body, _, ls) ← readBlock .body l.number fuel ls
      readBehind e opened fuel (.func l.number signature.1 signature.2 body) ls) := by
    rw [readBlock, hopen]
    simp only [Line.keyword] at hword
    simp only [hword, pure_bind, readBehind, Line.argument]
  rw [hread]
  constructor
  · intro h
    obtain ⟨⟨name, params⟩, hsignature, h⟩ := ok_of_bind h
    obtain ⟨body, c', left, behind, hbody⟩ := body_eq_ok_iff.mp h
    exact ⟨name, params, body, c', left, behind, atLine_eq_ok_iff.mp hsignature, hbody⟩
  · rintro ⟨name, params, body, c', left, behind, hsignature, hbody⟩
    rw [atLine_eq_ok_iff.mpr hsignature]
    exact body_eq_ok_iff.mpr ⟨body, c', left, behind, hbody⟩

theorem readBlock_loop (hopen : closer? e l.text = none) (hword : l.keyword = "while") :
    readBlock e opened (fuel + 1) (l :: ls) = .ok (block, c, rest) ↔
      ∃ test body c' left behind, Expr.ofText l.argument = .ok test ∧
        readBlock .body l.number fuel ls = .ok (body, c', left) ∧
        readBlock e opened fuel left = .ok (behind, c, rest) ∧
        block = .loop l.number test body :: behind := by
  have hread : readBlock e opened (fuel + 1) (l :: ls) = (do
      let test ← atLine l.number (Expr.ofText l.argument)
      let (body, _, ls) ← readBlock .body l.number fuel ls
      readBehind e opened fuel (.loop l.number test body) ls) := by
    rw [readBlock, hopen]
    simp only [Line.keyword] at hword
    simp only [hword, pure_bind, readBehind, Line.argument]
  rw [hread]
  constructor
  · intro h
    obtain ⟨test, htest, h⟩ := ok_of_bind h
    obtain ⟨body, c', left, behind, hbody⟩ := body_eq_ok_iff.mp h
    exact ⟨test, body, c', left, behind, atLine_eq_ok_iff.mp htest, hbody⟩
  · rintro ⟨test, body, c', left, behind, htest, hbody⟩
    rw [atLine_eq_ok_iff.mpr htest]
    exact body_eq_ok_iff.mpr ⟨body, c', left, behind, hbody⟩

/-- The other half of a branch is empty unless `else` begins it. -/
theorem readBlock_branch (hopen : closer? e l.text = none) (hword : l.keyword = "if") :
    readBlock e opened (fuel + 1) (l :: ls) = .ok (block, c, rest) ↔
      ∃ test yes no c' left left' behind, Expr.ofText l.argument = .ok test ∧
        readBlock .branch l.number fuel ls = .ok (yes, c', left) ∧
        (c' = .atEnd ∧ no = [] ∧ left' = left ∨
          c' = .atElse ∧ ∃ c'', readBlock .body l.number fuel left = .ok (no, c'', left')) ∧
        readBlock e opened fuel left' = .ok (behind, c, rest) ∧
        block = .branch l.number test yes no :: behind := by
  have hread : readBlock e opened (fuel + 1) (l :: ls) = (do
      let test ← atLine l.number (Expr.ofText l.argument)
      let (yes, c, ls) ← readBlock .branch l.number fuel ls
      if c = .atElse then
        let (no, _, ls) ← readBlock .body l.number fuel ls
        readBehind e opened fuel (.branch l.number test yes no) ls
      else readBehind e opened fuel (.branch l.number test yes []) ls) := by
    rw [readBlock, hopen]
    simp only [Line.keyword] at hword
    simp only [hword, Line.argument]
    refine bind_congr fun test => bind_congr fun inner => ?_
    obtain ⟨yes, closer, left⟩ := inner
    cases closer with
    | atEnd | atElse => rfl
  rw [hread]
  constructor
  · intro h
    obtain ⟨test, htest, h⟩ := ok_of_bind h
    obtain ⟨⟨yes, c', left⟩, hyes, h⟩ := ok_of_bind h
    cases c' with
    | atEnd =>
      obtain ⟨behind, hbehind, rfl⟩ := readBehind_eq_ok_iff.mp h
      exact ⟨test, yes, [], .atEnd, left, left, behind, atLine_eq_ok_iff.mp htest, hyes,
        Or.inl ⟨rfl, rfl, rfl⟩, hbehind, rfl⟩
    | atElse =>
      obtain ⟨no, c'', left', behind, hno, hbehind, rfl⟩ := body_eq_ok_iff.mp h
      exact ⟨test, yes, no, .atElse, left, left', behind, atLine_eq_ok_iff.mp htest, hyes,
        Or.inr ⟨rfl, c'', hno⟩, hbehind, rfl⟩
  · rintro ⟨test, yes, no, c', left, left', behind, htest, hyes, hno, hbehind, rfl⟩
    rw [atLine_eq_ok_iff.mpr htest]
    change (readBlock .branch l.number fuel ls >>= _) = _
    rw [hyes]
    rcases hno with ⟨rfl, rfl, rfl⟩ | ⟨rfl, c'', hno⟩
    · exact readBehind_eq_ok_iff.mpr ⟨behind, hbehind, rfl⟩
    · exact body_eq_ok_iff.mpr ⟨no, c'', left', behind, hno, hbehind, rfl⟩

theorem readBlock_simple (hopen : closer? e l.text = none) (hfunc : l.keyword ≠ "func")
    (hbranch : l.keyword ≠ "if") (hloop : l.keyword ≠ "while") :
    readBlock e opened (fuel + 1) (l :: ls) = .ok (block, c, rest) ↔
      ∃ s behind, readSimple l.number l.keyword l.argument = .ok s ∧
        readBlock e opened fuel ls = .ok (behind, c, rest) ∧ block = s :: behind := by
  have hread : readBlock e opened (fuel + 1) (l :: ls) = (do
      let s ← readSimple l.number l.keyword l.argument
      readBehind e opened fuel s ls) := by
    rw [readBlock, hopen]
    simp only [Line.keyword] at hfunc hbranch hloop
    simp only [pure_bind, readBehind, Line.argument, Line.keyword]
  rw [hread]
  constructor
  · intro h
    obtain ⟨s, hs, h⟩ := ok_of_bind h
    obtain ⟨behind, hbehind, rfl⟩ := readBehind_eq_ok_iff.mp h
    exact ⟨s, behind, hs, hbehind, rfl⟩
  · rintro ⟨s, behind, hs, hbehind, rfl⟩
    rw [hs]
    exact readBehind_eq_ok_iff.mpr ⟨behind, hbehind, rfl⟩

end

section
variable {e : Enclosure} {opened fuel : Nat} {own ls tail rest : List Line} {block : List Stmt}
  {c : Closer}

/-- What is laid out is read, up to what ends it. -/
theorem readBlock_of_laidOut (h : LaidOut own block) (hends : Ends e tail c rest)
    (hfuel : own.length < fuel) :
    readBlock e opened fuel (own ++ tail) = .ok (block, c, rest) := by
  induction h generalizing e opened fuel tail c rest with
  | nil =>
    obtain ⟨fuel, rfl⟩ := Nat.exists_eq_succ_of_ne_zero (Nat.ne_zero_of_lt hfuel)
    cases hends with
    | script he => rw [List.nil_append, readBlock, if_pos he]
    | line hc => exact readBlock_closed hc
  | simple hfunc hbranch hloop hs _ ih =>
    obtain ⟨fuel, rfl⟩ := Nat.exists_eq_succ_of_ne_zero (Nat.ne_zero_of_lt hfuel)
    have hopen := closer?_eq_none (e := e) (not_closes_of_readSimple hs)
    rw [List.cons_append, readBlock_simple hopen hfunc hbranch hloop]
    exact ⟨_, _, hs, ih hends (Nat.lt_of_succ_lt_succ hfuel), rfl⟩
  | @func l stop inner ls name params body block hword hsignature _ hstop _ ihbody ihrest =>
    obtain ⟨fuel, rfl⟩ := Nat.exists_eq_succ_of_ne_zero (Nat.ne_zero_of_lt hfuel)
    simp only [List.length_cons, List.length_append] at hfuel
    have hopen := closer?_eq_none (e := e) (not_closes_of_keyword hword (by decide) (by decide))
    have hbody : readBlock .body l.number fuel (inner ++ stop :: (ls ++ tail)) =
        .ok (body, .atEnd, ls ++ tail) :=
      ihbody (.line (closer?_end (by decide) hstop)) (by omega)
    rw [List.cons_append, List.append_assoc, readBlock_func hopen hword]
    exact ⟨_, _, _, _, _, _, hsignature, hbody, ihrest hends (by omega), rfl⟩
  | @loop l stop inner ls test body block hword htest _ hstop _ ihbody ihrest =>
    obtain ⟨fuel, rfl⟩ := Nat.exists_eq_succ_of_ne_zero (Nat.ne_zero_of_lt hfuel)
    simp only [List.length_cons, List.length_append] at hfuel
    have hopen := closer?_eq_none (e := e) (not_closes_of_keyword hword (by decide) (by decide))
    have hbody : readBlock .body l.number fuel (inner ++ stop :: (ls ++ tail)) =
        .ok (body, .atEnd, ls ++ tail) :=
      ihbody (.line (closer?_end (by decide) hstop)) (by omega)
    rw [List.cons_append, List.append_assoc, readBlock_loop hopen hword]
    exact ⟨_, _, _, _, _, htest, hbody, ihrest hends (by omega), rfl⟩
  | @branch l stop inner ls test yes block hword htest _ hstop _ ihyes ihrest =>
    obtain ⟨fuel, rfl⟩ := Nat.exists_eq_succ_of_ne_zero (Nat.ne_zero_of_lt hfuel)
    simp only [List.length_cons, List.length_append] at hfuel
    have hopen := closer?_eq_none (e := e) (not_closes_of_keyword hword (by decide) (by decide))
    have hyes : readBlock .branch l.number fuel (inner ++ stop :: (ls ++ tail)) =
        .ok (yes, .atEnd, ls ++ tail) :=
      ihyes (.line (closer?_end (by decide) hstop)) (by omega)
    rw [List.cons_append, List.append_assoc, readBlock_branch hopen hword]
    exact ⟨_, _, _, _, _, _, _, htest, hyes, Or.inl ⟨rfl, rfl, rfl⟩, ihrest hends (by omega), rfl⟩
  | @branchElse l middle stop inner other ls test yes no block hword htest _ hmiddle _ hstop _ ihyes
      ihno ihrest =>
    obtain ⟨fuel, rfl⟩ := Nat.exists_eq_succ_of_ne_zero (Nat.ne_zero_of_lt hfuel)
    simp only [List.length_cons, List.length_append] at hfuel
    have hopen := closer?_eq_none (e := e) (not_closes_of_keyword hword (by decide) (by decide))
    have hyes : readBlock .branch l.number fuel
        (inner ++ middle :: (other ++ stop :: (ls ++ tail))) =
        .ok (yes, .atElse, other ++ stop :: (ls ++ tail)) :=
      ihyes (.line (closer?_else hmiddle)) (by omega)
    have hno : readBlock .body l.number fuel (other ++ stop :: (ls ++ tail)) =
        .ok (no, .atEnd, ls ++ tail) :=
      ihno (.line (closer?_end (by decide) hstop)) (by omega)
    rw [List.cons_append, List.append_assoc, List.cons_append, List.append_assoc,
      readBlock_branch hopen hword]
    exact ⟨_, _, _, _, _, _, _, htest, hyes, Or.inr ⟨rfl, _, hno⟩, ihrest hends (by omega), rfl⟩

theorem Ends.exists_line (h : Ends e tail c rest) (he : e ≠ .script) :
    ∃ stop, tail = stop :: rest ∧ closer? e stop.text = some c := by
  cases h with
  | script hscript => exact absurd hscript he
  | line hc => exact ⟨_, rfl, hc⟩

theorem Ends.exists_end (h : Ends .body tail c rest) :
    ∃ stop, tail = stop :: rest ∧ stop.text = "end".toList := by
  obtain ⟨stop, rfl, hc⟩ := h.exists_line (by decide)
  rcases closer?_cases hc with ⟨hend, _⟩ | ⟨_, hbody, _⟩
  · exact ⟨stop, rfl, hend⟩
  · contradiction

/-- What is read is laid out, and ended. -/
theorem laidOut_of_readBlock (h : readBlock e opened fuel ls = .ok (block, c, rest)) :
    ∃ own tail, ls = own ++ tail ∧ LaidOut own block ∧ Ends e tail c rest := by
  induction fuel generalizing e opened ls block c rest with
  | zero => contradiction
  | succ fuel ih =>
    cases ls with
    | nil =>
      rw [readBlock] at h
      split at h
      · cases h
        exact ⟨[], [], rfl, .nil, .script ‹_›⟩
      · contradiction
    | cons l ls =>
      cases hcloser : closer? e l.text with
      | some c' =>
        rw [readBlock_closed hcloser] at h
        cases h
        exact ⟨[], _, rfl, .nil, .line hcloser⟩
      | none =>
        by_cases hfunc : l.keyword = "func"
        · obtain ⟨name, params, body, c', left, behind, hsignature, hbody, hbehind, rfl⟩ :=
            (readBlock_func hcloser hfunc).mp h
          obtain ⟨inner, _, rfl, hinner, hends⟩ := ih hbody
          obtain ⟨stop, rfl, hstop⟩ := hends.exists_end
          obtain ⟨own, tail, rfl, hown, htail⟩ := ih hbehind
          exact ⟨l :: (inner ++ stop :: own), tail, by simp,
            .func hfunc hsignature hinner hstop hown, htail⟩
        by_cases hloop : l.keyword = "while"
        · obtain ⟨test, body, c', left, behind, htest, hbody, hbehind, rfl⟩ :=
            (readBlock_loop hcloser hloop).mp h
          obtain ⟨inner, _, rfl, hinner, hends⟩ := ih hbody
          obtain ⟨stop, rfl, hstop⟩ := hends.exists_end
          obtain ⟨own, tail, rfl, hown, htail⟩ := ih hbehind
          exact ⟨l :: (inner ++ stop :: own), tail, by simp,
            .loop hloop htest hinner hstop hown, htail⟩
        by_cases hbranch : l.keyword = "if"
        · obtain ⟨test, yes, no, c', left, left', behind, htest, hyes, hno, hbehind, rfl⟩ :=
            (readBlock_branch hcloser hbranch).mp h
          obtain ⟨inner, _, rfl, hinner, hends⟩ := ih hyes
          obtain ⟨stop, rfl, hc⟩ := hends.exists_line (by decide)
          obtain ⟨own, tail, rfl, hown, htail⟩ := ih hbehind
          rcases closer?_cases hc with ⟨hstop, rfl⟩ | ⟨hmiddle, -, rfl⟩
          · rcases hno with ⟨-, rfl, rfl⟩ | ⟨hc, -⟩
            · exact ⟨l :: (inner ++ stop :: own), tail, by simp,
                .branch hbranch htest hinner hstop hown, htail⟩
            · contradiction
          · rcases hno with ⟨hc, -⟩ | ⟨-, c'', hno⟩
            · contradiction
            · obtain ⟨other, _, rfl, hother, hends⟩ := ih hno
              obtain ⟨last, rfl, hlast⟩ := hends.exists_end
              exact ⟨l :: (inner ++ stop :: (other ++ last :: own)), tail, by simp,
                .branchElse hbranch htest hinner hmiddle hother hlast hown, htail⟩
        · obtain ⟨s, behind, hs, hbehind, rfl⟩ :=
            (readBlock_simple hcloser hfunc hbranch hloop).mp h
          obtain ⟨own, tail, rfl, hown, htail⟩ := ih hbehind
          exact ⟨l :: own, tail, rfl, .simple hfunc hbranch hloop hs hown, htail⟩

end

theorem ofText_eq_ok_iff {file source : String} {p : Program} :
    Program.ofText file source = .ok p ↔
      p.file = file ∧ LaidOut (significantLines source.toList) p.body := by
  constructor
  · intro h
    obtain ⟨⟨body, c, rest⟩, hbody, h⟩ := ok_of_bind h
    cases h
    obtain ⟨own, tail, hlines, hown, hends⟩ := laidOut_of_readBlock hbody
    cases hends with
    | script =>
      rw [List.append_nil] at hlines
      rw [hlines]
      exact ⟨rfl, hown⟩
    | line hc => contradiction
  · rintro ⟨rfl, h⟩
    have hread : readBlock .script 1 ((significantLines source.toList).length + 1)
        (significantLines source.toList ++ []) = .ok (p.body, .atEnd, []) :=
      readBlock_of_laidOut h (.script rfl) (Nat.lt_succ_self _)
    rw [List.append_nil] at hread
    rw [Program.ofText]
    simp only [hread]
    rfl

/-! ## The lines of what is laid out -/

namespace Stmt

/-- The statements of a block, each before those inside it. -/
def statements : List Stmt → List Stmt
  | [] => []
  | s :: rest => s :: (statements s.inner ++ statements rest)
termination_by block => sizeOf block
decreasing_by
  · have := sizeOf_inner_le s
    simp only [List.cons.sizeOf_spec]
    omega
  · simp only [List.cons.sizeOf_spec]
    omega

theorem blockLines_eq_map (block : List Stmt) : blockLines block = (statements block).map line := by
  induction block using statements.induct with
  | case1 => rw [statements, blockLines, List.map_nil]
  | case2 s rest ihinner ihrest =>
    rw [statements, blockLines, lines_eq, ihinner, ihrest, List.map_cons, List.map_append,
      List.cons_append]

theorem statements_append (xs ys : List Stmt) :
    statements (xs ++ ys) = statements xs ++ statements ys := by
  induction xs with
  | nil => rw [statements, List.nil_append, List.nil_append]
  | cons x xs ih => simp only [List.cons_append, statements, ih, List.append_assoc]

end Stmt

/-- The lines that write statements, as opposed to those that close blocks. -/
def statementLines (ls : List Line) : List Line := ls.filter fun l => !decide l.Closes

theorem statementLines_cons {l : Line} {ls : List Line} (h : ¬l.Closes) :
    statementLines (l :: ls) = l :: statementLines ls := by
  simp [statementLines, h]

theorem statementLines_closed {l : Line} {before ls : List Line} (h : l.Closes) :
    statementLines (before ++ l :: ls) = statementLines before ++ statementLines ls := by
  simp [statementLines, h]

/-- Every line that does not close a block has its statement. -/
theorem LaidOut.statements_lines {ls : List Line} {block : List Stmt} (h : LaidOut ls block) :
    (Stmt.statements block).map Stmt.line = (statementLines ls).map Line.number := by
  have hopens : ∀ {l stop : Line} {inner ls : List Line} {word : String}, l.keyword = word →
      word ≠ "end" → word ≠ "else" → stop.Closes → statementLines (l :: (inner ++ stop :: ls)) =
        l :: (statementLines inner ++ statementLines ls) := by
    intro l stop inner ls word hword hend helse hstop
    rw [statementLines_cons (not_closes_of_keyword hword hend helse), statementLines_closed hstop]
  induction h with
  | nil =>
    rw [Stmt.statements]
    rfl
  | simple _ _ _ hs _ ih =>
    obtain ⟨hline, hinner⟩ := readSimple_standsAt hs
    rw [statementLines_cons (not_closes_of_readSimple hs), Stmt.statements, hinner, Stmt.statements,
      List.nil_append, List.map_cons, List.map_cons, ih, hline]
  | func hword _ _ hstop _ ihbody ihrest | loop hword _ _ hstop _ ihbody ihrest =>
    rw [hopens hword (by decide) (by decide) (Or.inl hstop), Stmt.statements, List.map_cons,
      List.map_cons, List.map_append, List.map_append, ← ihrest, ← ihbody]
    rfl
  | branch hword _ _ hstop _ ihyes ihrest =>
    rw [hopens hword (by decide) (by decide) (Or.inl hstop), Stmt.statements, Stmt.inner,
      List.append_nil, List.map_cons, List.map_cons, List.map_append, List.map_append, ← ihrest,
      ← ihyes]
    rfl
  | branchElse hword _ _ hmiddle _ hstop _ ihyes ihno ihrest =>
    rw [hopens hword (by decide) (by decide) (Or.inr hmiddle), statementLines_closed (Or.inl hstop),
      Stmt.statements, Stmt.inner, Stmt.statements_append]
    simp only [List.map_cons, List.map_append, ihyes, ihno, ihrest, List.append_assoc]
    rfl

/-! ## Executable lines -/

theorem eraseReps_eq_self {as : List Nat} (h : as.Pairwise (· < ·)) : as.eraseReps = as := by
  have hloop : ∀ (b : Nat) (bs acc : List Nat), (b :: bs).Pairwise (· < ·) →
      List.eraseRepsBy.loop (· == ·) b bs acc = acc.reverse ++ b :: bs := by
    intro b bs
    induction bs generalizing b with
    | nil =>
      intro acc _
      simp [List.eraseRepsBy.loop]
    | cons c bs ih =>
      intro acc hsorted
      obtain ⟨hb, hrest⟩ := List.pairwise_cons.mp hsorted
      have hne : (b == c) = false :=
        beq_eq_false_iff_ne.mpr (Nat.ne_of_lt (hb c List.mem_cons_self))
      rw [List.eraseRepsBy.loop, hne]
      simp only
      rw [ih c (b :: acc) hrest]
      simp
  cases as with
  | nil => rfl
  | cons b bs => exact hloop b bs [] h

theorem pairwise_significantLines (source : List Char) :
    (significantLines source).Pairwise fun a b => a.number < b.number := by
  apply List.Pairwise.filter
  rw [List.pairwise_iff_getElem]
  intro i j hi hj hij
  simpa using hij

/-- The executable lines of a program that is laid out are those of its statements, in order. -/
theorem executableLines_eq {p : Program} {ls : List Line} (h : LaidOut ls p.body)
    (hls : ls.Pairwise fun a b => a.number < b.number) :
    p.executableLines = (statementLines ls).map Line.number := by
  have hsorted : ((statementLines ls).map Line.number).Pairwise (· < ·) :=
    List.pairwise_map.mpr (hls.filter _)
  have hle : ((statementLines ls).map Line.number).Pairwise fun a b => decide (a ≤ b) = true :=
    hsorted.imp fun h => decide_eq_true (Nat.le_of_lt h)
  rw [Program.executableLines, Stmt.blockLines_eq_map, h.statements_lines,
    List.mergeSort_of_pairwise hle, eraseReps_eq_self hsorted]

/-- A line with this text writes a statement. -/
def WritesStatement (text : List Char) : Prop :=
  text ≠ [] ∧ text.head? ≠ some '#' ∧ text ≠ "end".toList ∧ text ≠ "else".toList

instance (text : List Char) : Decidable (WritesStatement text) :=
  inferInstanceAs (Decidable (_ ∧ _))

theorem mem_statementLines_iff {source : List Char} {n : Nat} :
    n ∈ (statementLines (significantLines source)).map Line.number ↔
      ∃ text, 0 < n ∧ (Text.lines source)[n - 1]? = some text ∧
        WritesStatement (Text.trimChars text) := by
  have hwrites : ∀ l : Line, ((!l.text.isEmpty && l.text.head? != some '#') = true ∧
      (!decide l.Closes) = true) ↔ WritesStatement l.text := by
    intro l
    have hcloses : (!decide l.Closes) = true ↔
        l.text ≠ "end".toList ∧ l.text ≠ "else".toList := by
      rw [Bool.not_eq_true', decide_eq_false_iff_not, Line.Closes, not_or]
    rw [hcloses]
    simp [WritesStatement, and_assoc]
  constructor
  · intro h
    obtain ⟨l, hl, rfl⟩ := List.mem_map.mp h
    obtain ⟨hl, hcloses⟩ := List.mem_filter.mp hl
    obtain ⟨hl, hcounts⟩ := List.mem_filter.mp hl
    obtain ⟨i, hi, rfl⟩ := List.mem_mapIdx.mp hl
    exact ⟨(Text.lines source)[i], Nat.succ_pos i, List.getElem?_eq_getElem hi,
      (hwrites _).mp ⟨hcounts, hcloses⟩⟩
  · rintro ⟨text, hn, htext, hw⟩
    obtain ⟨hi, rfl⟩ := List.getElem?_eq_some_iff.mp htext
    let l : Line := ⟨n - 1 + 1, Text.trimChars (Text.lines source)[n - 1]⟩
    obtain ⟨hcounts, hcloses⟩ := (hwrites l).mpr hw
    have hl : l ∈ significantLines source :=
      List.mem_filter.mpr ⟨List.mem_mapIdx.mpr ⟨n - 1, hi, rfl⟩, hcounts⟩
    exact List.mem_map.mpr ⟨l, List.mem_filter.mpr ⟨hl, hcloses⟩, Nat.sub_add_cancel hn⟩

/-- A program that is read is laid out by its lines: one statement for each that is neither blank, a
comment, `end` nor `else`, in their order, and those are the lines where execution can stop. -/
theorem reads_laid_out {file source : String} {p : Program}
    (h : Program.ofText file source = .ok p) :
    p.executableLines.Pairwise (· < ·) ∧
    (∀ n, n ∈ p.executableLines ↔ ∃ text, 0 < n ∧
      (Text.lines source.toList)[n - 1]? = some text ∧ WritesStatement (Text.trimChars text)) ∧
    (Stmt.statements p.body).map Stmt.line = p.executableLines ∧
    LaidOut (significantLines source.toList) p.body := by
  obtain ⟨-, hbody⟩ := ofText_eq_ok_iff.mp h
  have hsorted := pairwise_significantLines source.toList
  rw [executableLines_eq hbody hsorted]
  refine ⟨List.pairwise_map.mpr (hsorted.filter _), fun n => mem_statementLines_iff,
    hbody.statements_lines, hbody⟩

/-- What stands behind `else` has a line of its own; `else` has none, nor has the comment in a block. -/
theorem reads_laid_out_nested :
    let source := "while n\n  # down\n  if n > 1\n    print 1\n  else\n    print n\n  end\nend"
    ∃ p, Program.ofText "/srv/f.demo" source = .ok p ∧ p.executableLines.Pairwise (· < ·) ∧
      6 ∈ p.executableLines ∧ 2 ∉ p.executableLines ∧ 5 ∉ p.executableLines ∧
      (Stmt.statements p.body).map Stmt.line = p.executableLines := by
  intro source
  have hsyntax : (Program.ofText "/srv/f.demo" source).toOption.isSome = true := by decide +kernel
  have htexts : Text.lines source.toList = ["while n".toList, "  # down".toList,
      "  if n > 1".toList, "    print 1".toList, "  else".toList, "    print n".toList,
      "  end".toList, "end".toList] := by decide +kernel
  obtain ⟨p, hp⟩ := exists_ok hsyntax
  obtain ⟨hsorted, hlines, hstatements, -⟩ := reads_laid_out hp
  rw [htexts] at hlines
  refine ⟨p, hp, hsorted, (hlines 6).mpr ⟨_, by decide, rfl, by decide⟩, ?_, ?_, hstatements⟩
  · rw [hlines 2]
    rintro ⟨text, -, htext, hwrites⟩
    cases htext
    contradiction
  · rw [hlines 5]
    rintro ⟨text, -, htext, hwrites⟩
    cases htext
    contradiction

end DebugAdapter.Script
