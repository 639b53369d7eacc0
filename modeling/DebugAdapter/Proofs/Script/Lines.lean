import DebugAdapter.Script.Program.Parser

/-!
# The lines of a program

`Stmt.Within` says which statements a block contains, at any depth. The executable lines of a program
are those of its statements (`mem_executableLines_iff`), and a program that has been read has them
where its text has lines (`readBlock_lines`), which are counted from one.
-/

namespace DebugAdapter.Script

theorem mem_eraseReps {α : Type} [BEq α] [LawfulBEq α] {a : α} {as : List α} :
    a ∈ as.eraseReps ↔ a ∈ as := by
  have hloop : ∀ (b : α) (bs acc : List α), a ∈ List.eraseRepsBy.loop (· == ·) b bs acc ↔
      a = b ∨ a ∈ bs ∨ a ∈ acc := by
    intro b bs
    induction bs generalizing b with
    | nil =>
      intro acc
      simp [List.eraseRepsBy.loop, or_comm]
    | cons c bs ih =>
      intro acc
      rw [List.eraseRepsBy.loop]
      cases hbc : b == c with
      | true =>
        obtain rfl := eq_of_beq hbc
        simp [ih, or_assoc]
      | false => simp [ih, or_left_comm, or_assoc]
  cases as with
  | nil => exact Iff.rfl
  | cons b bs => simp [List.eraseReps, List.eraseRepsBy, hloop]

/-! ## The statements of a block -/

namespace Stmt

/-- The statements of the blocks in a statement. -/
def inner : Stmt → List Stmt
  | func _ _ _ body | loop _ _ body => body
  | branch _ _ yes no => yes ++ no
  | assign .. | assignCall .. | call .. | print .. | ret .. | throw .. | halt .. | sleep .. => []

/-- A statement of a block, or inside one of its statements. -/
inductive Within (block : List Stmt) : Stmt → Prop where
  | here {s : Stmt} (h : s ∈ block) : Within block s
  | inner {s t : Stmt} (h : Within block s) (ht : t ∈ s.inner) : Within block t

variable {block other : List Stmt} {s t : Stmt} {n : Nat}

theorem Within.trans (h : Within block s) (hblock : ∀ t ∈ block, Within other t) :
    Within other s := by
  induction h with
  | here h => exact hblock _ h
  | inner _ ht ih => exact .inner ih ht

theorem Within.mono (h : Within block s) (hsub : block ⊆ other) : Within other s :=
  h.trans fun _ ht => .here (hsub ht)

theorem not_within_nil : ¬Within [] s := by
  intro h
  induction h with
  | here h => contradiction
  | inner _ _ ih => exact ih

theorem within_cons_iff :
    Within (t :: block) s ↔ s = t ∨ Within t.inner s ∨ Within block s := by
  constructor
  · intro h
    induction h with
    | here h => exact (List.mem_cons.mp h).imp id (Or.inr ∘ .here)
    | inner _ ht ih =>
      rcases ih with rfl | h | h
      · exact Or.inr (Or.inl (.here ht))
      · exact Or.inr (Or.inl (.inner h ht))
      · exact Or.inr (Or.inr (.inner h ht))
  · rintro (rfl | h | h)
    · exact .here (List.mem_cons_self ..)
    · exact h.trans fun u hu => .inner (.here (List.mem_cons_self ..)) hu
    · exact h.mono (List.subset_cons_self ..)

theorem lines_eq (s : Stmt) : s.lines = s.line :: blockLines s.inner := by
  cases s with
  | branch n test yes no =>
    have happend : ∀ xs ys, blockLines (xs ++ ys) = blockLines xs ++ blockLines ys := by
      intro xs ys
      induction xs with
      | nil => rfl
      | cons x xs ih => simp [blockLines, ih]
    simp [lines, line, inner, happend]
  | _ => rfl

theorem line_mem_lines (h : Within block s) : s.line ∈ blockLines block := by
  have hsub : ∀ {t : Stmt} {block : List Stmt}, t ∈ block → t.lines ⊆ blockLines block := by
    intro t block ht
    induction block with
    | nil => contradiction
    | cons u block ih =>
      rw [blockLines]
      rcases List.mem_cons.mp ht with rfl | ht
      · exact List.subset_append_left ..
      · exact List.Subset.trans (ih ht) (List.subset_append_right ..)
  have hlines : s.lines ⊆ blockLines block := by
    induction h with
    | here h => exact hsub h
    | @inner u _ _ ht ih =>
      refine List.Subset.trans (hsub ht) (List.Subset.trans ?_ ih)
      rw [lines_eq u]
      exact List.subset_cons_self ..
  exact hlines (lines_eq s ▸ List.mem_cons_self ..)

theorem sizeOf_inner_le (s : Stmt) : sizeOf s.inner ≤ sizeOf s := by
  have happend : ∀ xs ys : List Stmt, sizeOf (xs ++ ys) < sizeOf xs + sizeOf ys := by
    intro xs ys
    induction xs with
    | nil => simp
    | cons x xs ih =>
      simp only [List.cons_append, List.cons.sizeOf_spec]
      omega
  cases s with
  | branch n test yes no =>
    have := happend yes no
    simp only [inner, branch.sizeOf_spec]
    omega
  | func | loop =>
    simp only [inner, func.sizeOf_spec, loop.sizeOf_spec]
    omega
  | assign | assignCall | call | print | ret | throw | halt | sleep =>
    simp only [inner, List.nil.sizeOf_spec]
    simp
    omega

theorem exists_of_mem_blockLines {block : List Stmt} (h : n ∈ blockLines block) :
    ∃ s, Within block s ∧ s.line = n := by
  match block with
  | [] => contradiction
  | s :: rest =>
    rw [blockLines, lines_eq, List.cons_append, List.mem_cons, List.mem_append] at h
    rcases h with rfl | h | h
    · exact ⟨s, .here (List.mem_cons_self ..), rfl⟩
    · have := sizeOf_inner_le s
      obtain ⟨t, ht, hline⟩ := exists_of_mem_blockLines h
      exact ⟨t, within_cons_iff.mpr (Or.inr (Or.inl ht)), hline⟩
    · obtain ⟨t, ht, hline⟩ := exists_of_mem_blockLines h
      exact ⟨t, within_cons_iff.mpr (Or.inr (Or.inr ht)), hline⟩
termination_by sizeOf block

end Stmt

theorem mem_executableLines_iff {p : Program} {n : Nat} :
    n ∈ p.executableLines ↔ ∃ s, Stmt.Within p.body s ∧ s.line = n := by
  rw [Program.executableLines, mem_eraseReps, List.mem_mergeSort]
  constructor
  · exact Stmt.exists_of_mem_blockLines
  · rintro ⟨s, hs, rfl⟩
    exact Stmt.line_mem_lines hs

/-! ## The lines of a text -/

theorem exists_ok {ε α : Type} {r : Except ε α} (h : r.toOption.isSome = true) :
    ∃ a, r = .ok a := by
  cases r with
  | error e => contradiction
  | ok a => exact ⟨a, rfl⟩

theorem ok_of_bind {ε α β : Type} {r : Except ε α} {f : α → Except ε β} {b : β}
    (h : (r >>= f) = .ok b) : ∃ a, r = .ok a ∧ f a = .ok b := by
  cases r with
  | error e => contradiction
  | ok a => exact ⟨a, rfl, h⟩

/-- A statement without a block, on the given line. -/
def Stmt.StandsAt (s : Stmt) (n : Nat) : Prop := s.line = n ∧ s.inner = []

theorem standsAt_of_bind {α : Type} {r : Except SyntaxError α} {f : α → Stmt} {n : Nat} {s : Stmt}
    (hf : ∀ a, (f a).StandsAt n) (h : (do return f (← r)) = (.ok s : Except SyntaxError Stmt)) :
    s.StandsAt n := by
  obtain ⟨a, _, ha⟩ := ok_of_bind h
  obtain rfl := Except.ok.inj ha
  exact hf a

theorem readLet_standsAt {n : Nat} {rest : List Char} {s : Stmt} (h : readLet n rest = .ok s) :
    s.StandsAt n := by
  unfold readLet at h
  split at h
  · contradiction
  · simp only at h
    split at h
    · contradiction
    · split at h
      · exact standsAt_of_bind (fun _ => ⟨rfl, rfl⟩) h
      · exact standsAt_of_bind (fun _ => ⟨rfl, rfl⟩) h

theorem readThrow_standsAt {n : Nat} {rest : List Char} {s : Stmt}
    (h : readThrow n rest = .ok s) : s.StandsAt n := by
  simp only [readThrow] at h
  split at h
  · contradiction
  · split at h
    · cases h
      exact ⟨rfl, rfl⟩
    · exact standsAt_of_bind (fun _ => ⟨rfl, rfl⟩) h

theorem readSimple_standsAt {n : Nat} {word : String} {rest : List Char} {s : Stmt}
    (h : readSimple n word rest = .ok s) : s.StandsAt n := by
  unfold readSimple at h
  split at h
  · exact readLet_standsAt h
  · exact standsAt_of_bind (fun _ => ⟨rfl, rfl⟩) h
  · exact standsAt_of_bind (fun _ => ⟨rfl, rfl⟩) h
  · split at h
    · cases h
      exact ⟨rfl, rfl⟩
    · exact standsAt_of_bind (fun _ => ⟨rfl, rfl⟩) h
  · exact readThrow_standsAt h
  · cases h
    exact ⟨rfl, rfl⟩
  · exact standsAt_of_bind (fun _ => ⟨rfl, rfl⟩) h
  all_goals contradiction

/-- The statements of a block are where there are lines. -/
def OnLines (ls : List Line) (block : List Stmt) : Prop :=
  ∀ s, Stmt.Within block s → ∃ l ∈ ls, l.number = s.line

theorem onLines_nil (ls : List Line) : OnLines ls [] := fun _ hs => absurd hs Stmt.not_within_nil

theorem OnLines.mono {ls more : List Line} {block : List Stmt} (h : OnLines ls block)
    (hsub : ls ⊆ more) : OnLines more block := by
  intro s hs
  obtain ⟨l, hl, hline⟩ := h s hs
  exact ⟨l, hsub hl, hline⟩

theorem OnLines.append {ls : List Line} {block other : List Stmt} (h : OnLines ls block)
    (hother : OnLines ls other) : OnLines ls (block ++ other) := by
  intro s hs
  induction block with
  | nil => exact hother s hs
  | cons t block ih =>
    rcases Stmt.within_cons_iff.mp hs with rfl | hs | hs
    · exact h _ (.here (List.mem_cons_self ..))
    · exact h _ (Stmt.within_cons_iff.mpr (Or.inr (Or.inl hs)))
    · exact ih (fun u hu => h u (Stmt.within_cons_iff.mpr (Or.inr (Or.inr hu)))) hs

/-- A statement stands before others if its own blocks and the others are on lines behind it. -/
theorem OnLines.cons {l : Line} {ls : List Line} {s : Stmt} {block : List Stmt}
    (hline : s.line = l.number) (hinner : OnLines ls s.inner) (h : OnLines ls block) :
    OnLines (l :: ls) (s :: block) := by
  intro t ht
  rcases Stmt.within_cons_iff.mp ht with rfl | ht | ht
  · exact ⟨l, List.mem_cons_self .., hline.symm⟩
  · exact hinner.mono (List.subset_cons_self ..) t ht
  · exact h.mono (List.subset_cons_self ..) t ht

/-- A block that is read has its statements where there are lines, and leaves lines behind. -/
theorem readBlock_lines {fuel : Nat} {e : Enclosure} {opened : Nat} {ls rest : List Line}
    {block : List Stmt} {c : Closer} (h : readBlock e opened fuel ls = .ok (block, c, rest)) :
    rest ⊆ ls ∧ OnLines ls block := by
  -- The fuel bounds blocks inside blocks and what follows them alike.
  induction fuel generalizing e opened ls block c rest with
  | zero => contradiction
  | succ fuel ih =>
    cases ls with
    | nil =>
      rw [readBlock] at h
      split at h
      · cases h
        exact ⟨List.Subset.refl _, onLines_nil _⟩
      · contradiction
    | cons l ls =>
      -- Every kind of statement is followed by the rest of the block.
      have hbehind : ∀ {s : Stmt} {left : List Line}, left ⊆ ls → s.line = l.number →
          OnLines ls s.inner →
          (do
            let r ← readBlock e opened fuel left
            pure (s :: r.1, r.2.1, r.2.2)) = Except.ok (block, c, rest) →
          rest ⊆ l :: ls ∧ OnLines (l :: ls) block := by
        intro s left hleft hline hinner hs
        obtain ⟨⟨block', c', rest'⟩, hblock, hs⟩ := ok_of_bind hs
        obtain ⟨hrest, hlines⟩ := ih hblock
        cases hs
        exact ⟨List.Subset.trans (List.Subset.trans hrest hleft) (List.subset_cons_self ..),
          .cons hline hinner (hlines.mono hleft)⟩
      rw [readBlock] at h
      split at h
      · cases h
        exact ⟨List.subset_cons_self .., onLines_nil _⟩
      · simp only at h
        split at h
        · obtain ⟨signature, _, h⟩ := ok_of_bind h
          obtain ⟨⟨body, _, left⟩, hbody, h⟩ := ok_of_bind h
          obtain ⟨hleft, hlines⟩ := ih hbody
          exact hbehind (s := .func l.number signature.1 signature.2 body) hleft rfl hlines h
        · obtain ⟨test, _, h⟩ := ok_of_bind h
          obtain ⟨⟨yes, closer, left⟩, hyes, h⟩ := ok_of_bind h
          obtain ⟨hleft, hyeslines⟩ := ih hyes
          cases closer with
          | atElse =>
            obtain ⟨⟨no, _, left'⟩, hno, h⟩ := ok_of_bind h
            obtain ⟨hleft', hnolines⟩ := ih hno
            exact hbehind (s := .branch l.number test yes no) (List.Subset.trans hleft' hleft) rfl
              (hyeslines.append (hnolines.mono hleft)) h
          | atEnd =>
            exact hbehind (s := .branch l.number test yes []) hleft rfl
              (hyeslines.append (onLines_nil _)) h
        · obtain ⟨test, _, h⟩ := ok_of_bind h
          obtain ⟨⟨body, _, left⟩, hbody, h⟩ := ok_of_bind h
          obtain ⟨hleft, hlines⟩ := ih hbody
          exact hbehind (s := .loop l.number test body) hleft rfl hlines h
        · obtain ⟨s, hs, h⟩ := ok_of_bind h
          obtain ⟨hline, hinner⟩ := readSimple_standsAt hs
          exact hbehind (List.Subset.refl _) hline (hinner ▸ onLines_nil _) h

theorem number_pos {source : List Char} {l : Line} (h : l ∈ significantLines source) :
    0 < l.number := by
  obtain ⟨h, _⟩ := List.mem_filter.mp h
  obtain ⟨i, hi, rfl⟩ := List.mem_mapIdx.mp h
  exact Nat.succ_pos i

theorem line_pos_of_ofText {file source : String} {p : Program}
    (h : Program.ofText file source = .ok p) {s : Stmt} (hs : Stmt.Within p.body s) :
    0 < s.line := by
  obtain ⟨⟨body, _, _⟩, hbody, h⟩ := ok_of_bind h
  cases h
  obtain ⟨l, hl, hline⟩ := (readBlock_lines hbody).2 s hs
  exact hline ▸ number_pos hl

end DebugAdapter.Script
