import DebugAdapter.Proofs.Script.Grammar.Soundness

/-!
# Every phrase is read

The readers accept exactly the phrases (`ofTokens_eq_ok_iff`). A phrase is read wherever no longer one
of its level begins (`Stops`). The readers are given fuel; each leaves of it eight for every token that
it leaves, so it lasts.
-/

namespace DebugAdapter.Script

/-! ## Lists -/

section
variable {α β : Type} {item : Reader α} {close : Punct} {write : β → List Token} {value : β → α}

/-- Items that are read wherever a comma or the closing mark follows them are read as a list. -/
theorem readItems_separated {bound fuel : Nat} {rest : List Token} {bs : List β}
    (hclose : close ≠ .comma)
    (hitem : ∀ b ∈ bs, ∀ p behind, p = .comma ∨ p = close →
      (write b ++ .punct p :: behind).length ≤ bound →
      item (write b ++ .punct p :: behind) = .ok (value b, .punct p :: behind))
    (hne : bs ≠ []) (hfuel : bs.length ≤ fuel)
    (hbound : (separated (bs.map write) ++ .punct close :: rest).length ≤ bound) :
    readItems item close fuel (separated (bs.map write) ++ .punct close :: rest) =
      .ok (bs.map value, rest) := by
  induction bs generalizing fuel with
  | nil => contradiction
  | cons b bs ih =>
    obtain ⟨fuel, rfl⟩ := Nat.exists_eq_succ_of_ne_zero (Nat.ne_zero_of_lt hfuel)
    cases bs with
    | nil =>
      rw [List.map_singleton, separated_singleton] at hbound ⊢
      rw [readItems, hitem b List.mem_cons_self close rest (Or.inr rfl) hbound]
      change (if close = close then _ else _) = _
      rw [if_pos rfl]
      rfl
    | cons c bs =>
      have hsplit : separated ((b :: c :: bs).map write) ++ .punct close :: rest =
          write b ++ .punct .comma :: (separated ((c :: bs).map write) ++ .punct close :: rest) := by
        rw [List.map_cons, separated_cons _ (by simp)]
        simp
      have hrest : readItems item close fuel
          (separated ((c :: bs).map write) ++ .punct close :: rest) =
          .ok ((c :: bs).map value, rest) := by
        refine ih (fun b hb => hitem b (List.mem_cons_of_mem _ hb)) (List.cons_ne_nil _ _)
          (Nat.le_of_succ_le_succ hfuel) ?_
        rw [hsplit] at hbound
        simp only [List.length_append, List.length_cons] at hbound ⊢
        omega
      rw [hsplit] at hbound ⊢
      rw [readItems, hitem b List.mem_cons_self .comma _ (Or.inl rfl) hbound]
      change (if Punct.comma = close then _ else if Punct.comma = .comma then _ else _) = _
      rw [if_neg hclose.symm, if_pos rfl, hrest]
      rfl

theorem readList_separated {bound fuel : Nat} {rest : List Token} {bs : List β}
    (hclose : close ≠ .comma)
    (hitem : ∀ b ∈ bs, ∀ p behind, p = .comma ∨ p = close →
      (write b ++ .punct p :: behind).length ≤ bound →
      item (write b ++ .punct p :: behind) = .ok (value b, .punct p :: behind))
    (hopen : ∀ b ∈ bs, ∃ t us, write b = t :: us ∧ t ≠ .punct close)
    (hbound : (separated (bs.map write) ++ .punct close :: rest).length ≤ bound)
    (hfuel : bound ≤ fuel) :
    readList item close fuel (separated (bs.map write) ++ .punct close :: rest) =
      .ok (bs.map value, rest) := by
  cases bs with
  | nil => exact if_pos rfl
  | cons b bs =>
    obtain ⟨t, us, hwrite, ht⟩ := hopen b List.mem_cons_self
    have hitems : (b :: bs).length ≤ fuel := by
      have hlength := length_le_separated ((b :: bs).map write)
      rw [List.length_map] at hlength
      rw [List.length_append, List.length_cons] at hbound
      omega
    rw [readList_eq, readItems_separated hclose hitem (List.cons_ne_nil b bs) hitems hbound]
    rw [List.map_cons, head?_separated (by simp [hwrite]), hwrite]
    simpa using ht

end

/-! ## Expressions -/

/-- The tokens that a primary begins with. -/
def opens : Token → Bool
  | .punct p => p = .openParen ∨ p = .openBracket ∨ p = .openBrace
  | _ => true

/-- The level at which a phrase goes on if the token follows it. A parenthesis goes on `table`. -/
def joins? : Token → Option Level
  | .punct .openParen => some .primary
  | .punct .dot | .punct .openBracket => some .access
  | .punct .star | .punct .slash => some .product
  | .punct .plus | .punct .minus => some .sum
  | .punct .eq | .punct .ne | .punct .lt | .punct .gt | .punct .le | .punct .ge => some .comparison
  | _ => none

/-- No phrase of the level goes on with these tokens. -/
def Stops (level : Level) (rest : List Token) : Prop :=
  ∀ t ∈ rest.head?, ∀ l, joins? t = some l → level.rank < l.rank

/-- With enough fuel the tokens are read wherever a phrase of the level stops behind them. -/
def Accepts (read : Nat → Reader Expr) (level : Level) (least : Nat) (ts : List Token) (e : Expr) :
    Prop :=
  ∀ {fuel rest}, Stops level rest → 8 * (ts ++ rest).length + least ≤ fuel →
    read fuel (ts ++ rest) = .ok (e, rest)

/-- With enough fuel the tokens are read, and then what carries them on. -/
def HandsOver (read : Nat → Reader Expr) (more : Nat → Expr → Reader Expr) (level : Level)
    (least : Nat) (ts : List Token) (e : Expr) : Prop :=
  ∀ {fuel rest}, Stops level rest → 8 * (ts ++ rest).length + least ≤ fuel →
    ∃ left, 8 * rest.length < left ∧ read fuel (ts ++ rest) = more left e rest

/-- How the phrases of each level are read. -/
def IsRead : Level → List Token → Expr → Prop
  | .primary => Accepts readPrimary .primary 1
  | .access => HandsOver readUnary readAccesses .primary 2
  | .unary => Accepts readUnary .unary 2
  | .product => HandsOver readProduct readFactors .unary 3
  | .sum => HandsOver readSum readTerms .product 4
  | .comparison => Accepts readExpr .comparison 5

section
variable {read operand : Nat → Reader Expr} {more : Nat → Expr → Reader Expr} {lower level : Level}
  {least fuel : Nat} {ts us rest : List Token} {e left right : Expr} {op : BinOp}

theorem Stops.mono (h : Stops level rest) (hlevel : lower.rank ≤ level.rank) : Stops lower rest :=
  fun t ht l hl => Nat.lt_of_le_of_lt hlevel (h t ht l hl)

theorem joins?_punct (op : BinOp) : joins? (.punct op.punct) = some op.level := by cases op <;> rfl

theorem stops_cons {t : Token} (ht : joins? t = some level) (h : lower.rank < level.rank) :
    Stops lower (t :: rest) := by
  rintro t ⟨⟩ l hl
  obtain rfl := Option.some.inj (ht.symm.trans hl)
  exact h

theorem Stops.head?_ne {t : Token} (h : Stops level rest) (ht : joins? t = some lower)
    (hlevel : lower.rank ≤ level.rank) : rest.head? ≠ some t :=
  fun hrest => Nat.not_lt_of_le hlevel (h t hrest lower ht)

theorem Stops.operator?_eq_none {operator? : Token → Option BinOp} {t : Token}
    (hoperator : ∀ {op}, operator? t = some op ↔ t = .punct op.punct ∧ op.level = level)
    (h : Stops level (t :: rest)) : operator? t = none := by
  cases ht : operator? t with
  | none => rfl
  | some op =>
    obtain ⟨rfl, rfl⟩ := hoperator.mp ht
    exact absurd rfl (h.head?_ne (joins?_punct op) (Nat.le_refl _))

theorem readOperator_eq {operator? : Token → Option BinOp} {operand : Reader Expr}
    {more : Expr → Reader Expr}
    (hoperator : ∀ {t op}, operator? t = some op ↔ t = .punct op.punct ∧ op.level = level)
    (h : Stops level rest) : readOperator operator? operand more e rest = .ok (e, rest) := by
  cases rest with
  | nil => rfl
  | cons t rest => rw [readOperator, h.operator?_eq_none hoperator]

theorem exists_cons_of_phrase (h : Phrase level ts e) :
    ∃ t us, ts = t :: us ∧ (opens t = true ∨ Level.access.rank < level.rank ∧ t = .punct .minus) := by
  induction h with
  | null | true | false | int | decimal | str | var | group | list | record | table =>
    exact ⟨_, _, rfl, Or.inl rfl⟩
  | access _ ih =>
    obtain ⟨t, us, rfl, ht | ⟨hrank, _⟩⟩ := ih
    · exact ⟨t, us, rfl, Or.inl ht⟩
    · contradiction
  | field _ name ih =>
    obtain ⟨t, us, rfl, ht⟩ := ih
    exact ⟨t, _, rfl, ht⟩
  | index _ _ ih =>
    obtain ⟨t, us, rfl, ht⟩ := ih
    exact ⟨t, _, rfl, ht⟩
  | neg => exact ⟨_, _, rfl, Or.inr ⟨by decide, rfl⟩⟩
  | unary _ ih | product _ ih | sum _ ih | comparison _ ih =>
    obtain ⟨t, us, rfl, ht⟩ := ih
    exact ⟨t, us, rfl, ht.imp_right fun h => ⟨by decide, h.2⟩⟩
  | times _ _ _ ih | plus _ _ _ ih =>
    obtain ⟨t, us, rfl, ht⟩ := ih
    exact ⟨t, _, rfl, ht⟩
  | compare _ _ _ ih =>
    obtain ⟨t, us, rfl, ht⟩ := ih
    exact ⟨t, _, rfl, ht.imp_right fun h => ⟨by decide, h.2⟩⟩

theorem Accepts.mono {most : Nat} (h : Accepts read level least ts e) (hleast : least ≤ most) :
    Accepts read level most ts e :=
  fun hrest hfuel => h hrest (by omega)

theorem HandsOver.accepts (h : HandsOver read more lower least ts e)
    (hstop : ∀ {fuel e rest}, Stops level rest → more (fuel + 1) e rest = .ok (e, rest))
    (hlevel : lower.rank ≤ level.rank) : Accepts read level least ts e := by
  intro fuel rest hrest hfuel
  obtain ⟨left, hleft, hread⟩ := h (hrest.mono hlevel) hfuel
  obtain ⟨left, rfl⟩ := Nat.exists_eq_succ_of_ne_zero (Nat.ne_zero_of_lt hleft)
  rw [hread, hstop hrest]

theorem Accepts.handsOver (h : Accepts operand lower least ts e)
    (hread : ∀ fuel rest,
      read (fuel + 1) (ts ++ rest) = readFrom (operand fuel) (more fuel) (ts ++ rest))
    (hleast : 0 < least) : HandsOver read more lower (least + 1) ts e := by
  intro fuel rest hrest hfuel
  obtain ⟨fuel, rfl⟩ := Nat.exists_eq_succ_of_ne_zero (Nat.ne_zero_of_lt hfuel)
  refine ⟨fuel, ?_, ?_⟩
  · rw [List.length_append] at hfuel
    omega
  · rw [hread, readFrom_eq (h hrest (by omega))]

theorem HandsOver.operator (hleft : HandsOver read more lower least ts left)
    (hright : Accepts operand lower 8 us right) {operator? : Token → Option BinOp}
    (hmore : ∀ fuel, more (fuel + 1) = readOperator operator? (operand fuel) (more fuel))
    (hop : operator? (.punct op.punct) = some op) (hlevel : lower.rank < op.level.rank) :
    HandsOver read more lower least (ts ++ .punct op.punct :: us) (.binary op left right) := by
  intro fuel rest hrest hfuel
  rw [List.append_assoc, List.cons_append] at hfuel ⊢
  obtain ⟨remaining, hremaining, hread⟩ := hleft (stops_cons (joins?_punct op) hlevel) hfuel
  obtain ⟨remaining, rfl⟩ := Nat.exists_eq_succ_of_ne_zero (Nat.ne_zero_of_lt hremaining)
  rw [List.length_cons] at hremaining
  refine ⟨remaining, ?_, ?_⟩
  · rw [List.length_append] at hremaining
    omega
  · rw [hread, hmore, readOperator, hop]
    change (operand remaining (us ++ rest) >>= _) = _
    rw [hright hrest (by omega)]
    rfl

/-! The primaries. A list is read with fuel for every one of its items. -/

theorem stops_punct {p : Punct} (h : joins? (.punct p) = none) (level : Level) :
    Stops level (.punct p :: rest) := by
  rintro t ⟨⟩ l hl
  rw [h] at hl
  contradiction

theorem exists_cons_ne_close {p : Punct} (h : Phrase level ts e) (hp : opens (.punct p) = false)
    (hminus : p ≠ .minus) : ∃ t us, ts = t :: us ∧ t ≠ .punct p := by
  obtain ⟨t, us, rfl, ht⟩ := exists_cons_of_phrase h
  refine ⟨t, us, rfl, ?_⟩
  rintro rfl
  rcases ht with ht | ⟨_, ht⟩
  · rw [hp] at ht
    contradiction
  · exact hminus (Token.punct.inj ht)

theorem readList_parts {parts : List (List Token × Expr)} {close : Punct}
    (hparts : ∀ p ∈ parts, Phrase .comparison p.1 p.2 ∧ IsRead .comparison p.1 p.2)
    (hclose : close = .closeParen ∨ close = .closeBracket)
    (hfuel : 8 * (separated (parts.map (·.1)) ++ .punct close :: rest).length + 5 ≤ fuel) :
    readList (readExpr fuel) close fuel (separated (parts.map (·.1)) ++ .punct close :: rest) =
      .ok (parts.map (·.2), rest) := by
  have hjoins : joins? (.punct close) = none := by rcases hclose with rfl | rfl <;> rfl
  refine readList_separated ?_ ?_ ?_ (Nat.le_refl _) (by omega)
  · rcases hclose with rfl | rfl <;> decide
  · intro p hp q behind hq hlength
    refine (hparts p hp).2 (stops_punct ?_ _) (by omega)
    rcases hq with rfl | rfl
    · rfl
    · exact hjoins
  · intro p hp
    refine exists_cons_ne_close (hparts p hp).1 ?_ ?_
    · rcases hclose with rfl | rfl <;> rfl
    · rcases hclose with rfl | rfl <;> decide

theorem isRead_table {parts : List (List Token × Expr)}
    (hparts : ∀ p ∈ parts, Phrase .comparison p.1 p.2 ∧ IsRead .comparison p.1 p.2)
    (htable : tableOf (parts.map (·.2)) = .ok e) :
    IsRead .primary
      (.ident "table" :: enclosed .openParen .closeParen (separated (parts.map (·.1)))) e := by
  intro fuel rest _ hfuel
  obtain ⟨fuel, rfl⟩ := Nat.exists_eq_succ_of_ne_zero (Nat.ne_zero_of_lt hfuel)
  rw [List.cons_append, enclosed_append] at hfuel ⊢
  rw [List.length_cons, List.length_cons] at hfuel
  change (readList (readExpr fuel) .closeParen fuel _ >>= _) = _
  rw [readList_parts hparts (Or.inl rfl) (by omega)]
  change (tableOf (parts.map (·.2)) >>= _) = _
  rw [htable]
  rfl

theorem isRead_list {parts : List (List Token × Expr)}
    (hparts : ∀ p ∈ parts, Phrase .comparison p.1 p.2 ∧ IsRead .comparison p.1 p.2) :
    IsRead .primary (enclosed .openBracket .closeBracket (separated (parts.map (·.1))))
      (.list (parts.map (·.2))) := by
  intro fuel rest _ hfuel
  obtain ⟨fuel, rfl⟩ := Nat.exists_eq_succ_of_ne_zero (Nat.ne_zero_of_lt hfuel)
  rw [enclosed_append, List.length_cons] at hfuel
  rw [enclosed_append]
  change (readList (readExpr fuel) .closeBracket fuel _ >>= _) = _
  rw [readList_parts hparts (Or.inr rfl) (by omega)]
  rfl

theorem readField_eq (key : Key) (h : IsRead .comparison ts e) (hrest : Stops .comparison rest)
    (hfuel : 8 * (.punct .colon :: (ts ++ rest)).length ≤ fuel) :
    readField (fuel + 1) (key.token :: .punct .colon :: (ts ++ rest)) = .ok ((key.name, e), rest) := by
  rw [List.length_cons] at hfuel
  have hread : readExpr fuel (ts ++ rest) = .ok (e, rest) := h hrest (by omega)
  cases key with
  | ident name | str name =>
    change (readExpr fuel (ts ++ rest) >>= _) = _
    rw [hread]
    rfl

theorem isRead_record {fields : List (Key × List Token × Expr)}
    (h : ∀ f ∈ fields, IsRead .comparison f.2.1 f.2.2) :
    IsRead .primary
      (enclosed .openBrace .closeBrace
        (separated (fields.map fun f => f.1.token :: .punct .colon :: f.2.1)))
      (.record (fields.map fun f => (f.1.name, f.2.2))) := by
  intro fuel rest _ hfuel
  obtain ⟨fuel, rfl⟩ := Nat.exists_eq_succ_of_ne_zero (Nat.ne_zero_of_lt hfuel)
  rw [enclosed_append, List.length_cons] at hfuel
  rw [enclosed_append]
  obtain ⟨fuel, rfl⟩ := Nat.exists_eq_succ_of_ne_zero (show fuel ≠ 0 by omega)
  have hlist : readList (readField (fuel + 1)) .closeBrace (fuel + 1)
      (separated (fields.map fun f => f.1.token :: .punct .colon :: f.2.1) ++
        .punct .closeBrace :: rest) = .ok (fields.map fun f => (f.1.name, f.2.2), rest) := by
    refine readList_separated (by decide) ?_ ?_ (Nat.le_refl _) (by omega)
    · intro f hf p behind hp hlength
      refine readField_eq f.1 (h f hf) (stops_punct ?_ _) ?_
      · rcases hp with rfl | rfl <;> rfl
      · simp only [List.cons_append, List.length_cons] at hlength ⊢
        omega
    · intro f _
      obtain ⟨key, value⟩ := f
      refine ⟨_, _, rfl, ?_⟩
      intro h
      cases key <;> contradiction
  change (readList (readField (fuel + 1)) .closeBrace (fuel + 1) _ >>= _) = _
  rw [hlist]
  rfl

theorem isRead_group (h : IsRead .comparison ts e) :
    IsRead .primary (enclosed .openParen .closeParen ts) e := by
  intro fuel rest _ hfuel
  obtain ⟨fuel, rfl⟩ := Nat.exists_eq_succ_of_ne_zero (Nat.ne_zero_of_lt hfuel)
  rw [enclosed_append, List.length_cons] at hfuel
  rw [enclosed_append]
  change (readExpr fuel (ts ++ .punct .closeParen :: rest) >>= _) = _
  rw [h (stops_punct rfl _) (by omega)]
  rfl

theorem isRead_word (name : String) : IsRead .primary [.ident name] (word name) := by
  intro fuel rest hrest hfuel
  obtain ⟨fuel, rfl⟩ := Nat.exists_eq_succ_of_ne_zero (Nat.ne_zero_of_lt hfuel)
  refine readPrimary_word fun _ hparen => ?_
  exact absurd (hrest _ hparen .primary rfl) (Nat.lt_irrefl _)

/-! The other levels. -/

theorem isRead_access (hphrase : Phrase .primary ts e) (h : IsRead .primary ts e) :
    IsRead .access ts e := by
  refine Accepts.handsOver h (fun fuel rest => readUnary_eq ?_) Nat.one_pos
  obtain ⟨t, us, rfl, ht | ⟨hrank, _⟩⟩ := exists_cons_of_phrase hphrase
  · rintro ⟨⟩
    contradiction
  · contradiction

theorem isRead_field (h : IsRead .access ts e) (name : String) :
    IsRead .access (ts ++ [.punct .dot, .ident name]) (.field e name) := by
  intro fuel rest hrest hfuel
  rw [List.append_assoc, List.cons_append] at hfuel ⊢
  obtain ⟨left, hleft, hread⟩ := h (stops_cons rfl (by decide)) hfuel
  obtain ⟨left, rfl⟩ := Nat.exists_eq_succ_of_ne_zero (Nat.ne_zero_of_lt hleft)
  refine ⟨left, ?_, hread⟩
  simp only [List.cons_append, List.nil_append, List.length_cons] at hleft
  omega

theorem isRead_index {position : Expr} (h : IsRead .access ts e)
    (hposition : IsRead .comparison us position) :
    IsRead .access (ts ++ enclosed .openBracket .closeBracket us) (.index e position) := by
  intro fuel rest hrest hfuel
  simp only [enclosed, List.cons_append, List.append_assoc, List.nil_append] at hfuel ⊢
  obtain ⟨left, hleft, hread⟩ := h (stops_cons rfl (by decide)) hfuel
  obtain ⟨left, rfl⟩ := Nat.exists_eq_succ_of_ne_zero (Nat.ne_zero_of_lt hleft)
  rw [List.length_cons] at hleft
  refine ⟨left, ?_, ?_⟩
  · rw [List.length_append, List.length_cons] at hleft
    omega
  · rw [hread]
    change (readExpr left (us ++ .punct .closeBracket :: rest) >>= _) = _
    rw [hposition (stops_punct rfl _) (by omega)]
    rfl

theorem isRead_unary (h : IsRead .access ts e) : IsRead .unary ts e := by
  refine HandsOver.accepts h (fun hrest => readAccesses_eq _ ?_ ?_) (by decide)
  · exact hrest.head?_ne rfl (show Level.access.rank ≤ Level.unary.rank by decide)
  · exact hrest.head?_ne rfl (show Level.access.rank ≤ Level.unary.rank by decide)

theorem isRead_neg (h : IsRead .unary ts e) : IsRead .unary (.punct .minus :: ts) (.neg e) := by
  intro fuel rest hrest hfuel
  obtain ⟨fuel, rfl⟩ := Nat.exists_eq_succ_of_ne_zero (Nat.ne_zero_of_lt hfuel)
  rw [List.cons_append, List.length_cons] at hfuel
  change (readUnary fuel (ts ++ rest) >>= _) = _
  rw [h hrest (by omega)]
  rfl

theorem accepts_product (h : IsRead .product ts e) : Accepts readProduct .product 3 ts e := by
  refine HandsOver.accepts h (fun {fuel e rest} hrest => ?_) (by decide)
  rw [readFactors_eq, readOperator_eq multiplicative?_eq_some_iff hrest]

theorem accepts_sum (h : IsRead .sum ts e) : Accepts readSum .sum 4 ts e := by
  refine HandsOver.accepts h (fun {fuel e rest} hrest => ?_) (by decide)
  rw [readTerms_eq, readOperator_eq additive?_eq_some_iff hrest]

theorem isRead_comparison (h : IsRead .sum ts e) : IsRead .comparison ts e := by
  intro fuel rest hrest hfuel
  obtain ⟨fuel, rfl⟩ := Nat.exists_eq_succ_of_ne_zero (Nat.ne_zero_of_lt hfuel)
  have hsum : readSum fuel (ts ++ rest) = .ok (e, rest) :=
    accepts_sum h (hrest.mono (by decide)) (by omega)
  rw [readExpr_eq, readFrom_eq hsum, readOperator_eq comparison?_eq_some_iff hrest]

theorem isRead_compare (hop : op.level = .comparison) (hleft : IsRead .sum ts left)
    (hright : IsRead .sum us right) :
    IsRead .comparison (ts ++ .punct op.punct :: us) (.binary op left right) := by
  intro fuel rest hrest hfuel
  obtain ⟨fuel, rfl⟩ := Nat.exists_eq_succ_of_ne_zero (Nat.ne_zero_of_lt hfuel)
  rw [List.append_assoc, List.cons_append] at hfuel ⊢
  have hstop : Stops .sum (.punct op.punct :: (us ++ rest)) :=
    stops_cons (joins?_punct op) (by rw [hop]; decide)
  rw [readExpr_eq, readFrom_eq (accepts_sum hleft hstop (by omega)), readOperator,
    comparison?_eq_some_iff.mpr ⟨rfl, hop⟩]
  change (readSum fuel (us ++ rest) >>= _) = _
  rw [List.length_append, List.length_cons] at hfuel
  rw [accepts_sum hright (hrest.mono (by decide)) (by omega)]
  rfl

theorem isRead_of_phrase (h : Phrase level ts e) : IsRead level ts e := by
  induction h with
  | null => exact isRead_word "null"
  | true => exact isRead_word "true"
  | false => exact isRead_word "false"
  | int | decimal | str =>
    intro fuel rest _ hfuel
    obtain ⟨fuel, rfl⟩ := Nat.exists_eq_succ_of_ne_zero (Nat.ne_zero_of_lt hfuel)
    rfl
  | @var name h => exact word_eq_var h ▸ isRead_word name
  | group _ ih => exact isRead_group ih
  | list h ih => exact isRead_list fun p hp => ⟨h p hp, ih p hp⟩
  | record _ ih => exact isRead_record ih
  | table h hparts hheader hrows ih =>
    refine isRead_table (fun p hp => ⟨h p hp, ih p hp⟩) ?_
    exact tableOf_eq_ok_iff.mpr ⟨_, _, _, hparts, hheader, hrows, rfl⟩
  | access h ih => exact isRead_access h ih
  | field _ name ih => exact isRead_field ih name
  | index _ _ ih ihposition => exact isRead_index ih ihposition
  | unary _ ih => exact isRead_unary ih
  | neg _ ih => exact isRead_neg ih
  | product _ ih => exact Accepts.handsOver ih (fun _ _ => rfl) (by decide)
  | times hop _ _ ihleft ihright =>
    exact HandsOver.operator ihleft (Accepts.mono ihright (by decide)) readFactors_eq
      (multiplicative?_eq_some_iff.mpr ⟨rfl, hop⟩) (by rw [hop]; decide)
  | sum _ ih => exact Accepts.handsOver (accepts_product ih) (fun _ _ => rfl) (by decide)
  | plus hop _ _ ihleft ihright =>
    exact HandsOver.operator ihleft (Accepts.mono (accepts_product ihright) (by decide)) readTerms_eq
      (additive?_eq_some_iff.mpr ⟨rfl, hop⟩) (by rw [hop]; decide)
  | comparison _ ih => exact isRead_comparison ih
  | compare hop _ _ ihleft ihright => exact isRead_compare hop ihleft ihright

end

theorem ofTokens_eq_ok_iff {ts : List Token} {e : Expr} :
    Expr.ofTokens ts = .ok e ↔ Phrase .comparison ts e := by
  constructor
  · intro h
    obtain ⟨⟨e, rest⟩, hread, hrest⟩ := ok_of_bind h
    obtain ⟨own, rfl, hown⟩ := (sound _).expr hread
    cases rest with
    | nil =>
      cases hrest
      rwa [List.append_nil]
    | cons => contradiction
  · intro h
    have hread : readExpr (enoughFuel ts) (ts ++ []) = .ok (e, []) := by
      refine isRead_of_phrase h (by rintro t ⟨⟩) ?_
      rw [List.append_nil, enoughFuel]
      omega
    rw [List.append_nil] at hread
    rw [Expr.ofTokens, readAll, hread]
    rfl

example :
    Expr.ofTokens [.ident "a", .punct .minus, .ident "b", .punct .minus, .punct .minus, .ident "c",
      .punct .dot, .ident "d", .punct .star, .int 2] =
    .ok (.binary .sub (.binary .sub (.var "a") (.var "b"))
      (.binary .mul (.neg (.field (.var "c") "d")) (.int 2))) := by
  rfl

theorem eq_of_phrase {ts : List Token} {e e' : Expr} (h : Phrase .comparison ts e)
    (h' : Phrase .comparison ts e') : e = e' :=
  Except.ok.inj ((ofTokens_eq_ok_iff.mpr h).symm.trans (ofTokens_eq_ok_iff.mpr h'))

end DebugAdapter.Script
