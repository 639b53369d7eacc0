import DebugAdapter.Proofs.Script.Grammar

/-!
# What the readers accept is a phrase

By induction on the fuel, all readers together (`sound`). A reader that carries an expression on is
given the phrase that it carries on.
-/

namespace DebugAdapter.Script

/-! ## Lists -/

section
variable {α β : Type} {item : Reader α} {close : Punct} {write : β → List Token} {value : β → α}

theorem exists_of_readItems {P : β → Prop} {fuel : Nat} {ts rest : List Token} {xs : List α}
    (hitem : ∀ {ts x rest}, item ts = .ok (x, rest) → ∃ b, P b ∧ x = value b ∧ ts = write b ++ rest)
    (h : readItems item close fuel ts = .ok (xs, rest)) :
    ∃ bs : List β, bs ≠ [] ∧ (∀ b ∈ bs, P b) ∧ xs = bs.map value ∧
      ts = separated (bs.map write) ++ .punct close :: rest := by
  induction fuel generalizing ts rest xs with
  | zero => contradiction
  | succ fuel ih =>
    rw [readItems] at h
    obtain ⟨⟨x, behind⟩, hx, hbehind⟩ := ok_of_bind h
    obtain ⟨b, hb, rfl, rfl⟩ := hitem hx
    cases behind with
    | nil => contradiction
    | cons t behind =>
      cases t with
      | int | decimal | str | ident => contradiction
      | punct q =>
        simp only at hbehind
        by_cases hclose : q = close
        · rw [if_pos hclose] at hbehind
          cases hbehind
          refine ⟨[b], List.cons_ne_nil _ _, ?_, rfl, ?_⟩
          · simpa using hb
          · rw [List.map_singleton, separated_singleton, hclose]
        · rw [if_neg hclose] at hbehind
          by_cases hcomma : q = .comma
          · rw [if_pos hcomma] at hbehind
            obtain ⟨⟨xs, rest⟩, hxs, hrest⟩ := ok_of_bind hbehind
            cases hrest
            obtain ⟨bs, hne, hbs, rfl, rfl⟩ := ih hxs
            refine ⟨b :: bs, List.cons_ne_nil _ _, ?_, rfl, ?_⟩
            · exact List.forall_mem_cons.mpr ⟨hb, hbs⟩
            · rw [List.map_cons, separated_cons _ (by simpa using hne), hcomma]
              simp
          · rw [if_neg hcomma] at hbehind
            contradiction

theorem readList_eq {fuel : Nat} {ts : List Token} (h : ts.head? ≠ some (.punct close)) :
    readList item close fuel ts = readItems item close fuel ts := by
  unfold readList
  split
  · rename_i q rest
    rw [if_neg]
    rintro rfl
    exact h rfl
  · rfl

theorem exists_of_readList {P : β → Prop} {fuel : Nat} {ts rest : List Token} {xs : List α}
    (hitem : ∀ {ts x rest}, item ts = .ok (x, rest) → ∃ b, P b ∧ x = value b ∧ ts = write b ++ rest)
    (h : readList item close fuel ts = .ok (xs, rest)) :
    ∃ bs : List β, (∀ b ∈ bs, P b) ∧ xs = bs.map value ∧
      ts = separated (bs.map write) ++ .punct close :: rest := by
  by_cases hclose : ts.head? = some (.punct close)
  · obtain ⟨ts, rfl⟩ := List.head?_eq_some_iff.mp hclose
    rw [readList, if_pos rfl] at h
    cases h
    exact ⟨[], by simp, rfl, rfl⟩
  · rw [readList_eq hclose] at h
    obtain ⟨bs, _, hbs⟩ := exists_of_readItems hitem h
    exact ⟨bs, hbs⟩

end

/-! ## Expressions -/

/-- Whatever the reader reads is a phrase. -/
def Reads (r : Reader Expr) (level : Level) : Prop :=
  ∀ {ts e rest}, r ts = .ok (e, rest) → ∃ own, ts = own ++ rest ∧ Phrase level own e

/-- Whatever the reader reads carries on the phrase that it is given. -/
def CarriesOn (r : Expr → Reader Expr) (level upper : Level) : Prop :=
  ∀ {before left ts e rest}, Phrase level before left → r left ts = .ok (e, rest) →
    ∃ own, ts = own ++ rest ∧ Phrase upper (before ++ own) e

def ReadsField (r : Reader (String × Expr)) : Prop :=
  ∀ {ts x rest}, r ts = .ok (x, rest) → ∃ f : Key × List Token × Expr,
    Phrase .comparison f.2.1 f.2.2 ∧ x = (f.1.name, f.2.2) ∧
      ts = (f.1.token :: .punct .colon :: f.2.1) ++ rest

section
variable {operand : Reader Expr} {more : Expr → Reader Expr} {lower level upper : Level}

theorem reads_readFrom (hlevel : ∀ {ts e}, Phrase lower ts e → Phrase level ts e)
    (hoperand : Reads operand lower) (hmore : CarriesOn more level upper) :
    Reads (readFrom operand more) upper := by
  intro ts e rest hread
  obtain ⟨⟨left, behind⟩, hleft, hbehind⟩ := ok_of_bind hread
  obtain ⟨own, rfl, hown⟩ := hoperand hleft
  obtain ⟨other, rfl, hother⟩ := hmore (hlevel hown) hbehind
  exact ⟨own ++ other, (List.append_assoc ..).symm, hother⟩

theorem carriesOn_readOperator {operator? : Token → Option BinOp}
    (hoperator : ∀ {t op}, operator? t = some op ↔ t = .punct op.punct ∧ op.level = upper)
    (hstay : ∀ {ts e}, Phrase level ts e → Phrase upper ts e)
    (hlevel : ∀ {op ts us left right}, op.level = upper → Phrase level ts left →
      Phrase lower us right → Phrase upper (ts ++ .punct op.punct :: us) (.binary op left right))
    (hoperand : Reads operand lower) (hmore : CarriesOn more upper upper) :
    CarriesOn (readOperator operator? operand more) level upper := by
  intro before left ts e rest hbefore hread
  cases ts with
  | nil =>
    cases hread
    exact ⟨[], rfl, by simpa using hstay hbefore⟩
  | cons t ts =>
    rw [readOperator] at hread
    cases ht : operator? t with
    | none =>
      rw [ht] at hread
      cases hread
      exact ⟨[], rfl, by simpa using hstay hbefore⟩
    | some op =>
      rw [ht] at hread
      obtain ⟨⟨right, behind⟩, hright, hbehind⟩ := ok_of_bind hread
      obtain ⟨rfl, hop⟩ := hoperator.mp ht
      obtain ⟨own, rfl, hown⟩ := hoperand hright
      obtain ⟨other, rfl, hother⟩ := hmore (hlevel hop hbefore hown) hbehind
      exact ⟨.punct op.punct :: (own ++ other), by simp, by simpa using hother⟩

end

/-- Everything that is read with so much fuel is a phrase. -/
structure Sound (fuel : Nat) : Prop where
  expr : Reads (readExpr fuel) .comparison
  sum : Reads (readSum fuel) .sum
  terms : CarriesOn (readTerms fuel) .sum .sum
  product : Reads (readProduct fuel) .product
  factors : CarriesOn (readFactors fuel) .product .product
  unary : Reads (readUnary fuel) .unary
  accesses : CarriesOn (readAccesses fuel) .access .access
  primary : Reads (readPrimary fuel) .primary
  field : ReadsField (readField fuel)

section
variable {fuel : Nat}

theorem reads_readExpr (h : Sound fuel) : Reads (readExpr (fuel + 1)) .comparison := by
  have hdone : CarriesOn (fun e rest => .ok (e, rest)) .comparison .comparison := by
    intro before left ts e rest hbefore hread
    cases hread
    exact ⟨[], rfl, by rwa [List.append_nil]⟩
  rw [readExpr_eq]
  apply reads_readFrom id
  · exact h.sum
  · apply carriesOn_readOperator comparison?_eq_some_iff .comparison .compare
    · exact h.sum
    · exact hdone

theorem reads_readUnary (h : Sound fuel) : Reads (readUnary (fuel + 1)) .unary := by
  intro ts e rest hread
  by_cases hminus : ts.head? = some (.punct .minus)
  · obtain ⟨ts, rfl⟩ := List.head?_eq_some_iff.mp hminus
    obtain ⟨⟨operand, behind⟩, hoperand, hbehind⟩ := ok_of_bind hread
    cases hbehind
    obtain ⟨own, rfl, hown⟩ := h.unary hoperand
    exact ⟨.punct .minus :: own, rfl, .neg hown⟩
  · rw [readUnary_eq hminus] at hread
    obtain ⟨own, hown, haccess⟩ := reads_readFrom .access h.primary h.accesses hread
    exact ⟨own, hown, .unary haccess⟩

theorem carriesOn_readAccesses (h : Sound fuel) :
    CarriesOn (readAccesses (fuel + 1)) .access .access := by
  intro before left ts e rest hbefore hread
  by_cases hdot : ts.head? = some (.punct .dot)
  · obtain ⟨ts, rfl⟩ := List.head?_eq_some_iff.mp hdot
    obtain ⟨⟨name, behind⟩, hname, hbehind⟩ := ok_of_bind hread
    obtain rfl := readName_eq_ok_iff.mp hname
    obtain ⟨other, rfl, hother⟩ := h.accesses (.field hbefore name) hbehind
    exact ⟨[.punct .dot, .ident name] ++ other, rfl, by rwa [← List.append_assoc]⟩
  by_cases hbracket : ts.head? = some (.punct .openBracket)
  · obtain ⟨ts, rfl⟩ := List.head?_eq_some_iff.mp hbracket
    obtain ⟨⟨position, behind⟩, hposition, hbehind⟩ := ok_of_bind hread
    obtain ⟨last, hclose, hlast⟩ := ok_of_bind hbehind
    obtain rfl := expect_eq_ok_iff.mp hclose
    obtain ⟨own, rfl, hown⟩ := h.expr hposition
    obtain ⟨other, rfl, hother⟩ := h.accesses (.index hbefore hown) hlast
    exact ⟨enclosed .openBracket .closeBracket own ++ other, by rw [List.append_assoc, enclosed_append],
      by rwa [← List.append_assoc]⟩
  · rw [readAccesses_eq left hdot hbracket] at hread
    cases hread
    exact ⟨[], rfl, by rwa [List.append_nil]⟩

theorem readsField_readField (h : Sound fuel) : ReadsField (readField (fuel + 1)) := by
  have hvalue : ∀ (key : Key) {ts x rest}, (do
      let value ← readExpr fuel (← expect .colon ts)
      return ((key.name, value.1), value.2)) = .ok (x, rest) → ∃ f : Key × List Token × Expr,
        Phrase .comparison f.2.1 f.2.2 ∧ x = (f.1.name, f.2.2) ∧
          key.token :: ts = (f.1.token :: .punct .colon :: f.2.1) ++ rest := by
    intro key ts x rest hread
    obtain ⟨behind, hcolon, hbehind⟩ := ok_of_bind hread
    obtain ⟨⟨e, last⟩, he, hlast⟩ := ok_of_bind hbehind
    cases hlast
    obtain rfl := expect_eq_ok_iff.mp hcolon
    obtain ⟨own, rfl, hown⟩ := h.expr he
    exact ⟨(key, own, e), hown, rfl, rfl⟩
  intro ts x rest hread
  cases ts with
  | nil => contradiction
  | cons t ts =>
    cases t with
    | ident name => exact hvalue (.ident name) hread
    | str name => exact hvalue (.str name) hread
    | int | decimal | punct => contradiction

theorem exists_parts_of_readList (h : Sound fuel) {close : Punct} {bound : Nat}
    {ts rest : List Token} {es : List Expr}
    (hread : readList (readExpr fuel) close bound ts = .ok (es, rest)) :
    ∃ parts : List (List Token × Expr), (∀ p ∈ parts, Phrase .comparison p.1 p.2) ∧
      es = parts.map (·.2) ∧ ts = separated (parts.map (·.1)) ++ .punct close :: rest := by
  refine exists_of_readList (fun {ts e rest} he => ?_) hread
  obtain ⟨own, rfl, hown⟩ := h.expr he
  exact ⟨(own, e), hown, rfl, rfl⟩

theorem exists_of_readTable (h : Sound fuel) {ts rest : List Token} {e : Expr}
    (hread : (do
      let args ← readList (readExpr fuel) .closeParen fuel ts
      return (← tableOf args.1, args.2)) = .ok (e, rest)) :
    ∃ own, .ident "table" :: .punct .openParen :: ts = own ++ rest ∧ Phrase .primary own e := by
  obtain ⟨⟨args, behind⟩, hargs, hbehind⟩ := ok_of_bind hread
  obtain ⟨table, htable, hlast⟩ := ok_of_bind hbehind
  cases hlast
  obtain ⟨parts, hparts, rfl, rfl⟩ := exists_parts_of_readList h hargs
  obtain ⟨header, columns, rows, hrows, hheader, hwidth, rfl⟩ := tableOf_eq_ok_iff.mp htable
  exact ⟨_, congrArg _ (enclosed_append ..).symm, .table hparts hrows hheader hwidth⟩

theorem exists_of_readWord (h : Sound fuel) {name : String} {ts rest : List Token} {e : Expr}
    (hread : readPrimary (fuel + 1) (.ident name :: ts) = .ok (e, rest)) :
    ∃ own, .ident name :: ts = own ++ rest ∧ Phrase .primary own e := by
  by_cases htable : name = "table" ∧ ts.head? = some (.punct .openParen)
  · obtain ⟨rfl, hparen⟩ := htable
    obtain ⟨ts, rfl⟩ := List.head?_eq_some_iff.mp hparen
    exact exists_of_readTable h hread
  · rw [readPrimary_word (not_and.mp htable)] at hread
    cases hread
    exact ⟨_, rfl, phrase_word name⟩

theorem reads_readPrimary (h : Sound fuel) : Reads (readPrimary (fuel + 1)) .primary := by
  intro ts e rest hread
  cases ts with
  | nil => contradiction
  | cons t ts =>
    cases t with
    | int n =>
      cases hread
      exact ⟨_, rfl, .int n⟩
    | decimal digits places =>
      cases hread
      exact ⟨_, rfl, .decimal digits places⟩
    | str s =>
      cases hread
      exact ⟨_, rfl, .str s⟩
    | ident name => exact exists_of_readWord h hread
    | punct p =>
      cases p with
      | openParen =>
        obtain ⟨⟨inner, behind⟩, hinner, hbehind⟩ := ok_of_bind hread
        obtain ⟨last, hclose, hlast⟩ := ok_of_bind hbehind
        cases hlast
        obtain rfl := expect_eq_ok_iff.mp hclose
        obtain ⟨own, rfl, hown⟩ := h.expr hinner
        exact ⟨_, (enclosed_append ..).symm, .group hown⟩
      | openBracket =>
        obtain ⟨⟨items, behind⟩, hitems, hbehind⟩ := ok_of_bind hread
        cases hbehind
        obtain ⟨parts, hparts, rfl, rfl⟩ := exists_parts_of_readList h hitems
        exact ⟨_, (enclosed_append ..).symm, .list hparts⟩
      | openBrace =>
        obtain ⟨⟨items, behind⟩, hitems, hbehind⟩ := ok_of_bind hread
        cases hbehind
        obtain ⟨fields, hfields, rfl, rfl⟩ := exists_of_readList h.field hitems
        exact ⟨_, (enclosed_append ..).symm, .record hfields⟩
      | _ => contradiction

theorem sound (fuel : Nat) : Sound fuel := by
  induction fuel with
  | zero =>
    exact {
      expr := fun h => nomatch h
      sum := fun h => nomatch h
      terms := fun _ h => nomatch h
      product := fun h => nomatch h
      factors := fun _ h => nomatch h
      unary := fun h => nomatch h
      accesses := fun _ h => nomatch h
      primary := fun h => nomatch h
      field := fun h => nomatch h }
  | succ fuel h =>
    exact {
      expr := reads_readExpr h
      sum := readSum_eq fuel ▸ reads_readFrom .sum h.product h.terms
      terms := readTerms_eq fuel ▸
        carriesOn_readOperator additive?_eq_some_iff id .plus h.product h.terms
      product := readProduct_eq fuel ▸ reads_readFrom .product h.unary h.factors
      factors := readFactors_eq fuel ▸
        carriesOn_readOperator multiplicative?_eq_some_iff id .times h.unary h.factors
      unary := reads_readUnary h
      accesses := carriesOn_readAccesses h
      primary := reads_readPrimary h
      field := readsField_readField h }

end

end DebugAdapter.Script
