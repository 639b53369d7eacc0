import DebugAdapter.Proofs.Script.Lines
import Mathlib.Data.List.Forall2

/-!
# The grammar of expressions

`Phrase` tells which tokens write which expression, without regard to the readers. There are six levels,
each made of phrases of the one below it: comparisons of two sums, sums of products, products of what
may have a minus before it, accesses to fields and items, and primaries. Sums, products and accesses
grow on the right, so they associate to the left.
-/

namespace DebugAdapter.Script

/-! ## Phrases -/

inductive Level where
  | primary | access | unary | product | sum | comparison
  deriving DecidableEq

namespace Level

def rank : Level → Nat
  | primary => 0
  | access => 1
  | unary => 2
  | product => 3
  | sum => 4
  | comparison => 5

end Level

namespace BinOp

/-- The level that an operator joins phrases to. -/
def level : BinOp → Level
  | add | sub => .sum
  | mul | div => .product
  | eq | ne | lt | gt | le | ge => .comparison

def punct : BinOp → Punct
  | add => .plus
  | sub => .minus
  | mul => .star
  | div => .slash
  | eq => .eq
  | ne => .ne
  | lt => .lt
  | gt => .gt
  | le => .le
  | ge => .ge

end BinOp

/-- The key of a record's field: a name or a text. -/
inductive Key where
  | ident (name : String)
  | str (name : String)

namespace Key

def name : Key → String
  | ident name | str name => name

def token : Key → Token
  | ident name => .ident name
  | str name => .str name

end Key

/-- The name that an expression gives to a column. -/
inductive NamesColumn : Expr → String → Prop where
  | str (name : String) : NamesColumn (.str name) name
  | var (name : String) : NamesColumn (.var name) name

/-- Lists of tokens with commas between them. -/
def separated (parts : List (List Token)) : List Token := [.punct .comma].intercalate parts

/-- The tokens in a pair of brackets. -/
def enclosed (opening closing : Punct) (ts : List Token) : List Token :=
  .punct opening :: (ts ++ [.punct closing])

/-- The tokens write the expression. -/
inductive Phrase : Level → List Token → Expr → Prop where
  | null : Phrase .primary [.ident "null"] .null
  | true : Phrase .primary [.ident "true"] (.bool .true)
  | false : Phrase .primary [.ident "false"] (.bool .false)
  | int (n : Nat) : Phrase .primary [.int n] (.int n)
  | decimal (digits places : Nat) :
      Phrase .primary [.decimal digits places] (.decimal digits places)
  | str (s : String) : Phrase .primary [.str s] (.str s)
  | var {name : String} (h : name ∉ ["null", "true", "false"]) :
      Phrase .primary [.ident name] (.var name)
  | group {ts : List Token} {e : Expr} (h : Phrase .comparison ts e) :
      Phrase .primary (enclosed .openParen .closeParen ts) e
  | list {parts : List (List Token × Expr)} (h : ∀ p ∈ parts, Phrase .comparison p.1 p.2) :
      Phrase .primary (enclosed .openBracket .closeBracket (separated (parts.map (·.1))))
        (.list (parts.map (·.2)))
  | record {fields : List (Key × List Token × Expr)}
      (h : ∀ f ∈ fields, Phrase .comparison f.2.1 f.2.2) :
      Phrase .primary
        (enclosed .openBrace .closeBrace
          (separated (fields.map fun f => f.1.token :: .punct .colon :: f.2.1)))
        (.record (fields.map fun f => (f.1.name, f.2.2)))
  /-- The first argument lists the columns, and every other one as many cells. -/
  | table {parts : List (List Token × Expr)} {header : List Expr} {columns : List String}
      {rows : List (List Expr)} (h : ∀ p ∈ parts, Phrase .comparison p.1 p.2)
      (hparts : parts.map (·.2) = .list header :: rows.map .list)
      (hheader : List.Forall₂ NamesColumn header columns)
      (hrows : ∀ row ∈ rows, row.length = columns.length) :
      Phrase .primary
        (.ident "table" :: enclosed .openParen .closeParen (separated (parts.map (·.1))))
        (.table columns rows)
  | access {ts : List Token} {e : Expr} (h : Phrase .primary ts e) : Phrase .access ts e
  | field {ts : List Token} {e : Expr} (h : Phrase .access ts e) (name : String) :
      Phrase .access (ts ++ [.punct .dot, .ident name]) (.field e name)
  | index {ts us : List Token} {e position : Expr} (h : Phrase .access ts e)
      (hposition : Phrase .comparison us position) :
      Phrase .access (ts ++ enclosed .openBracket .closeBracket us) (.index e position)
  | unary {ts : List Token} {e : Expr} (h : Phrase .access ts e) : Phrase .unary ts e
  | neg {ts : List Token} {e : Expr} (h : Phrase .unary ts e) :
      Phrase .unary (.punct .minus :: ts) (.neg e)
  | product {ts : List Token} {e : Expr} (h : Phrase .unary ts e) : Phrase .product ts e
  | times {op : BinOp} {ts us : List Token} {left right : Expr} (hop : op.level = .product)
      (hleft : Phrase .product ts left) (hright : Phrase .unary us right) :
      Phrase .product (ts ++ .punct op.punct :: us) (.binary op left right)
  | sum {ts : List Token} {e : Expr} (h : Phrase .product ts e) : Phrase .sum ts e
  | plus {op : BinOp} {ts us : List Token} {left right : Expr} (hop : op.level = .sum)
      (hleft : Phrase .sum ts left) (hright : Phrase .product us right) :
      Phrase .sum (ts ++ .punct op.punct :: us) (.binary op left right)
  | comparison {ts : List Token} {e : Expr} (h : Phrase .sum ts e) : Phrase .comparison ts e
  | compare {op : BinOp} {ts us : List Token} {left right : Expr} (hop : op.level = .comparison)
      (hleft : Phrase .sum ts left) (hright : Phrase .sum us right) :
      Phrase .comparison (ts ++ .punct op.punct :: us) (.binary op left right)

/-! ## Operators, lists and tables -/

theorem comparison?_eq_some_iff {t : Token} {op : BinOp} :
    comparison? t = some op ↔ t = .punct op.punct ∧ op.level = .comparison := by
  constructor
  · intro h
    unfold comparison? at h
    split at h <;> cases h <;> exact ⟨rfl, rfl⟩
  · rintro ⟨rfl, h⟩
    cases op with
    | eq | ne | lt | gt | le | ge => rfl
    | add | sub | mul | div => contradiction

theorem additive?_eq_some_iff {t : Token} {op : BinOp} :
    additive? t = some op ↔ t = .punct op.punct ∧ op.level = .sum := by
  constructor
  · intro h
    unfold additive? at h
    split at h <;> cases h <;> exact ⟨rfl, rfl⟩
  · rintro ⟨rfl, h⟩
    cases op with
    | add | sub => rfl
    | mul | div | eq | ne | lt | gt | le | ge => contradiction

theorem multiplicative?_eq_some_iff {t : Token} {op : BinOp} :
    multiplicative? t = some op ↔ t = .punct op.punct ∧ op.level = .product := by
  constructor
  · intro h
    unfold multiplicative? at h
    split at h <;> cases h <;> exact ⟨rfl, rfl⟩
  · rintro ⟨rfl, h⟩
    cases op with
    | mul | div => rfl
    | add | sub | eq | ne | lt | gt | le | ge => contradiction

theorem expect_eq_ok_iff {p : Punct} {ts rest : List Token} :
    expect p ts = .ok rest ↔ ts = .punct p :: rest := by
  constructor
  · intro h
    unfold expect at h
    split at h
    · split at h
      · cases h
        rename_i hp
        rw [hp]
      · contradiction
    · contradiction
  · rintro rfl
    rw [expect, if_pos rfl]

theorem enclosed_append (opening closing : Punct) (ts rest : List Token) :
    enclosed opening closing ts ++ rest = .punct opening :: (ts ++ .punct closing :: rest) := by
  rw [enclosed, List.cons_append, List.append_assoc, List.singleton_append]

theorem separated_singleton (ts : List Token) : separated [ts] = ts := List.intercalate_singleton

theorem separated_cons (ts : List Token) {parts : List (List Token)} (h : parts ≠ []) :
    separated (ts :: parts) = ts ++ .punct .comma :: separated parts := by
  cases parts with
  | nil => contradiction
  | cons us parts =>
    rw [separated, List.intercalate_cons_cons, List.append_assoc]
    rfl

theorem head?_separated {ts : List Token} (h : ts ≠ []) (parts : List (List Token))
    (rest : List Token) : (separated (ts :: parts) ++ rest).head? = ts.head? := by
  obtain ⟨t, us, rfl⟩ := List.exists_cons_of_ne_nil h
  cases parts with
  | nil => rfl
  | cons vs parts =>
    rw [separated_cons _ (List.cons_ne_nil vs parts)]
    rfl

theorem length_le_separated (parts : List (List Token)) :
    parts.length ≤ (separated parts).length + 1 := by
  induction parts with
  | nil => exact Nat.zero_le _
  | cons ts parts ih =>
    cases parts with
    | nil => simp
    | cons us parts =>
      rw [separated_cons ts (List.cons_ne_nil us parts)]
      simp only [List.length_cons, List.length_append] at ih ⊢
      omega

theorem mapM_eq_ok_iff {ε α β : Type} {f : α → Except ε β} {xs : List α} {ys : List β} :
    xs.mapM f = .ok ys ↔ List.Forall₂ (fun x y => f x = .ok y) xs ys := by
  induction xs generalizing ys with
  | nil =>
    rw [List.mapM_nil, List.forall₂_nil_left_iff]
    exact ⟨fun h => (Except.ok.inj h).symm, fun h => h ▸ rfl⟩
  | cons x xs ih =>
    rw [List.mapM_cons, List.forall₂_cons_left_iff]
    constructor
    · intro h
      obtain ⟨y, hy, hrest⟩ := ok_of_bind h
      obtain ⟨zs, hzs, hcons⟩ := ok_of_bind hrest
      exact ⟨y, zs, hy, ih.mp hzs, (Except.ok.inj hcons).symm⟩
    · rintro ⟨y, zs, hy, hzs, rfl⟩
      rw [hy, ih.mpr hzs]
      rfl

theorem columnName?_eq_ok_iff {e : Expr} {name : String} :
    columnName? e = .ok name ↔ NamesColumn e name := by
  constructor
  · intro h
    cases e with
    | str | var =>
      cases h
      constructor
    | _ => contradiction
  · intro h
    cases h <;> rfl

theorem rowCells_eq_ok_iff {width : Nat} {e : Expr} {cells : List Expr} :
    rowCells width e = .ok cells ↔ e = .list cells ∧ cells.length = width := by
  constructor
  · intro h
    cases e with
    | list items =>
      rw [rowCells] at h
      split at h
      · cases h
        exact ⟨rfl, ‹_›⟩
      · contradiction
    | _ => contradiction
  · rintro ⟨rfl, h⟩
    rw [rowCells, if_pos h]

theorem tableOf_eq_ok_iff {args : List Expr} {e : Expr} :
    tableOf args = .ok e ↔ ∃ header columns rows, args = .list header :: rows.map .list ∧
      List.Forall₂ NamesColumn header columns ∧ (∀ row ∈ rows, row.length = columns.length) ∧
      e = .table columns rows := by
  have hrows : ∀ {width : Nat} {rest : List Expr} {rows : List (List Expr)},
      rest.mapM (rowCells width) = .ok rows ↔
        rest = rows.map .list ∧ ∀ row ∈ rows, row.length = width := by
    intro width rest rows
    simp only [mapM_eq_ok_iff, rowCells_eq_ok_iff]
    induction rest generalizing rows with
    | nil => cases rows <;> simp
    | cons x rest ih => cases rows <;> simp [ih, and_assoc, and_left_comm]
  have hcolumns : ∀ {header : List Expr} {columns : List String},
      header.mapM columnName? = .ok columns ↔ List.Forall₂ NamesColumn header columns := by
    intro header columns
    simp only [mapM_eq_ok_iff, columnName?_eq_ok_iff]
  constructor
  · intro h
    unfold tableOf at h
    split at h
    · obtain ⟨columns, hheader, hrest⟩ := ok_of_bind h
      obtain ⟨rows, hcells, htable⟩ := ok_of_bind hrest
      cases htable
      obtain ⟨rfl, hwidth⟩ := hrows.mp hcells
      exact ⟨_, columns, rows, rfl, hcolumns.mp hheader, hwidth, rfl⟩
    · contradiction
  · rintro ⟨header, columns, rows, rfl, hheader, hwidth, rfl⟩
    rw [tableOf, hcolumns.mpr hheader]
    change (List.mapM (rowCells columns.length) _ >>= _) = _
    rw [hrows.mpr ⟨rfl, hwidth⟩]
    rfl

/-! ## The readers along the levels -/

/-- What a name stands for that nothing is applied to. -/
def word (name : String) : Expr :=
  if name = "null" then .null
  else if name = "true" then .bool true
  else if name = "false" then .bool false
  else .var name

theorem word_eq_var {name : String} (h : name ∉ ["null", "true", "false"]) :
    word name = .var name := by
  simp only [List.mem_cons, List.not_mem_nil, or_false, not_or] at h
  rw [word, if_neg h.1, if_neg h.2.1, if_neg h.2.2]

theorem phrase_word (name : String) : Phrase .primary [.ident name] (word name) := by
  unfold word
  split_ifs with hnull htrue hfalse
  · exact hnull ▸ .null
  · exact htrue ▸ .true
  · exact hfalse ▸ .false
  · exact .var (by simp [hnull, htrue, hfalse])

/-- Reads an operand and what carries it on. -/
def readFrom (operand : Reader Expr) (more : Expr → Reader Expr) : Reader Expr := fun ts => do
  let (left, ts) ← operand ts
  more left ts

/-- Carries an expression on by an operator and its right operand, if an operator follows. -/
def readOperator (operator? : Token → Option BinOp) (operand : Reader Expr)
    (more : Expr → Reader Expr) (left : Expr) : Reader Expr
  | [] => .ok (left, [])
  | t :: rest =>
    match operator? t with
    | some op => do
      let (right, rest) ← operand rest
      more (.binary op left right) rest
    | none => .ok (left, t :: rest)

theorem readFrom_eq {operand : Reader Expr} {more : Expr → Reader Expr} {ts rest : List Token}
    {e : Expr} (h : operand ts = .ok (e, rest)) : readFrom operand more ts = more e rest := by
  rw [readFrom, h]
  rfl

theorem readExpr_eq (fuel : Nat) : readExpr (fuel + 1) =
    readFrom (readSum fuel)
      (readOperator comparison? (readSum fuel) fun e rest => .ok (e, rest)) := by
  funext ts
  refine bind_congr fun read => ?_
  obtain ⟨left, ts⟩ := read
  cases ts <;> rfl

theorem readSum_eq (fuel : Nat) : readSum (fuel + 1) = readFrom (readProduct fuel) (readTerms fuel) :=
  rfl

theorem readProduct_eq (fuel : Nat) :
    readProduct (fuel + 1) = readFrom (readUnary fuel) (readFactors fuel) := rfl

theorem readTerms_eq (fuel : Nat) :
    readTerms (fuel + 1) = readOperator additive? (readProduct fuel) (readTerms fuel) := by
  funext left ts
  cases ts <;> rfl

theorem readFactors_eq (fuel : Nat) :
    readFactors (fuel + 1) = readOperator multiplicative? (readUnary fuel) (readFactors fuel) := by
  funext left ts
  cases ts <;> rfl

theorem readUnary_eq {fuel : Nat} {ts : List Token} (h : ts.head? ≠ some (.punct .minus)) :
    readUnary (fuel + 1) ts = readFrom (readPrimary fuel) (readAccesses fuel) ts := by
  rw [readUnary]
  · rfl
  · rintro rest rfl
    exact h rfl

theorem readAccesses_eq {fuel : Nat} {ts : List Token} (e : Expr)
    (hdot : ts.head? ≠ some (.punct .dot)) (hbracket : ts.head? ≠ some (.punct .openBracket)) :
    readAccesses (fuel + 1) e ts = .ok (e, ts) := by
  rw [readAccesses]
  · rintro rest rfl
    exact hdot rfl
  · rintro rest rfl
    exact hbracket rfl

theorem readName_eq_ok_iff {ts rest : List Token} {name : String} :
    readName ts = .ok (name, rest) ↔ ts = .ident name :: rest := by
  constructor
  · intro h
    unfold readName at h
    split at h
    · cases h
      rfl
    · contradiction
  · rintro rfl
    rfl

theorem readPrimary_word {fuel : Nat} {ts : List Token} {name : String}
    (htable : name = "table" → ts.head? ≠ some (.punct .openParen)) :
    readPrimary (fuel + 1) (.ident name :: ts) = .ok (word name, ts) := by
  unfold readPrimary
  simp only [word]
  split_ifs with hnull htrue hfalse hname
  · rfl
  · rfl
  · rfl
  · split
    · exact absurd rfl (htable hname)
    · rfl
  · rfl

end DebugAdapter.Script
