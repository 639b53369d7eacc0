import DebugAdapter.Proofs.Script.Grammar.Completeness

/-!
# Printing expressions

An expression is printed with parentheses around every operand that is itself compound. What is printed
is a phrase for the expression whenever any tokens are (`prints_of_phrase`), so reading it gives the
expression back. No tokens at all write a variable called `null`, or a table with a row of another
length.
-/

namespace DebugAdapter.Script

namespace Expr

/-- An operator, or an access to a field or an item, is applied to operands. -/
def compound : Expr → Bool
  | field .. | index .. | neg .. | binary .. => true
  | null | bool .. | int .. | decimal .. | str .. | list .. | record .. | table .. | var .. => false

/-- What the expression is printed as, in an operand. -/
def asOperand (e : Expr) (ts : List Token) : List Token :=
  if e.compound then enclosed .openParen .closeParen ts else ts

def bracketed (parts : List (List Token)) : List Token :=
  enclosed .openBracket .closeBracket (separated parts)

mutual

def printed : Expr → List Token
  | null => [.ident "null"]
  | bool b => [.ident (if b then "true" else "false")]
  | int n => [.int n]
  | decimal digits places => [.decimal digits places]
  | str s => [.str s]
  | list items => bracketed (printedItems items)
  | record fields => enclosed .openBrace .closeBrace (separated (printedFields fields))
  | table columns rows =>
    .ident "table" :: enclosed .openParen .closeParen
      (separated (bracketed (columns.map fun name => [.str name]) :: printedRows rows))
  | var name => [.ident name]
  | field target name => target.asOperand target.printed ++ [.punct .dot, .ident name]
  | index target position =>
    target.asOperand target.printed ++ enclosed .openBracket .closeBracket position.printed
  | neg operand => .punct .minus :: operand.asOperand operand.printed
  | binary op left right =>
    left.asOperand left.printed ++ .punct op.punct :: right.asOperand right.printed

def printedItems : List Expr → List (List Token)
  | [] => []
  | e :: items => e.printed :: printedItems items

def printedFields : List (String × Expr) → List (List Token)
  | [] => []
  | (name, e) :: fields => (.str name :: .punct .colon :: e.printed) :: printedFields fields

def printedRows : List (List Expr) → List (List Token)
  | [] => []
  | row :: rows => bracketed (printedItems row) :: printedRows rows

end

theorem printedItems_eq_map (items : List Expr) : printedItems items = items.map printed := by
  induction items with
  | nil => rfl
  | cons e items ih => rw [printedItems, ih, List.map_cons]

theorem printedFields_eq_map (fields : List (String × Expr)) :
    printedFields fields = fields.map fun f => .str f.1 :: .punct .colon :: f.2.printed := by
  induction fields with
  | nil => rfl
  | cons f fields ih => rw [printedFields, ih, List.map_cons]

theorem printedRows_eq_map (rows : List (List Expr)) :
    printedRows rows = rows.map fun row => (list row).printed := by
  induction rows with
  | nil => rfl
  | cons row rows ih => rw [printedRows, ih, List.map_cons, printed]

/-- What is printed is a phrase, of the lowest level that it can be of. -/
def Prints (e : Expr) : Prop :=
  Phrase (if e.compound then .comparison else .primary) e.printed e

end Expr

section
variable {ts us : List Token} {e left right : Expr}

theorem comparison_of_unary (h : Phrase .unary ts e) : Phrase .comparison ts e :=
  .comparison (.sum (.product h))

theorem comparison_of_primary (h : Phrase .primary ts e) : Phrase .comparison ts e :=
  comparison_of_unary (.unary (.access h))

theorem Expr.Prints.comparison (h : e.Prints) : Phrase .comparison e.printed e := by
  unfold Prints at h
  split at h
  · exact h
  · exact comparison_of_primary h

theorem Expr.Prints.operand (h : e.Prints) : Phrase .primary (e.asOperand e.printed) e := by
  unfold asOperand
  split
  · exact .group h.comparison
  · rename_i hcompound
    rwa [Prints, if_neg hcompound] at h

theorem comparison_of_binary (op : BinOp) (hleft : Phrase .primary ts left)
    (hright : Phrase .primary us right) :
    Phrase .comparison (ts ++ .punct op.punct :: us) (.binary op left right) := by
  have hunary : Phrase .unary us right := .unary (.access hright)
  have hproduct : Phrase .product ts left := .product (.unary (.access hleft))
  cases op with
  | mul | div => exact .comparison (.sum (.times rfl hproduct hunary))
  | add | sub => exact .comparison (.plus rfl (.sum hproduct) (.product hunary))
  | eq | ne | lt | gt | le | ge =>
    exact .compare rfl (.sum hproduct) (.sum (.product hunary))

end

theorem prints_list {items : List Expr} (h : ∀ e ∈ items, e.Prints) : (Expr.list items).Prints := by
  have hparts : ∀ p ∈ items.map fun e => (e.printed, e), Phrase .comparison p.1 p.2 := by
    intro p hp
    obtain ⟨e, he, rfl⟩ := List.mem_map.mp hp
    exact (h e he).comparison
  have hphrase := Phrase.list hparts
  simpa [Expr.Prints, Expr.compound, Expr.printed, Expr.bracketed, Expr.printedItems_eq_map,
    Function.comp_def] using hphrase

theorem prints_record {fields : List (String × Expr)} (h : ∀ f ∈ fields, f.2.Prints) :
    (Expr.record fields).Prints := by
  have hparts : ∀ p ∈ fields.map fun f => (Key.str f.1, f.2.printed, f.2),
      Phrase .comparison p.2.1 p.2.2 := by
    intro p hp
    obtain ⟨f, hf, rfl⟩ := List.mem_map.mp hp
    exact (h f hf).comparison
  have hphrase := Phrase.record hparts
  simpa [Expr.Prints, Expr.compound, Expr.printed, Expr.printedFields_eq_map, Key.token, Key.name,
    Function.comp_def] using hphrase

theorem prints_table {columns : List String} {rows : List (List Expr)}
    (h : ∀ row ∈ rows, (Expr.list row).Prints) (hrows : ∀ row ∈ rows, row.length = columns.length) :
    (Expr.table columns rows).Prints := by
  have hcolumns : (Expr.list (columns.map .str)).Prints := by
    refine prints_list fun e he => ?_
    obtain ⟨name, _, rfl⟩ := List.mem_map.mp he
    exact .str name
  have hheader : List.Forall₂ NamesColumn (columns.map .str) columns :=
    List.forall₂_map_left_iff.mpr (List.forall₂_same.mpr fun name _ => .str name)
  have hparts : ∀ p ∈ (columns.map Expr.str :: rows).map fun row =>
      ((Expr.list row).printed, Expr.list row), Phrase .comparison p.1 p.2 := by
    intro p hp
    obtain ⟨row, hrow, rfl⟩ := List.mem_map.mp hp
    rcases List.mem_cons.mp hrow with rfl | hrow
    · exact hcolumns.comparison
    · exact (h row hrow).comparison
  have hphrase := Phrase.table hparts (by simp) hheader hrows
  simpa [Expr.Prints, Expr.compound, Expr.printed, Expr.printedRows_eq_map, Expr.printedItems_eq_map,
    Function.comp_def] using hphrase

theorem prints_of_phrase {level : Level} {ts : List Token} {e : Expr} (h : Phrase level ts e) :
    e.Prints := by
  induction h with
  | null => exact .null
  | true => exact .true
  | false => exact .false
  | int n => exact .int n
  | decimal digits places => exact .decimal digits places
  | str s => exact .str s
  | var h => exact .var h
  | group _ ih | access _ ih | unary _ ih | product _ ih | sum _ ih | comparison _ ih => exact ih
  | list _ ih =>
    refine prints_list fun e he => ?_
    obtain ⟨p, hp, rfl⟩ := List.mem_map.mp he
    exact ih p hp
  | record _ ih =>
    refine prints_record fun f hf => ?_
    obtain ⟨p, hp, rfl⟩ := List.mem_map.mp hf
    exact ih p hp
  | @table parts _ _ rows _ hparts _ hrows ih =>
    refine prints_table (fun row hrow => ?_) hrows
    have hmem : Expr.list row ∈ parts.map (·.2) := by
      rw [hparts]
      exact List.mem_cons_of_mem _ (List.mem_map_of_mem hrow)
    obtain ⟨p, hp, heq⟩ := List.mem_map.mp hmem
    exact heq ▸ ih p hp
  | field _ name ih => exact comparison_of_unary (.unary (.field (.access ih.operand) name))
  | index _ _ ih ihposition =>
    exact comparison_of_unary (.unary (.index (.access ih.operand) ihposition.comparison))
  | neg _ ih => exact comparison_of_unary (.neg (.unary (.access ih.operand)))
  | times _ _ _ ihleft ihright | plus _ _ _ ihleft ihright | compare _ _ _ ihleft ihright =>
    exact comparison_of_binary _ ihleft.operand ihright.operand

/-- The expressions that are read are those that the grammar derives from all the tokens. If any tokens
are read as an expression, those that it is printed as are. -/
theorem ofTokens_follows_grammar (ts : List Token) (e : Expr) :
    (Expr.ofTokens ts = .ok e ↔ Phrase .comparison ts e) ∧
      ((∃ us, Expr.ofTokens us = .ok e) ↔ Expr.ofTokens e.printed = .ok e) := by
  refine ⟨ofTokens_eq_ok_iff, ?_, ?_⟩
  · rintro ⟨us, hread⟩
    have hphrase : Phrase .comparison us e := ofTokens_eq_ok_iff.mp hread
    exact ofTokens_eq_ok_iff.mpr (prints_of_phrase hphrase).comparison
  · exact fun hread => ⟨e.printed, hread⟩

end DebugAdapter.Script
