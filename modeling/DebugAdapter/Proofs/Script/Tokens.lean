import DebugAdapter.Proofs.Script.Lexemes
import DebugAdapter.Proofs.Script.Lines

/-!
# Reading tokens

A text has the tokens `ts` exactly if it is cut into blanks and the longest lexemes of these tokens
(`tokens_eq_ok_iff`), and there is an error exactly if it cannot be cut so. Tokens that are printed with
blanks between them are read back, since a blank ends every lexeme.
-/

namespace DebugAdapter.Script

open Token

/-- The text in blanks and lexemes, each of which is the longest that stands in its place. -/
inductive Splits : List Char → List Token → Prop where
  | nil : Splits [] []
  | blank {c : Char} {cs : List Char} {ts : List Token} (hc : Text.isBlank c = true)
    (h : Splits cs ts) : Splits (c :: cs) ts
  | token {t : Token} {lexeme rest : List Char} {ts : List Token} (hspells : Spells t lexeme)
    (hfits : t.fits = true) (hlongest : Longest lexeme (lexeme ++ rest)) (h : Splits rest ts) :
    Splits (lexeme ++ rest) (t :: ts)

/-! ## One token after the other -/

theorem tokensFrom_fuel {fuel more : Nat} {cs : List Char} (h : cs.length ≤ fuel)
    (h' : cs.length ≤ more) : tokensFrom fuel cs = tokensFrom more cs := by
  induction fuel generalizing more cs with
  | zero =>
    obtain rfl := List.eq_nil_of_length_eq_zero (Nat.le_zero.mp h)
    simp only [tokensFrom]
  | succ fuel ih =>
    cases cs with
    | nil => simp only [tokensFrom]
    | cons c cs =>
      cases more with
      | zero => exact absurd h' (Nat.not_succ_le_zero _)
      | succ more =>
        rw [List.length_cons] at h h'
        have hcs : tokensFrom fuel cs = tokensFrom more cs := ih (by omega) (by omega)
        rw [tokensFrom, tokensFrom, hcs]
        cases hread : readToken c cs with
        | error e => rfl
        | ok read =>
          obtain ⟨t, rest⟩ := read
          obtain ⟨lexeme, rfl, -, -, -⟩ := exists_lexeme_of_readToken hread
          rw [List.length_append] at h h'
          have hrest : tokensFrom fuel rest = tokensFrom more rest := ih (by omega) (by omega)
          simp only [bind, Except.bind, hrest]

theorem tokens_blank {c : Char} (hc : Text.isBlank c = true) (cs : List Char) :
    tokens (c :: cs) = tokens cs := by
  rw [tokens, List.length_cons, tokensFrom, if_pos hc, tokens]

theorem tokens_of_readToken {t : Token} {c : Char} {cs rest : List Char}
    (hc : Text.isBlank c = false) (h : readToken c cs = .ok (t, rest)) :
    tokens (c :: cs) = (t :: ·) <$> tokens rest := by
  obtain ⟨lexeme, rfl, -, -, -⟩ := exists_lexeme_of_readToken h
  have hrest : tokensFrom (lexeme ++ rest).length rest = tokens rest :=
    tokensFrom_fuel (by simp) (Nat.le_refl _)
  rw [tokens, List.length_cons, tokensFrom, if_neg (by simp [hc]), h]
  simp only [bind, Except.bind, hrest]
  cases tokens rest <;> rfl

theorem tokens_append {t : Token} {lexeme rest : List Char} (h : Spells t lexeme)
    (hfits : t.fits = true) (hends : EndsBefore t rest) :
    tokens (lexeme ++ rest) = (t :: ·) <$> tokens rest := by
  cases lexeme with
  | nil => exact absurd rfl h.ne_nil
  | cons c lexeme =>
    rw [List.cons_append]
    apply tokens_of_readToken (isBlank_of_spells h)
    rw [readToken_append h hends, if_pos hfits]

theorem tokens_of_splits {cs : List Char} {ts : List Token} (h : Splits cs ts) :
    tokens cs = .ok ts := by
  induction h with
  | nil => rfl
  | blank hc _ ih => rw [tokens_blank hc, ih]
  | token hspells hfits hlongest _ ih =>
    rw [tokens_append hspells hfits (ends_of_longest hspells hlongest), ih]
    rfl

theorem splits_of_tokens {cs : List Char} {ts : List Token} (h : tokens cs = .ok ts) :
    Splits cs ts := by
  induction hn : cs.length using Nat.strongRecOn generalizing cs ts with
  | ind n ih =>
    cases cs with
    | nil =>
      cases h
      exact .nil
    | cons c cs =>
      rw [List.length_cons] at hn
      cases hc : Text.isBlank c with
      | true =>
        rw [tokens_blank hc] at h
        exact .blank hc (ih cs.length (by omega) h rfl)
      | false =>
        cases hread : readToken c cs with
        | error e =>
          rw [tokens, List.length_cons, tokensFrom, if_neg (by simp [hc]), hread] at h
          contradiction
        | ok read =>
          obtain ⟨t, rest⟩ := read
          rw [tokens_of_readToken hc hread] at h
          obtain ⟨lexeme, rfl, hspells, hfits, hends⟩ := exists_lexeme_of_readToken hread
          cases hrest : tokens rest with
          | error e =>
            rw [hrest] at h
            contradiction
          | ok us =>
            rw [hrest] at h
            cases h
            rw [List.length_append] at hn
            have hsplits := ih rest.length (by omega) hrest rfl
            exact .token hspells hfits (longest_of_ends hspells hfits hends) hsplits

theorem tokens_eq_ok_iff {cs : List Char} {ts : List Token} :
    tokens cs = .ok ts ↔ Splits cs ts :=
  ⟨splits_of_tokens, tokens_of_splits⟩

/-! ## Printed tokens -/

/-- The characters of a string, and how they are printed between the quotes: line feeds and tabs as
they are, or by their letters. -/
inductive PrintsText : List Char → List Char → Prop where
  | nil : PrintsText [] []
  | raw {c : Char} {s body : List Char} (hquote : c ≠ '"') (hslash : c ≠ '\\')
    (h : PrintsText s body) : PrintsText (c :: s) (c :: body)
  | quote {s body : List Char} (h : PrintsText s body) : PrintsText ('"' :: s) ('\\' :: '"' :: body)
  | backslash {s body : List Char} (h : PrintsText s body) :
    PrintsText ('\\' :: s) ('\\' :: '\\' :: body)
  | feed {s body : List Char} (h : PrintsText s body) : PrintsText ('\n' :: s) ('\\' :: 'n' :: body)
  | tab {s body : List Char} (h : PrintsText s body) : PrintsText ('\t' :: s) ('\\' :: 't' :: body)

inductive Prints : Token → List Char → Prop where
  | int {n : Nat} (h : n < Nat.pow 2 63) : Prints (.int n) (Nat.toDigits 10 n)
  | str {s body : List Char} (h : PrintsText s body) :
    Prints (.str (String.ofList s)) ('"' :: body ++ ['"'])
  | ident {name : List Char} (h : isName name = true) : Prints (.ident (String.ofList name)) name
  | punct (p : Punct) : Prints (.punct p) p.text.toList

/-- Printed tokens with blanks between them, and around them if wanted. -/
inductive Spaced : List Char → List Token → Prop where
  | nil : Spaced [] []
  | blank {c : Char} {cs : List Char} {ts : List Token} (hc : Text.isBlank c = true)
    (h : Spaced cs ts) : Spaced (c :: cs) ts
  | last {t : Token} {text : List Char} (ht : Prints t text) : Spaced text [t]
  | token {t : Token} {c : Char} {text cs : List Char} {ts : List Token} (ht : Prints t text)
    (hc : Text.isBlank c = true) (h : Spaced cs ts) : Spaced (text ++ c :: cs) (t :: ts)

theorem spellsText_of_printsText {s body : List Char} (h : PrintsText s body) :
    SpellsText s body := by
  induction h with
  | nil => exact .nil
  | raw hquote hslash _ ih => exact .plain hquote hslash ih
  | quote _ ih => exact .escaped '"' ih
  | backslash _ ih => exact .escaped '\\' ih
  | feed _ ih => exact .escaped 'n' ih
  | tab _ ih => exact .escaped 't' ih

theorem spells_of_prints {t : Token} {text : List Char} (h : Prints t text) :
    Spells t text ∧ t.fits = true := by
  cases h with
  | @int n hn =>
    have hvalue : Decimal.ofDigits (Nat.toDigits 10 n) = n :=
      Nat.ofDigitChars_eq_foldl.symm.trans Nat.ofDigitChars_ten_toDigits
    have hspells : Spells (.int (Decimal.ofDigits (Nat.toDigits 10 n))) (Nat.toDigits 10 n) :=
      .int Nat.toDigits_ne_nil fun c hc => Nat.isDigit_of_mem_toDigits (by decide) (by decide) hc
    rw [hvalue] at hspells
    exact ⟨hspells, decide_eq_true hn⟩
  | str hs => exact ⟨.str (spellsText_of_printsText hs), rfl⟩
  | ident hname => exact ⟨.ident hname, rfl⟩
  | punct p => exact ⟨.punct p, rfl⟩

theorem tokens_of_spaced {cs : List Char} {ts : List Token} (h : Spaced cs ts) :
    tokens cs = .ok ts := by
  induction h with
  | nil => rfl
  | blank hc _ ih => rw [tokens_blank hc, ih]
  | @last t text ht =>
    obtain ⟨hspells, hfits⟩ := spells_of_prints ht
    have hread := tokens_append hspells hfits (ends_nil t)
    rw [List.append_nil] at hread
    rw [hread]
    rfl
  | token ht hc _ ih =>
    obtain ⟨hspells, hfits⟩ := spells_of_prints ht
    rw [tokens_append hspells hfits (ends_of_isBlank hc _ _), tokens_blank hc, ih]
    rfl

/-- An operator that no longer one covers is read where it stands. -/
theorem tokens_punct {p : Punct} {rest : List Char}
    (h : ∀ q : Punct, q.text.toList <+: p.text.toList ++ rest → q.text.length ≤ p.text.length) :
    tokens (p.text.toList ++ rest) = (.punct p :: ·) <$> tokens rest := by
  apply tokens_append (.punct p) rfl
  cases p with
  | lt =>
    intro hequals
    obtain ⟨left, rfl⟩ := List.head?_eq_some_iff.mp hequals
    exact absurd (h .le ⟨left, rfl⟩) (by decide)
  | gt =>
    intro hequals
    obtain ⟨left, rfl⟩ := List.head?_eq_some_iff.mp hequals
    exact absurd (h .ge ⟨left, rfl⟩) (by decide)
  | _ => trivial

/-- Printed tokens with blanks between them are read back. Of the operators that a text begins with the
longest is read. Any text either has the tokens whose longest lexemes, with blanks between them if there
are any, make it up, or it is no such text and there is an error. -/
theorem reads_longest_lexemes :
    (∀ cs ts, Spaced cs ts → tokens cs = .ok ts) ∧
    (∀ (p : Punct) rest,
      (∀ q : Punct, q.text.toList <+: p.text.toList ++ rest → q.text.length ≤ p.text.length) →
      tokens (p.text.toList ++ rest) = (.punct p :: ·) <$> tokens rest) ∧
    ∀ cs, (∃ ts, tokens cs = .ok ts ∧ Splits cs ts) ∨
      ∃ e, tokens cs = .error e ∧ ∀ ts, ¬Splits cs ts := by
  refine ⟨fun _ _ => tokens_of_spaced, fun _ _ => tokens_punct, ?_⟩
  intro cs
  cases h : tokens cs with
  | ok ts => exact Or.inl ⟨ts, rfl, tokens_eq_ok_iff.mp h⟩
  | error e =>
    refine Or.inr ⟨e, rfl, ?_⟩
    intro ts hsplits
    rw [tokens_eq_ok_iff.mpr hsplits] at h
    contradiction

theorem reads_longest_lexemes_spaced :
    let text := ['"', 'a', '\\', '"', '\n', '\\', 'n', '"'] ++ '\t' :: (['1', '2'] ++ ' ' :: ['<', '='])
    let ts := [Token.str (String.ofList ['a', '"', '\n', '\n']), .int 12, .punct .le]
    Spaced text ts ∧ tokens text = .ok ts ∧
      tokens ['<', '=', '='] = .error (.unexpectedCharacter '=') := by
  intro text ts
  have htext : PrintsText ['a', '"', '\n', '\n'] ['a', '\\', '"', '\n', '\\', 'n'] :=
    .raw (by decide) (by decide) (.quote (.raw (by decide) (by decide) (.feed .nil)))
  have hint : Prints (.int 12) ['1', '2'] := .int (by decide)
  have hspaced : Spaced text ts := by
    apply Spaced.token (.str htext) rfl
    apply Spaced.token hint rfl
    exact .last (.punct .le)
  have hle : ∀ q : Punct, q.text.toList <+: Punct.le.text.toList ++ ['='] →
      q.text.length ≤ Punct.le.text.length := by
    intro q _
    cases q <;> decide
  refine ⟨hspaced, reads_longest_lexemes.1 text ts hspaced, ?_⟩
  exact reads_longest_lexemes.2.1 .le ['='] hle

end DebugAdapter.Script
