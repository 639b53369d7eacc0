import DebugAdapter.Proofs.Text.Cuts
import DebugAdapter.Proofs.Text.Letters
import DebugAdapter.Script.Token

/-!
# Lexemes

`Spells t lexeme` says which characters write which token, without a reader. Reading a token takes
exactly a lexeme off the text (`readToken_append`, `exists_lexeme_of_readToken`), the longest there is:
what may not follow a lexeme (`EndsBefore`) is just what would make it longer (`longest_of_ends`,
`ends_of_longest`). A whole number with too many digits is a lexeme as well, but fits no token.
-/

namespace DebugAdapter.Script

open Decimal (ofDigits)

/-- The characters of a string, and how they are written between the quotes: a character after a
backslash means what it is unescaped to, and quotes and backslashes only come so. -/
inductive SpellsText : List Char → List Char → Prop where
  | nil : SpellsText [] []
  | plain {c : Char} {s body : List Char} (hquote : c ≠ '"') (hslash : c ≠ '\\')
    (h : SpellsText s body) : SpellsText (c :: s) (c :: body)
  | escaped {s body : List Char} (c : Char) (h : SpellsText s body) :
    SpellsText (unescape c :: s) ('\\' :: c :: body)

namespace Token

inductive Spells : Token → List Char → Prop where
  | int {digits : List Char} (hne : digits ≠ []) (hdigits : ∀ c ∈ digits, c.isDigit = true) :
    Spells (.int (ofDigits digits)) digits
  | decimal {whole fraction : List Char} (hwhole : whole ≠ []) (hfraction : fraction ≠ [])
    (hdigits : ∀ c ∈ whole, c.isDigit = true) (hdigits' : ∀ c ∈ fraction, c.isDigit = true) :
    Spells (.decimal (ofDigits (whole ++ fraction)) fraction.length) (whole ++ '.' :: fraction)
  | str {s body : List Char} (h : SpellsText s body) :
    Spells (.str (String.ofList s)) ('"' :: body ++ ['"'])
  | ident {name : List Char} (h : isName name = true) : Spells (.ident (String.ofList name)) name
  | punct (p : Punct) : Spells (.punct p) p.text.toList

/-- Whole numbers have 63 bits. -/
def fits : Token → Bool
  | .int n => n < Nat.pow 2 63
  | _ => true

/-- What follows does not make the lexeme of the token longer. -/
def EndsBefore : Token → List Char → Prop
  | .int _, rest => (∀ c ∈ rest.head?, c.isDigit = false) ∧
    ∀ d r, rest = '.' :: d :: r → d.isDigit = false
  | .decimal .., rest => ∀ c ∈ rest.head?, c.isDigit = false
  | .ident _, rest => ∀ c ∈ rest.head?, isNameChar c = false
  | .punct .lt, rest | .punct .gt, rest => rest.head? ≠ some '='
  | _, _ => True

end Token

open Token

/-- Of what the text begins with, no longer lexeme spells a token. -/
def Longest (lexeme cs : List Char) : Prop :=
  ∀ t other, Spells t other → other <+: cs → other.length ≤ lexeme.length

/-! ## The readers of strings and numbers -/

theorem readString?_append {s body : List Char} (h : SpellsText s body) (rest : List Char) :
    readString? (body ++ '"' :: rest) = some (s, rest) := by
  induction h with
  | nil => rfl
  | @plain c s body hquote hslash _ ih =>
    rw [List.cons_append, readString?, ih]
    · rfl
    · exact hquote
    · intro _ _ h
      exact absurd h hslash
    · intro h
      exact absurd h hslash
  | escaped c _ ih => simp only [List.cons_append, readString?, ih, Option.map_some]

theorem exists_body_of_readString? {cs s rest : List Char} (h : readString? cs = some (s, rest)) :
    ∃ body, cs = body ++ '"' :: rest ∧ SpellsText s body := by
  fun_induction readString? cs generalizing s with
  | case1 => contradiction
  | case2 rest' =>
    cases h
    exact ⟨[], rfl, .nil⟩
  | case3 c cs ih =>
    obtain ⟨⟨s', rest'⟩, hrest, hs⟩ := Option.map_eq_some_iff.mp h
    cases hs
    obtain ⟨body, rfl, hbody⟩ := ih hrest
    exact ⟨'\\' :: c :: body, rfl, .escaped c hbody⟩
  | case4 => contradiction
  | case5 c cs hquote hslash hlast ih =>
    obtain ⟨⟨s', rest'⟩, hrest, hs⟩ := Option.map_eq_some_iff.mp h
    cases hs
    obtain ⟨body, rfl, hbody⟩ := ih hrest
    have hplain : c ≠ '\\' := by
      rintro rfl
      -- A backslash is followed by some character here, if only by the closing quote.
      cases body with
      | nil => exact hslash _ _ rfl rfl
      | cons d body => exact hslash _ _ rfl rfl
    exact ⟨c :: body, rfl, .plain hquote hplain hbody⟩

theorem span_append {p : Char → Bool} {xs rest : List Char} (hxs : ∀ c ∈ xs, p c = true)
    (hrest : ∀ c ∈ rest.head?, p c = false) :
    (xs ++ rest).takeWhile p = xs ∧ (xs ++ rest).dropWhile p = rest := by
  rw [List.takeWhile_append_of_pos hxs, List.dropWhile_append_of_pos hxs]
  cases rest with
  | nil => exact ⟨List.append_nil xs, rfl⟩
  | cons c rest =>
    have hc : ¬p c = true := by simp [hrest c rfl]
    rw [List.takeWhile_cons_of_neg hc, List.dropWhile_cons_of_neg hc, List.append_nil]
    exact ⟨rfl, rfl⟩

theorem readNumber_int {whole rest : List Char}
    (hrest : ∀ d r, rest = '.' :: d :: r → d.isDigit = false) :
    readNumber whole rest = if fits (.int (ofDigits whole)) then .ok (.int (ofDigits whole), rest)
      else .error (.invalidNumber (String.ofList whole)) := by
  unfold readNumber
  split
  · rename_i d r
    simp [hrest d r rfl, fits]
  · simp [fits]

theorem readNumber_decimal {whole fraction rest : List Char} (hne : fraction ≠ [])
    (hfraction : ∀ c ∈ fraction, c.isDigit = true) (hrest : ∀ c ∈ rest.head?, c.isDigit = false) :
    readNumber whole ('.' :: fraction ++ rest) =
      .ok (.decimal (ofDigits (whole ++ fraction)) fraction.length, rest) := by
  obtain ⟨htake, hdrop⟩ := span_append hfraction hrest
  cases fraction with
  | nil => contradiction
  | cons d fraction =>
    simp only [List.cons_append] at htake hdrop ⊢
    simp only [readNumber, hfraction d List.mem_cons_self, if_true, htake, hdrop]

/-! ## Reading a token -/

theorem isDigit_of_isNameStart {c : Char} (h : isNameStart c = true) : c.isDigit = false := by
  rw [← Bool.not_eq_true, Char.isDigit_iff_toNat]
  rintro ⟨hlow, hhigh⟩
  have hnine : '9'.toNat = 57 := rfl
  simp only [isNameStart, Text.isLetter, Bool.or_eq_true, Bool.and_eq_true, decide_eq_true_eq,
    beq_iff_eq] at h
  rcases h with (halpha | ⟨hbeyond, -⟩) | rfl
  · have hbounds := Text.bounds_of_isAlpha halpha
    omega
  · omega
  · exact absurd hhigh (by decide)

theorem readToken_name {c : Char} (h : isNameStart c = true) (cs : List Char) :
    readToken c cs =
      .ok (.ident (String.ofList (c :: cs.takeWhile isNameChar)), cs.dropWhile isNameChar) := by
  have hquote : c ≠ '"' := by
    rintro rfl
    exact absurd h (by decide)
  rw [readToken, isDigit_of_isNameStart h, h]
  simp [hquote]

/-- Two characters are only read if the second is an equals sign. -/
theorem read?_cons (c : Char) {cs : List Char} (h : cs.head? ≠ some '=') :
    Punct.read? (c :: cs) = (Punct.ofChar? c).map (·, cs) := by
  rw [Punct.read?.eq_def]
  split
  iterate 4
    · rename_i heq
      cases heq
      exact absurd rfl h
  · rename_i heq
    obtain ⟨rfl, rfl⟩ := List.cons.inj heq
    rfl
  · contradiction

theorem read?_append {p : Punct} {rest : List Char} (hends : EndsBefore (.punct p) rest) :
    Punct.read? (p.text.toList ++ rest) = some (p, rest) := by
  cases p with
  | lt | gt => exact read?_cons _ hends
  | _ => rfl

theorem Token.Spells.ne_nil {t : Token} {lexeme : List Char} (h : Spells t lexeme) :
    lexeme ≠ [] := by
  cases h with
  | int hne => exact hne
  | decimal | str => simp
  | ident hname =>
    rintro rfl
    contradiction
  | punct p => cases p <;> decide

/-- No other token begins as an operator does. -/
theorem punct_start {p : Punct} {c : Char} {cs : List Char} (h : p.text.toList = c :: cs) :
    c.isDigit = false ∧ c ≠ '"' ∧ isNameStart c = false ∧ Text.isBlank c = false := by
  cases p <;> cases h <;> decide

/-- What is read where a lexeme stands. -/
theorem readToken_append {t : Token} {c : Char} {lexeme rest : List Char}
    (h : Spells t (c :: lexeme)) (hends : EndsBefore t rest) :
    readToken c (lexeme ++ rest) = if t.fits then .ok (t, rest)
      else .error (.invalidNumber (String.ofList (c :: lexeme))) := by
  generalize hwhole : c :: lexeme = whole at h
  cases h with
  | int hne hdigits =>
    subst hwhole
    obtain ⟨hc, hlexeme⟩ := List.forall_mem_cons.mp hdigits
    obtain ⟨htake, hdrop⟩ := span_append hlexeme hends.1
    rw [readToken, if_pos hc, htake, hdrop, readNumber_int hends.2]
  | @decimal digits fraction hne hne' hdigits hfraction =>
    cases digits with
    | nil => contradiction
    | cons d digits =>
      rw [List.cons_append, List.cons.injEq] at hwhole
      obtain ⟨rfl, rfl⟩ := hwhole
      obtain ⟨hc, hdigits⟩ := List.forall_mem_cons.mp hdigits
      have hpoint : ∀ c ∈ ('.' :: fraction ++ rest).head?, c.isDigit = false := by
        rintro c ⟨rfl⟩
        rfl
      obtain ⟨htake, hdrop⟩ := span_append hdigits hpoint
      rw [readToken, if_pos hc, List.append_assoc, htake, hdrop,
        readNumber_decimal hne' hfraction hends]
      rfl
  | @str s body hbody =>
    rw [List.cons_append, List.cons.injEq] at hwhole
    obtain ⟨rfl, rfl⟩ := hwhole
    have hquote : Char.isDigit '"' = false := rfl
    rw [readToken, hquote, List.append_assoc, List.singleton_append, readString?_append hbody]
    rfl
  | ident hname =>
    subst hwhole
    rw [isName, Bool.and_eq_true, List.all_eq_true] at hname
    obtain ⟨hstart, hchars⟩ := hname
    obtain ⟨htake, hdrop⟩ := span_append hchars hends
    rw [readToken_name hstart, htake, hdrop]
    rfl
  | punct p =>
    have hread := read?_append hends
    rw [← hwhole, List.cons_append] at hread
    obtain ⟨hdigit, hquote, hstart, -⟩ := punct_start hwhole.symm
    rw [readToken, hdigit, hstart, hread]
    simp [hquote, fits]

theorem ends_nil (t : Token) : EndsBefore t [] := by
  cases t with
  | int n => simp [EndsBefore]
  | decimal | ident => simp [EndsBefore]
  | str => trivial
  | punct p => cases p <;> simp [EndsBefore]

theorem ends_of_append {t : Token} {more left : List Char} (h : EndsBefore t (more ++ left)) :
    EndsBefore t more := by
  cases more with
  | nil => exact ends_nil t
  | cons c more =>
    cases t with
    | int n =>
      refine ⟨h.1, ?_⟩
      intro d r hpoint
      obtain ⟨rfl, rfl⟩ := List.cons.inj hpoint
      exact h.2 d (r ++ left) rfl
    | decimal | ident => exact h
    | str => trivial
    | punct p => cases p <;> exact h

/-- The reader would answer with the longer lexeme as well, if there were one. -/
theorem longest_of_ends {t : Token} {c : Char} {lexeme rest : List Char}
    (h : Spells t (c :: lexeme)) (hfits : t.fits = true) (hends : EndsBefore t rest) :
    Longest (c :: lexeme) (c :: lexeme ++ rest) := by
  intro u other hother hprefix
  apply Nat.le_of_not_lt
  intro hlonger
  have hbegins : c :: lexeme <+: other :=
    List.prefix_of_prefix_length_le (List.prefix_append _ _) hprefix (Nat.le_of_lt hlonger)
  obtain ⟨more, rfl⟩ := hbegins
  obtain ⟨left, rfl⟩ := (List.prefix_append_right_inj _).mp hprefix
  rw [List.cons_append] at hother
  have hshort := readToken_append h (ends_of_append hends)
  have hlong := readToken_append hother (ends_nil u)
  rw [hfits, if_pos rfl] at hshort
  rw [List.append_nil, hshort] at hlong
  split at hlong
  · obtain ⟨rfl, rfl⟩ := Prod.mk.inj (Except.ok.inj hlong)
    simp at hlonger
  · contradiction

theorem Longest.not_spells {lexeme left : List Char} {c : Char} (more : List Char)
    (h : Longest lexeme (lexeme ++ (c :: more ++ left))) (t : Token) :
    ¬Spells t (lexeme ++ c :: more) := by
  intro hspells
  have hlength := h t (lexeme ++ c :: more) hspells
    ⟨left, by rw [List.append_assoc]⟩
  simp only [List.length_append, List.length_cons] at hlength
  omega

/-- What would make a lexeme longer does not follow the longest one. -/
theorem ends_of_longest {t : Token} {lexeme rest : List Char} (h : Spells t lexeme)
    (hlongest : Longest lexeme (lexeme ++ rest)) : EndsBefore t rest := by
  cases h with
  | int hne hdigits =>
    refine ⟨?_, ?_⟩
    · intro d hd
      obtain ⟨r, rfl⟩ := List.head?_eq_some_iff.mp hd
      rw [← Bool.not_eq_true]
      intro hdigit
      refine hlongest.not_spells [] _ (.int (List.append_ne_nil_of_left_ne_nil hne _) ?_)
      exact List.forall_mem_append.mpr ⟨hdigits, List.forall_mem_singleton.mpr hdigit⟩
    · rintro d r rfl
      rw [← Bool.not_eq_true]
      intro hdigit
      exact hlongest.not_spells [d] _
        (.decimal hne (List.cons_ne_nil d []) hdigits (List.forall_mem_singleton.mpr hdigit))
  | @decimal whole fraction hne hne' hdigits hfraction =>
    intro d hd
    obtain ⟨r, rfl⟩ := List.head?_eq_some_iff.mp hd
    rw [← Bool.not_eq_true]
    intro hdigit
    have hmore : ∀ c ∈ fraction ++ [d], c.isDigit = true :=
      List.forall_mem_append.mpr ⟨hfraction, List.forall_mem_singleton.mpr hdigit⟩
    have hspells := Spells.decimal hne (List.append_ne_nil_of_left_ne_nil hne' [d]) hdigits hmore
    apply hlongest.not_spells []
    rw [List.append_assoc, List.cons_append]
    exact hspells
  | ident hname =>
    intro d hd
    obtain ⟨r, rfl⟩ := List.head?_eq_some_iff.mp hd
    rw [← Bool.not_eq_true]
    intro hchar
    refine hlongest.not_spells [] _ (.ident ?_)
    cases lexeme with
    | nil => contradiction
    | cons c lexeme =>
      rw [isName, Bool.and_eq_true] at hname
      simp [isName, hname.1, hname.2, hchar]
  | str => trivial
  | punct p =>
    cases p with
    | lt =>
      intro hequals
      obtain ⟨r, rfl⟩ := List.head?_eq_some_iff.mp hequals
      exact hlongest.not_spells [] _ (.punct .le)
    | gt =>
      intro hequals
      obtain ⟨r, rfl⟩ := List.head?_eq_some_iff.mp hequals
      exact hlongest.not_spells [] _ (.punct .ge)
    | _ => trivial

/-! ## What is read -/

theorem exists_span (p : Char → Bool) (cs : List Char) :
    ∃ xs rest, cs = xs ++ rest ∧ (∀ c ∈ xs, p c = true) ∧ ∀ c ∈ rest.head?, p c = false := by
  refine ⟨cs.takeWhile p, cs.dropWhile p, List.takeWhile_append_dropWhile.symm, ?_, ?_⟩
  · intro c hc
    exact List.all_eq_true.mp List.all_takeWhile c hc
  · intro c hc
    have hdrop := List.head?_dropWhile_not p cs
    rw [hc] at hdrop
    exact hdrop

theorem text_of_ofChar? {c : Char} {p : Punct} (h : Punct.ofChar? c = some p) :
    p.text.toList = [c] := by
  unfold Punct.ofChar? at h
  split at h <;> cases h <;> rfl

theorem ends_of_read? {cs rest : List Char} {p : Punct} (h : Punct.read? cs = some (p, rest)) :
    cs = p.text.toList ++ rest ∧ EndsBefore (.punct p) rest := by
  rw [Punct.read?.eq_def] at h
  split at h
  iterate 4
    · cases h
      exact ⟨rfl, trivial⟩
  · rename_i c r hne hne' hlt hgt
    obtain ⟨q, hq, hpair⟩ := Option.map_eq_some_iff.mp h
    cases hpair
    have htext := text_of_ofChar? hq
    refine ⟨by rw [htext]; rfl, ?_⟩
    -- With an equals sign behind it, the character would have been read as a part of another one.
    cases p with
    | lt =>
      intro hequals
      obtain ⟨behind, rfl⟩ := List.head?_eq_some_iff.mp hequals
      exact hlt behind (List.cons.inj htext).1.symm rfl
    | gt =>
      intro hequals
      obtain ⟨behind, rfl⟩ := List.head?_eq_some_iff.mp hequals
      exact hgt behind (List.cons.inj htext).1.symm rfl
    | _ => trivial
  · contradiction

theorem exists_lexeme_of_spells {t u : Token} {c : Char} {lexeme left rest : List Char}
    (hspells : Spells u (c :: lexeme)) (hends : EndsBefore u left)
    (h : readToken c (lexeme ++ left) = .ok (t, rest)) :
    ∃ taken, lexeme ++ left = taken ++ rest ∧ Spells t (c :: taken) ∧ t.fits = true ∧
      EndsBefore t rest := by
  rw [readToken_append hspells hends] at h
  split at h
  · rename_i hfits
    cases h
    exact ⟨lexeme, rfl, hspells, hfits, hends⟩
  · contradiction

theorem exists_lexeme_of_readToken {t : Token} {c : Char} {cs rest : List Char}
    (h : readToken c cs = .ok (t, rest)) :
    ∃ lexeme, cs = lexeme ++ rest ∧ Spells t (c :: lexeme) ∧ t.fits = true ∧ EndsBefore t rest := by
  by_cases hdigit : c.isDigit = true
  · obtain ⟨digits, left, rfl, hdigits, hleft⟩ := exists_span Char.isDigit cs
    have hwhole : ∀ d ∈ c :: digits, d.isDigit = true := List.forall_mem_cons.mpr ⟨hdigit, hdigits⟩
    by_cases hpoint : ∃ d r, left = '.' :: d :: r ∧ d.isDigit = true
    · obtain ⟨d, r, rfl, hd⟩ := hpoint
      obtain ⟨fraction, left, rfl, hfraction, hleft⟩ := exists_span Char.isDigit r
      have hspells := Spells.decimal (List.cons_ne_nil c digits) (List.cons_ne_nil d fraction) hwhole
        (List.forall_mem_cons.mpr ⟨hd, hfraction⟩)
      have hsplit : digits ++ '.' :: d :: (fraction ++ left) =
          digits ++ '.' :: d :: fraction ++ left := by
        simp only [List.append_assoc, List.cons_append]
      rw [hsplit] at h ⊢
      exact exists_lexeme_of_spells hspells hleft h
    · have hends : EndsBefore (.int (ofDigits (c :: digits))) left := by
        refine ⟨hleft, ?_⟩
        intro d r hr
        rw [← Bool.not_eq_true]
        intro hd
        exact hpoint ⟨d, r, hr, hd⟩
      exact exists_lexeme_of_spells (.int (List.cons_ne_nil c digits) hwhole) hends h
  · by_cases hquote : c = '"'
    · subst hquote
      cases hread : readString? cs with
      | none => simp [readToken, hdigit, hread] at h
      | some p =>
        obtain ⟨s, left⟩ := p
        obtain ⟨body, rfl, hbody⟩ := exists_body_of_readString? hread
        have hsplit : body ++ '"' :: left = body ++ ['"'] ++ left := by
          rw [List.append_assoc, List.singleton_append]
        rw [hsplit] at h ⊢
        exact exists_lexeme_of_spells (.str hbody) trivial h
    · by_cases hstart : isNameStart c = true
      · obtain ⟨name, left, rfl, hname, hleft⟩ := exists_span isNameChar cs
        have hspells : isName (c :: name) = true := by
          rw [isName, hstart, Bool.true_and]
          exact List.all_eq_true.mpr hname
        exact exists_lexeme_of_spells (.ident hspells) hleft h
      · cases hread : Punct.read? (c :: cs) with
        | none => simp [readToken, hdigit, hquote, hstart, hread] at h
        | some p =>
          obtain ⟨p, left⟩ := p
          obtain ⟨htext, hends⟩ := ends_of_read? hread
          have hspells : Spells (.punct p) p.text.toList := .punct p
          obtain ⟨d, lexeme, hd⟩ := List.exists_cons_of_ne_nil hspells.ne_nil
          rw [hd] at htext hspells
          obtain ⟨rfl, rfl⟩ := List.cons.inj htext
          exact exists_lexeme_of_spells hspells hends h

/-! ## Blanks -/

theorem isNameChar_of_isBlank {c : Char} (h : Text.isBlank c = true) : isNameChar c = false := by
  have hunderscore : c ≠ '_' := by
    rintro rfl
    exact absurd h (by decide)
  simp [isNameChar, Text.isLetter_of_isBlank h, Text.isNumeral_of_isBlank h, hunderscore]

theorem isDigit_of_isBlank {c : Char} (h : Text.isBlank c = true) : c.isDigit = false := by
  rw [← Bool.not_eq_true]
  intro hdigit
  rw [Text.isBlank_of_isDigit hdigit] at h
  contradiction

theorem isBlank_of_spells {t : Token} {c : Char} {lexeme : List Char}
    (h : Spells t (c :: lexeme)) : Text.isBlank c = false := by
  generalize hwhole : c :: lexeme = whole at h
  cases h with
  | int hne hdigits =>
    subst hwhole
    exact Text.isBlank_of_isDigit (hdigits c List.mem_cons_self)
  | @decimal digits fraction hne _ hdigits =>
    cases digits with
    | nil => contradiction
    | cons d digits =>
      obtain rfl := (List.cons.inj hwhole).1
      exact Text.isBlank_of_isDigit (hdigits c List.mem_cons_self)
  | str =>
    obtain rfl := (List.cons.inj hwhole).1
    decide
  | ident hname =>
    subst hwhole
    rw [isName, Bool.and_eq_true] at hname
    rw [← Bool.not_eq_true]
    intro hblank
    have hchar := isNameChar_of_isBlank hblank
    simp only [isNameStart, isNameChar, Bool.or_eq_true, Bool.or_eq_false_iff] at hname hchar
    simp [hchar] at hname
  | punct p => exact (punct_start hwhole.symm).2.2.2

theorem ends_of_isBlank {c : Char} (h : Text.isBlank c = true) (t : Token) (cs : List Char) :
    EndsBefore t (c :: cs) := by
  have hdigit : ∀ d ∈ (c :: cs).head?, d.isDigit = false := by
    rintro d ⟨rfl⟩
    exact isDigit_of_isBlank h
  have hequals : (c :: cs).head? ≠ some '=' := by
    rintro ⟨rfl⟩
    exact absurd h (by decide)
  cases t with
  | int n =>
    refine ⟨hdigit, ?_⟩
    rintro d r ⟨rfl⟩
    exact absurd h (by decide)
  | decimal => exact hdigit
  | ident =>
    rintro d ⟨rfl⟩
    exact isNameChar_of_isBlank h
  | str => trivial
  | punct p =>
    cases p with
    | lt | gt => exact hequals
    | _ => trivial

end DebugAdapter.Script
