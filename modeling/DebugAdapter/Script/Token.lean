import DebugAdapter.Decimal.Reading
import DebugAdapter.Text.Blank
import DebugAdapter.Text.Letters
import DebugAdapter.Text.Quoted

/-!
# Tokens

The words of expressions.  A token is as long as it can be; blanks separate tokens and mean nothing
else.
-/

namespace DebugAdapter.Script

/-- Operators and punctuation. -/
inductive Punct where
  | eq | ne | le | ge | lt | gt
  | plus | minus | star | slash
  | openParen | closeParen | openBracket | closeBracket | openBrace | closeBrace
  | comma | colon | dot
  deriving DecidableEq

namespace Punct

def text : Punct → String
  | eq => "=="
  | ne => "!="
  | le => "<="
  | ge => ">="
  | lt => "<"
  | gt => ">"
  | plus => "+"
  | minus => "-"
  | star => "*"
  | slash => "/"
  | openParen => "("
  | closeParen => ")"
  | openBracket => "["
  | closeBracket => "]"
  | openBrace => "\x7b"
  | closeBrace => "\x7d"
  | comma => ","
  | colon => ":"
  | dot => "."

/-- The operator or punctuation of one character. -/
def ofChar? : Char → Option Punct
  | '<' => some lt
  | '>' => some gt
  | '+' => some plus
  | '-' => some minus
  | '*' => some star
  | '/' => some slash
  | '(' => some openParen
  | ')' => some closeParen
  | '[' => some openBracket
  | ']' => some closeBracket
  | '\x7b' => some openBrace
  | '\x7d' => some closeBrace
  | ',' => some comma
  | ':' => some colon
  | '.' => some dot
  | _ => none

/-- The operator that begins a text, the longer one if there are two, and what follows it. -/
def read? : List Char → Option (Punct × List Char)
  | '=' :: '=' :: r => some (eq, r)
  | '!' :: '=' :: r => some (ne, r)
  | '<' :: '=' :: r => some (le, r)
  | '>' :: '=' :: r => some (ge, r)
  | c :: r => (ofChar? c).map (·, r)
  | [] => none

end Punct

inductive Token where
  | int (n : Nat)
  /-- A number with a point: all its digits, and how many of them stand behind the point. -/
  | decimal (digits places : Nat)
  | str (s : String)
  | ident (name : String)
  | punct (p : Punct)
  deriving DecidableEq

/-- Why a text is no expression. -/
inductive ExprError where
  | invalidNumber (digits : String)
  | unterminatedString
  | unexpectedCharacter (c : Char)
  | expected (p : Punct)
  | expectedName
  | expectedFieldName
  | unexpectedToken (p : Punct)
  | unexpectedEnd
  | trailingInput
  | noColumns
  | badColumn
  | badRow (width : Nat)
  deriving DecidableEq

def ExprError.message : ExprError → String
  | invalidNumber digits => "invalid number " ++ digits
  | unterminatedString => "unterminated string"
  | unexpectedCharacter c => "unexpected character " ++ Text.quotedChar c
  | expected p => "expected `" ++ p.text ++ "`"
  | expectedName => "expected a name"
  | expectedFieldName => "expected a field name"
  | unexpectedToken p => "unexpected Punct(\"" ++ p.text ++ "\")"
  | unexpectedEnd => "unexpected end of expression"
  | trailingInput => "unexpected trailing input"
  | noColumns => "table() needs a column list first"
  | badColumn => "column names must be strings"
  | badRow width => "each table row needs " ++ toString width ++ " cells"

/-- A character that begins a name. -/
def isNameStart (c : Char) : Bool := Text.isLetter c || c == '_'

/-- A character within a name. -/
def isNameChar (c : Char) : Bool := Text.isLetter c || Text.isNumeral c || c == '_'

/-- A name: a letter or underscore, then letters, numerals and underscores. -/
def isName : List Char → Bool
  | [] => false
  | c :: cs => isNameStart c && cs.all isNameChar

/-- What a backslash before a character stands for. -/
def unescape : Char → Char
  | 'n' => '\n'
  | 't' => '\t'
  | c => c

/-- The rest of a string after its opening quote, and what follows the closing one. -/
def readString? : List Char → Option (List Char × List Char)
  | [] => none
  | '"' :: rest => some ([], rest)
  | '\\' :: c :: rest => (readString? rest).map fun (s, r) => (unescape c :: s, r)
  | ['\\'] => none
  | c :: rest => (readString? rest).map fun (s, r) => (c :: s, r)

/-- A number, given the digits it begins with and what follows them.  A point belongs to it if a
digit follows the point.  Whole numbers have 63 bits. -/
def readNumber (whole rest : List Char) : Except ExprError (Token × List Char) :=
  let plain : Except ExprError (Token × List Char) :=
    let n := Decimal.ofDigits whole
    if n < Nat.pow 2 63 then .ok (.int n, rest) else .error (.invalidNumber (String.ofList whole))
  match rest with
  | '.' :: d :: r =>
    if d.isDigit then
      let fraction := (d :: r).takeWhile Char.isDigit
      .ok (.decimal (Decimal.ofDigits (whole ++ fraction)) fraction.length,
        (d :: r).dropWhile Char.isDigit)
    else plain
  | _ => plain

/-- The token that begins with the character `c`, which is not blank, and what follows it. -/
def readToken (c : Char) (cs : List Char) : Except ExprError (Token × List Char) :=
  if c.isDigit then
    readNumber (c :: cs.takeWhile Char.isDigit) (cs.dropWhile Char.isDigit)
  else if c == '"' then
    match readString? cs with
    | some (s, rest) => .ok (.str (String.ofList s), rest)
    | none => .error .unterminatedString
  else if isNameStart c then
    .ok (.ident (String.ofList (c :: cs.takeWhile isNameChar)), cs.dropWhile isNameChar)
  else
    match Punct.read? (c :: cs) with
    | some (p, rest) => .ok (.punct p, rest)
    | none => .error (.unexpectedCharacter c)

/-- The tokens of a text.  Every token takes a character at least, which bounds their number. -/
def tokensFrom : Nat → List Char → Except ExprError (List Token)
  | _, [] => .ok []
  | 0, _ :: _ => .ok []
  | fuel + 1, c :: cs =>
    if Text.isBlank c then tokensFrom fuel cs
    else do
      let (t, rest) ← readToken c cs
      return t :: (← tokensFrom fuel rest)

def tokens (cs : List Char) : Except ExprError (List Token) := tokensFrom cs.length cs

end DebugAdapter.Script
