/-!
# Redaction

Messages about arguments that cannot be decoded repeat what the client sent, which may be a secret.
Redaction takes it out: everything between double quotes, and what stands between backticks where
the message speaks of an unknown name or of a value of the wrong kind.  Names that the schema itself
gives stay.
-/

namespace DebugAdapter

namespace Text

/-- The characters before the first occurrence of `piece` are so many. -/
def indexOf? (piece : List Char) : List Char → Option Nat
  | [] => if piece.isEmpty then some 0 else none
  | c :: cs =>
    if piece.isPrefixOf (c :: cs) then some 0 else (indexOf? piece cs).map (· + 1)

/-- The index right behind the first occurrence of `piece`. -/
def endOf? (piece cs : List Char) : Option Nat := (indexOf? piece cs).map (· + piece.length)

/-- `piece` occurs in the text. -/
def occursIn (piece cs : List Char) : Bool := (indexOf? piece cs).isSome

end Text

namespace Redaction

/-- What stands in place of the client's text. -/
def mark : List Char := "<redacted>".toList

/-- Inside or outside double quotes, and inside them right behind a backslash. -/
inductive Quoting where
  | outside
  | inside
  | escaped

/-- Replaces what stands between double quotes.  A quote behind a backslash does not close. -/
def redactQuoted : Quoting → List Char → List Char
  | .outside, [] => []
  | .inside, [] => mark
  | .escaped, [] => mark
  | .outside, c :: cs => c :: redactQuoted (if c == '"' then .inside else .outside) cs
  | .escaped, _ :: cs => redactQuoted .inside cs
  | .inside, c :: cs =>
    if c == '\\' then redactQuoted .escaped cs
    else if c == '"' then mark ++ '"' :: redactQuoted .outside cs
    else redactQuoted .inside cs

/-- Where the name begins that a message calls unknown. -/
def unknownName? (cs : List Char) : Option Nat :=
  match Text.endOf? "unknown field `".toList cs, Text.endOf? "unknown variant `".toList cs with
  | some a, some b => some (min a b)
  | some a, none => some a
  | none, b => b

/-- Where the value begins that a message calls of the wrong kind: behind the first backtick before
the words on what was expected. -/
def wrongValue? (cs : List Char) : Option Nat :=
  if Text.occursIn "invalid type:".toList cs || Text.occursIn "invalid value:".toList cs then
    let boundary := (Text.indexOf? ", expected".toList cs).getD cs.length
    Text.endOf? ['`'] (cs.take boundary)
  else none

/-- Replaces the text from `start` up to the backtick that closes it: the one before the words on
what was expected if there is one, else the next. -/
def redactFrom (start : Nat) (cs : List Char) : List Char :=
  let rest := cs.drop start
  match (Text.indexOf? "`, expected".toList rest).or (Text.indexOf? ['`'] rest) with
  | some n => cs.take start ++ mark ++ rest.drop n
  | none => cs

/-- The characters of a message without the client's text. -/
def redactChars (cs : List Char) : List Char :=
  let cs := redactQuoted .outside cs
  match (unknownName? cs).or (wrongValue? cs) with
  | some start => redactFrom start cs
  | none => cs

/-- A message without the client's text. -/
def redact (message : String) : String := String.ofList (redactChars message.toList)

end Redaction

end DebugAdapter
