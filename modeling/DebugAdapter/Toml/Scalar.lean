import DebugAdapter.Json.Reader
import DebugAdapter.Decimal.Reading

/-!
# TOML scalars

Strings in their four forms, numbers, booleans and dates.  Every reader returns the characters it
leaves.  Dates and times have to be those of a calendar and a clock, but nothing is configured by
them: they are kept as records that no setting is read from.
-/

namespace DebugAdapter.Toml

/-- Blanks within a line. -/
def isSpace (c : Char) : Bool := c == ' ' || c == '\t'

def skipSpace (cs : List Char) : List Char := cs.dropWhile isSpace

/-- A control character, which neither strings nor comments may hold. -/
def isControl (c : Char) : Bool := (c.toNat < 32 && c != '\t') || c.toNat == 127

/-- The code point that so many hexadecimal digits name. -/
def readCodePoint? (count : Nat) (cs : List Char) : Option (Char × List Char) := do
  let digits ← (cs.take count).mapM Json.hexDigit?
  let n := digits.foldl (fun n d => 16 * n + d) 0
  if digits.length == count && n.isValidChar then some (Char.ofNat n, cs.drop count) else none

/-- What a backslash introduces. -/
def readEscape? : List Char → Option (Char × List Char)
  | 'b' :: r => some ('\x08', r)
  | 't' :: r => some ('\t', r)
  | 'n' :: r => some ('\n', r)
  | 'f' :: r => some ('\x0c', r)
  | 'r' :: r => some ('\r', r)
  | '"' :: r => some ('"', r)
  | '\\' :: r => some ('\\', r)
  | 'u' :: r => readCodePoint? 4 r
  | 'U' :: r => readCodePoint? 8 r
  | _ => none

/-- The rest of a string on one line; only `escapes` decides whether a backslash is special. -/
def readLineString? (quote : Char) (escapes : Bool) (acc : List Char) :
    Nat → List Char → Option (String × List Char)
  | 0, _ => none
  | _ + 1, [] => none
  | fuel + 1, c :: cs =>
    if c == quote then some (String.ofList acc.reverse, cs)
    else if escapes && c == '\\' then do
      let (c, cs) ← readEscape? cs
      readLineString? quote escapes (c :: acc) fuel cs
    else if isControl c then none
    else readLineString? quote escapes (c :: acc) fuel cs

/-- What remains after blanks and line ends.  A carriage return alone ends no line. -/
def skipBlankLines : List Char → List Char
  | '\n' :: r => skipBlankLines r
  | '\r' :: '\n' :: r => skipBlankLines r
  | c :: r => if isSpace c then skipBlankLines r else c :: r
  | [] => []

/-- What remains after a backslash that ends a line: all blanks and line ends are passed over. -/
def continuation? (cs : List Char) : Option (List Char) :=
  match skipSpace cs with
  | '\n' :: r => some (skipBlankLines r)
  | '\r' :: '\n' :: r => some (skipBlankLines r)
  | _ => none

/-- The rest of a string over several lines.  Up to two quotes may stand right before the closing
ones. -/
def readBlockString? (quote : Char) (escapes : Bool) (acc : List Char) :
    Nat → List Char → Option (String × List Char)
  | 0, _ => none
  | _ + 1, [] => none
  | fuel + 1, c :: cs =>
    if c == quote then
      let run := (c :: cs).takeWhile (· == quote)
      if run.length < 3 then readBlockString? quote escapes (c :: acc) fuel cs
      else if 5 < run.length then none
      else
        let text := List.replicate (run.length - 3) quote ++ acc
        some (String.ofList text.reverse, (c :: cs).drop run.length)
    else if escapes && c == '\\' then
      match continuation? cs with
      | some cs => readBlockString? quote escapes acc fuel cs
      | none => do
        let (c, cs) ← readEscape? cs
        readBlockString? quote escapes (c :: acc) fuel cs
    else if c == '\n' then readBlockString? quote escapes ('\n' :: acc) fuel cs
    else if c == '\r' then
      match cs with
      | '\n' :: cs => readBlockString? quote escapes ('\n' :: acc) fuel cs
      | _ => none
    else if isControl c then none
    else readBlockString? quote escapes (c :: acc) fuel cs

/-- A string of any form. -/
def readString? (cs : List Char) : Option (String × List Char) :=
  let fuel := cs.length + 1
  match cs with
  | '"' :: '"' :: '"' :: r => readBlockString? '"' true [] fuel (dropNewline r)
  | '\'' :: '\'' :: '\'' :: r => readBlockString? '\'' false [] fuel (dropNewline r)
  | '"' :: r => readLineString? '"' true [] fuel r
  | '\'' :: r => readLineString? '\'' false [] fuel r
  | _ => none
where
  dropNewline : List Char → List Char
    | '\n' :: r => r
    | '\r' :: '\n' :: r => r
    | r => r

/-- Digits with single underscores between them, without the underscores. -/
def plainDigits? (isDigit : Char → Bool) (cs : List Char) : Option (List Char) :=
  go false cs
where
  /-- `afterDigit` tells whether a digit has just been read. -/
  go (afterDigit : Bool) : List Char → Option (List Char)
    | [] => if afterDigit then some [] else none
    | '_' :: cs => if afterDigit then go false cs else none
    | c :: cs => if isDigit c then (go true cs).map (c :: ·) else none

/-- The number that digits of a base write. -/
def ofDigits (base : Nat) (ds : List Char) : Nat :=
  ds.foldl (fun n c => base * n + (Json.hexDigit? c).getD 0) 0

/-- Decimal digits that do not begin with a zero, unless that is all. -/
def wholePart? (cs : List Char) : Option (List Char) := do
  let ds ← plainDigits? Char.isDigit cs
  if ds.head? == some '0' && 1 < ds.length then none else some ds

/-- A whole number of 64 bits. -/
def integer? (word : List Char) : Option Int :=
  let inRange (n : Int) : Option Int := if -Nat.pow 2 63 ≤ n && n < Nat.pow 2 63 then some n else none
  let based (base : Nat) (isDigit : Char → Bool) (r : List Char) : Option Int := do
    inRange (ofDigits base (← plainDigits? isDigit r))
  match word with
  | '0' :: 'x' :: r => based 16 (fun c => (Json.hexDigit? c).isSome) r
  | '0' :: 'o' :: r => based 8 (fun c => '0' ≤ c && c ≤ '7') r
  | '0' :: 'b' :: r => based 2 (fun c => c == '0' || c == '1') r
  | '-' :: r => do inRange (-(ofDigits 10 (← wholePart? r) : Int))
  | '+' :: r => do inRange (ofDigits 10 (← wholePart? r))
  | r => do inRange (ofDigits 10 (← wholePart? r))

/-- The digits, the places behind the point and the exponent of a floating-point number. -/
def realParts? (cs : List Char) : Option (Nat × Nat × Int) := do
  let whole := cs.takeWhile fun c => c != '.' && c != 'e' && c != 'E'
  let rest := cs.dropWhile fun c => c != '.' && c != 'e' && c != 'E'
  let w ← wholePart? whole
  let (f, rest) ← match rest with
    | '.' :: r =>
      let fraction := r.takeWhile fun c => c != 'e' && c != 'E'
      (plainDigits? Char.isDigit fraction).map (·, r.dropWhile fun c => c != 'e' && c != 'E')
    | r => some ([], r)
  let e ← match rest with
    | [] => if f.isEmpty then none else some 0
    | _ :: '-' :: r => (plainDigits? Char.isDigit r).map fun ds => -(ofDigits 10 ds : Int)
    | _ :: '+' :: r => (plainDigits? Char.isDigit r).map fun ds => (ofDigits 10 ds : Int)
    | _ :: r => (plainDigits? Char.isDigit r).map fun ds => (ofDigits 10 ds : Int)
  return (ofDigits 10 (w ++ f), f.length, e)

/-- A floating-point number.  Beyond the range a negative one is infinite and a positive one is
refused. -/
def real? (word : List Char) : Option Float := do
  let (negative, r) := match word with
    | '-' :: r => (true, r)
    | '+' :: r => (false, r)
    | r => (false, r)
  let magnitude ←
    if r == "inf".toList then some (1.0 / 0.0)
    else if r == "nan".toList then some (0.0 / 0.0)
    else do
      let (digits, fraction, e) ← realParts? r
      let e := e - fraction
      let places := Decimal.digitCount digits + e
      let x :=
        if digits == 0 || places < -400 then 0.0
        else if 400 < places then 1.0 / 0.0
        else Float.ofScientific digits (e < 0) e.natAbs
      if x.isInf && !negative then none else some x
  return if negative then -magnitude else magnitude

/-- Two digits that name a number within bounds. -/
def twoDigits (low high : Nat) : List Char → Bool
  | [a, b] =>
    a.isDigit && b.isDigit &&
      let n := ofDigits 10 [a, b]
      low ≤ n && n ≤ high
  | _ => false

/-- A year with a twenty-ninth of February: every fourth, but of the centuries only every fourth. -/
def isLeapYear (year : Nat) : Bool := year % 4 == 0 && (year % 100 != 0 || year % 400 == 0)

/-- The number of days of a month, January being 1. -/
def daysIn (year month : Nat) : Nat :=
  if month == 2 then if isLeapYear year then 29 else 28
  else if [4, 6, 9, 11].contains month then 30
  else 31

/-- A date of the calendar: four digits for the year, month and day. -/
def isDate (cs : List Char) : Bool :=
  let year := cs.take 4
  let month := (cs.drop 5).take 2
  cs.length == 10 && year.all Char.isDigit && (cs.drop 4).head? == some '-' &&
    twoDigits 1 12 month && (cs.drop 7).head? == some '-' &&
    twoDigits 1 (daysIn (ofDigits 10 year) (ofDigits 10 month)) (cs.drop 8)

/-- A time of day, with any number of digits behind the seconds. -/
def isTime (cs : List Char) : Bool :=
  twoDigits 0 23 (cs.take 2) && (cs.drop 2).head? == some ':' &&
    twoDigits 0 59 ((cs.drop 3).take 2) && (cs.drop 5).head? == some ':' &&
    twoDigits 0 60 ((cs.drop 6).take 2) &&
    match cs.drop 8 with
    | [] => true
    | '.' :: ds => !ds.isEmpty && ds.all Char.isDigit
    | _ => false

/-- A distance from universal time. -/
def isOffset (cs : List Char) : Bool :=
  match cs with
  | [] => true
  | ['Z'] => true
  | ['z'] => true
  | c :: r =>
    (c == '+' || c == '-') && r.length == 5 && twoDigits 0 23 (r.take 2) &&
      (r.drop 2).head? == some ':' && twoDigits 0 59 (r.drop 3)

/-- A date, a time, or both with or without an offset. -/
def isMoment (cs : List Char) : Bool :=
  isDate cs || isTime cs ||
    (isDate (cs.take 10) && ['T', 't', ' '].contains ((cs.drop 10).headD 'x') &&
      let r := cs.drop 11
      let time := r.takeWhile fun c => c.isDigit || c == ':' || c == '.'
      isTime time && isOffset (r.drop time.length))

/-- A character of a number, a boolean or a date. -/
def isWordChar (c : Char) : Bool :=
  c.isAlphanum || c == '_' || c == '+' || c == '-' || c == '.' || c == ':'

/-- The characters of a scalar without quotes.  A date may be followed by a blank and a time. -/
def word (cs : List Char) : List Char :=
  let w := cs.takeWhile isWordChar
  match cs.drop w.length with
  | ' ' :: c :: r =>
    if isDate w && c.isDigit then w ++ ' ' :: (c :: r).takeWhile isWordChar else w
  | _ => w

/-- The only member of a date or time, which is a record wherever one looks into it. -/
def momentMember : String := "$__toml_private_datetime"

/-- A scalar without quotes. -/
def readWord? (cs : List Char) : Option (Json × List Char) :=
  let w := word cs
  let rest := cs.drop w.length
  if w == "true".toList then some (.bool true, rest)
  else if w == "false".toList then some (.bool false, rest)
  else match integer? w with
    | some n => some (.num (.int n), rest)
    | none =>
      match real? w with
      | some x => some (.num (.real x), rest)
      | none =>
        if isMoment w then some (.obj [(momentMember, .str (String.ofList w))], rest) else none

end DebugAdapter.Toml
