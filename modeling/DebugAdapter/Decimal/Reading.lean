/-!
# Reading numbers

What text counts as a number, and whether the number it names is zero once rounded to 64-bit
floating point.
-/

namespace DebugAdapter.Decimal

/-- The number that a list of digits writes. -/
def ofDigits (ds : List Char) : Nat :=
  ds.foldl (fun n c => 10 * n + (c.toNat - '0'.toNat)) 0

/-- A decimal written with a point and an exponent: `digits · 10 ^ exponent`. -/
structure Scientific where
  digits : Nat
  exponent : Int

/-- The number of decimal digits of a natural number; none for zero. -/
def digitCount (n : Nat) : Nat := if n == 0 then 0 else (Nat.toDigits 10 n).length

/-- The decimal rounds to zero: it is at most half of the least positive number, `2 ^ (-1074)`.
Decimals far from that size are judged by their number of places alone. -/
def Scientific.roundsToZero (s : Scientific) : Bool :=
  if s.digits == 0 then true
  else
    let places : Int := digitCount s.digits + s.exponent
    if places < -330 then true
    else if -300 < places then false
    else s.digits * Nat.pow 2 1075 ≤ Nat.pow 10 (-s.exponent).toNat

/-- An exponent: an optional sign and at least one digit. -/
def readExponent? (cs : List Char) : Option Int :=
  let (negative, ds) := match cs with
    | '+' :: r => (false, r)
    | '-' :: r => (true, r)
    | r => (false, r)
  if ds.isEmpty || !ds.all Char.isDigit then none
  else some (if negative then -(ofDigits ds : Int) else ofDigits ds)

/-- An unsigned decimal: digits with a point anywhere among them or none, and an exponent. -/
def readScientific? (cs : List Char) : Option Scientific :=
  let whole := cs.takeWhile Char.isDigit
  let rest := cs.dropWhile Char.isDigit
  let (fraction, rest) := match rest with
    | '.' :: r => (r.takeWhile Char.isDigit, r.dropWhile Char.isDigit)
    | r => ([], r)
  if whole.isEmpty && fraction.isEmpty then none
  else
    let digits := ofDigits (whole ++ fraction)
    match rest with
    | [] => some ⟨digits, -fraction.length⟩
    | c :: r =>
      if c == 'e' || c == 'E' then
        (readExponent? r).map fun e => ⟨digits, e - fraction.length⟩
      else none

/-- Whether the number that the text names is different from zero; nothing if it names none.
Besides decimals, infinities and the undefined number have names, in any letter case. -/
def isNonzero? (text : String) : Option Bool :=
  let cs := match text.toList with
    | '+' :: r => r
    | '-' :: r => r
    | r => r
  let word := String.ofList (cs.map Char.toLower)
  if word == "inf" || word == "infinity" || word == "nan" then some true
  else (readScientific? cs).map (!·.roundsToZero)

/-- An unsigned whole number below `limit`: digits, with a plus sign before them if wanted. -/
def readNat? (limit : Nat) (cs : List Char) : Option Nat :=
  let ds := match cs with
    | '+' :: r => r
    | r => r
  if ds.isEmpty || !ds.all Char.isDigit then none
  else
    let n := ofDigits ds
    if n < limit then some n else none

end DebugAdapter.Decimal
