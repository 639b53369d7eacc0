import DebugAdapter.Json.Basic

/-!
# JSON numbers

A number without a point and an exponent is whole if it fits 64 bits (signed when negative).  Any
other number is floating-point: the digits that fit 64 bits, scaled by a power of ten.  A number
beyond the floating-point range is refused.
-/

namespace DebugAdapter.Json

/-- The largest whole number of 64 bits. -/
def maxUnsigned : Nat := Nat.pow 2 64 - 1

/-- Powers of ten that floating point holds without overflow: up to `10 ^ 308`. -/
def power (e : Nat) : Float := Float.ofScientific 1 false e

/-- `f · 10 ^ (-e)`, in steps that keep the power within range.  `fuel` bounds the steps. -/
def scaleDown (f : Float) (e : Nat) : Nat → Float
  | 0 => 0.0
  | fuel + 1 =>
    if e ≤ 308 then f / power e
    else if f == 0.0 then f
    else scaleDown (f / power 308) (e - 308) fuel

/-- `significand · 10 ^ exponent`; nothing if that overflows. -/
def scale? (significand : Nat) (exponent : Int) : Option Float :=
  let f := Float.ofNat significand
  if exponent < 0 then some (scaleDown f (-exponent).toNat (exponent.natAbs / 308 + 1))
  else if 308 < exponent then if f == 0.0 then some f else none
  else
    let g := f * power exponent.toNat
    if g.isInf then none else some g

/-- Digits taken into a significand while it fits 64 bits: the significand, how many digits were
taken, and whether one was left out. -/
def takeDigits (significand : Nat) (taken : Nat) : List Char → Nat × Nat × Bool
  | [] => (significand, taken, false)
  | c :: cs =>
    let next := 10 * significand + (c.toNat - '0'.toNat)
    if next ≤ maxUnsigned then takeDigits next (taken + 1) cs else (significand, taken, true)

/-- An exponent after its mark: its value and what follows it. -/
def readExponent? (cs : List Char) : Option (Int × List Char) :=
  let (negative, cs) := match cs with
    | '+' :: r => (false, r)
    | '-' :: r => (true, r)
    | r => (false, r)
  let ds := cs.takeWhile Char.isDigit
  if ds.isEmpty then none
  else
    let n : Int := ds.foldl (fun n c => 10 * n + (c.toNat - '0'.toNat)) 0
    some (if negative then -n else n, cs.dropWhile Char.isDigit)

/-- The floating-point number with the given sign; nothing if it overflows.  An exponent beyond 32
bits leaves zero, or nothing. -/
def real? (negative : Bool) (significand : Nat) (shift exponent : Int) : Option Number :=
  let magnitude :=
    if Nat.pow 2 31 ≤ exponent.natAbs then
      if significand != 0 && 0 < exponent then none else some 0.0
    else scale? significand (shift + exponent)
  magnitude.map fun f => .real (if negative then -f else f)

/-- A number and what follows it. -/
def readNumber? (cs : List Char) : Option (Number × List Char) :=
  let (negative, cs) := match cs with
    | '-' :: r => (true, r)
    | r => (false, r)
  let whole := cs.takeWhile Char.isDigit
  let rest := cs.dropWhile Char.isDigit
  if whole.isEmpty || (whole.head? == some '0' && 1 < whole.length) then none
  else
    let (significand, taken, cut) := takeDigits 0 0 whole
    let skipped : Nat := whole.length - taken
    let (significand, shift, rest, pointed) := match rest with
      | '.' :: r =>
        let fraction := r.takeWhile Char.isDigit
        let (s, n, _) := takeDigits significand 0 fraction
        (s, (skipped : Int) - n, r.dropWhile Char.isDigit, some fraction)
      | r => (significand, (skipped : Int), r, none)
    if pointed.any List.isEmpty then none
    else match rest with
      | c :: r =>
        if c == 'e' || c == 'E' then do
          let (e, r) ← readExponent? r
          return (← real? negative significand shift e, r)
        else plain negative significand shift cut pointed.isSome rest
      | [] => plain negative significand shift cut pointed.isSome rest
where
  /-- A number without an exponent. -/
  plain (negative : Bool) (significand : Nat) (shift : Int) (cut pointed : Bool)
      (rest : List Char) : Option (Number × List Char) :=
    if cut || pointed || (negative && (significand == 0 || Nat.pow 2 63 < significand)) then
      (real? negative significand shift 0).map (·, rest)
    else some (.int (if negative then -(significand : Int) else significand), rest)

end DebugAdapter.Json
