/-!
# Shortest decimals

The decimal of fewest digits that reads back as a given binary number.  The number is `m · 2 ^ q`,
and a decimal reads back if it lies between the midpoints to the two neighbouring binary numbers;
the midpoints themselves count when `m` is even.  Everything is exact arithmetic on naturals.
-/

namespace DebugAdapter.Decimal

/-- A positive fraction. -/
structure Fraction where
  num : Nat
  den : Nat

namespace Fraction

/-- The fraction `m · 2 ^ q`. -/
def binary (m : Nat) (q : Int) : Fraction :=
  if 0 ≤ q then ⟨m * Nat.pow 2 q.toNat, 1⟩ else ⟨m, Nat.pow 2 (-q).toNat⟩

/-- The fraction `d · 10 ^ e`. -/
def decimal (d : Nat) (e : Int) : Fraction :=
  if 0 ≤ e then ⟨d * Nat.pow 10 e.toNat, 1⟩ else ⟨d, Nat.pow 10 (-e).toNat⟩

def le (a b : Fraction) : Bool := a.num * b.den ≤ b.num * a.den

def lt (a b : Fraction) : Bool := a.num * b.den < b.num * a.den

/-- The distance between two fractions. -/
def dist (a b : Fraction) : Fraction :=
  let x := a.num * b.den
  let y := b.num * a.den
  ⟨(x - y) + (y - x), a.den * b.den⟩

/-- The whole part of `a / (10 ^ e)`. -/
def floorAt (a : Fraction) (e : Int) : Nat :=
  if 0 ≤ e then a.num / (a.den * Nat.pow 10 e.toNat) else a.num * Nat.pow 10 (-e).toNat / a.den

/-- The number of places before the point; for a fraction below one, minus the number of zeros
right after it.  `fuel` bounds those zeros. -/
def places (a : Fraction) (fuel : Nat) : Int :=
  let whole := a.num / a.den
  if 0 < whole then (Nat.toDigits 10 whole).length else go a.num 0 fuel
where
  go (num : Nat) (zeros : Nat) : Nat → Int
    | 0 => -(zeros : Int)
    | fuel + 1 => if a.den ≤ num * 10 then -(zeros : Int) else go (num * 10) (zeros + 1) fuel

end Fraction

/-- The decimals that read back as one binary number. -/
structure Neighbourhood where
  low : Fraction
  high : Fraction
  closed : Bool

/-- The decimals that read back as `m · 2 ^ q`.  Below a power of two the numbers lie twice as
dense, so the midpoint on that side is nearer; `narrow` says so. -/
def Neighbourhood.of (m : Nat) (q : Int) (narrow : Bool) : Neighbourhood where
  low := .binary (4 * m - if narrow then 1 else 2) (q - 2)
  high := .binary (4 * m + 2) (q - 2)
  closed := m % 2 == 0

def Neighbourhood.contains (n : Neighbourhood) (a : Fraction) : Bool :=
  if n.closed then n.low.le a && a.le n.high else n.low.lt a && a.lt n.high

/-- The decimal `d · 10 ^ e` without trailing zeros in `d`; `fuel` bounds them. -/
def dropZeros (d : Nat) (e : Int) : Nat → Nat × Int
  | 0 => (d, e)
  | fuel + 1 => if d % 10 == 0 && d != 0 then dropZeros (d / 10) (e + 1) fuel else (d, e)

/-- Which of two equally near decimals is taken. -/
inductive Tie where
  /-- The greater one. -/
  | up
  /-- The one with an even last digit. -/
  | even

/-- Whether `d + 1` is taken where `d` is as near. -/
def Tie.goesUp : Tie → Nat → Bool
  | .up, _ => true
  | .even, d => d % 2 == 1

/-- The nearer of the two neighbours of `a` on the grid `10 ^ e` that lies in the neighbourhood;
of two equally near ones, as `tie` says. -/
def onGrid? (tie : Tie) (n : Neighbourhood) (a : Fraction) (e : Int) : Option Nat :=
  let d := a.floorAt e
  let below := Fraction.decimal d e
  let above := Fraction.decimal (d + 1) e
  if n.contains below && 0 < d then
    let up := a.dist above
    let down := a.dist below
    if n.contains above && (up.lt down || (up.le down && tie.goesUp d)) then some (d + 1)
    else some d
  else if n.contains above then some (d + 1)
  else none

/-- The fewest digits, from `17 - fuel + 1` of them on, that read back as `a`. -/
def fewest (tie : Tie) (n : Neighbourhood) (a : Fraction) (top : Int) : Nat → Nat × Int
  | 0 => (a.floorAt (top - 17), top - 17)
  | fuel + 1 =>
    let e := top - (17 - fuel : Nat)
    match onGrid? tie n a e with
    | some d => dropZeros d e 20
    | none => fewest tie n a top fuel

/-- The digits `d` and the exponent `e` of the shortest decimal `d · 10 ^ e` for `m · 2 ^ q`. -/
def shortest (tie : Tie) (m : Nat) (q : Int) (narrow : Bool) : Nat × Int :=
  let a := Fraction.binary m q
  fewest tie (.of m q narrow) a (a.places 400) 17

end DebugAdapter.Decimal
