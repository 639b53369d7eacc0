import DebugAdapter.Decimal.Positional

/-!
# Compact numbers

Floating-point numbers as data formats write them: positional while the point falls within or near
the digits, with an exponent elsewhere.  Of two equally near decimals the even one is written.  The
text always shows that the number is not whole-typed.
-/

namespace DebugAdapter.Decimal

/-- An exponent with its mark and its sign. -/
def exponentText (e : Int) : String :=
  (if e < 0 then "e-" else "e+") ++ toString e.natAbs

/-- The decimal `d · 10 ^ e` with an exponent: one digit before the point. -/
def exponential (d : Nat) (e : Int) : String :=
  match Nat.toDigits 10 d with
  | [] => "0"
  | [c] => String.ofList [c] ++ exponentText e
  | c :: cs => String.ofList (c :: '.' :: cs) ++ exponentText (e + cs.length)

/-- The text of a finite number in a data format.  From sixteen places before the point on, or with
five zeros after it, the number is written with an exponent. -/
def compact (x : Float) : String :=
  let bits := x.toBits.toNat
  let field := bits / Nat.pow 2 52 % 2048
  let fraction := bits % Nat.pow 2 52
  let sign := if bits < Nat.pow 2 63 then "" else "-"
  if field == 0 && fraction == 0 then sign ++ "0.0"
  else
    let (d, e) := ofFields .even field fraction
    let places : Int := (Nat.toDigits 10 d).length + e
    if 0 ≤ e && places ≤ 16 then sign ++ positional d e ++ ".0"
    else if -5 < places && places ≤ 16 then sign ++ positional d e
    else sign ++ exponential d e

/-- The positional text of a number, with a point even if it is whole. -/
def pointed (x : Float) : String :=
  let text := ofFloat x
  if x.isFinite && !text.contains '.' then text ++ ".0" else text

end DebugAdapter.Decimal
