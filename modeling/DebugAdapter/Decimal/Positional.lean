import DebugAdapter.Decimal.Shortest

/-!
# Positional numbers

Numbers written with the shortest digits that read back and without an exponent, whatever their
size.  A whole number has no point.  Of two equally near decimals the greater one is written.
-/

namespace DebugAdapter.Decimal

/-- The decimal `d · 10 ^ e` without an exponent. -/
def positional (d : Nat) (e : Int) : String :=
  let ds := Nat.toDigits 10 d
  if 0 ≤ e then String.ofList (ds ++ List.replicate e.toNat '0')
  else
    let fraction := (-e).toNat
    if fraction < ds.length then
      String.ofList (ds.take (ds.length - fraction) ++ '.' :: ds.drop (ds.length - fraction))
    else String.ofList ('0' :: '.' :: List.replicate (fraction - ds.length) '0' ++ ds)

/-- The digits and the exponent of the number whose 64 bits have the exponent field `field` and
the fraction field `fraction`. -/
def ofFields (tie : Tie) (field fraction : Nat) : Nat × Int :=
  if field == 0 then shortest tie fraction (-1074) false
  else shortest tie (Nat.pow 2 52 + fraction) (field - 1075) (fraction == 0 && 1 < field)

/-- The text of a floating-point number. -/
def ofFloat (x : Float) : String :=
  let bits := x.toBits.toNat
  let field := bits / Nat.pow 2 52 % 2048
  let fraction := bits % Nat.pow 2 52
  let sign := if bits < Nat.pow 2 63 then "" else "-"
  if field == 2047 then if fraction == 0 then sign ++ "inf" else "NaN"
  else if field == 0 && fraction == 0 then sign ++ "0"
  else
    let (d, e) := ofFields .up field fraction
    sign ++ positional d e

end DebugAdapter.Decimal
