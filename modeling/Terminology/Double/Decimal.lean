import Terminology.Text.Decimal

/-!
Finite decimals, and the two notations for them: positional and with an exponent.
-/

namespace Terminology

structure Decimal where
  coefficient : Nat
  exponent : Int
  deriving DecidableEq

namespace Decimal

open Text

/-- Digits, a point if there is a fraction, and never an exponent. -/
def positional (d : Decimal) : List Char :=
  let digits := decimal d.coefficient
  let places := (-d.exponent).toNat
  if 0 ≤ d.exponent then digits ++ List.replicate d.exponent.toNat '0'
  else if places < digits.length then
    digits.take (digits.length - places) ++ '.' :: digits.drop (digits.length - places)
  else '0' :: '.' :: List.replicate (places - digits.length) '0' ++ digits

/-- The power of ten of the first digit. -/
def magnitude (d : Decimal) : Int := d.exponent + (decimal d.coefficient).length - 1

/-- One digit, the others behind a point, and the power of ten of the first. -/
def scientific (d : Decimal) : List Char :=
  match decimal d.coefficient with
  | [] => []
  | first :: [] => first :: 'e' :: signed d.magnitude
  | first :: rest => first :: '.' :: rest ++ 'e' :: signed d.magnitude

end Decimal

end Terminology
