import Terminology.Double.Decimal

/-!
Binary floating point numbers of 64 bits, as mathematical objects: a finite one is a sign and a
multiple of 2 ^ (-1074), so that comparing and rounding are exact arithmetic on natural numbers.
-/

namespace Terminology

/-- The number `significand * 2 ^ (exponent - 1074)`, in the one form that has 53 significant
bits or the least exponent. -/
structure Magnitude where
  significand : Nat
  exponent : Nat
  canonical : significand < 0x20000000000000 ∧ exponent ≤ 2045 ∧
    (exponent = 0 ∨ 0x10000000000000 ≤ significand)
  deriving DecidableEq

namespace Magnitude

def zero : Magnitude := ⟨0, 0, by decide⟩

/-- How many times 2 ^ (-1074) this is. -/
def units (x : Magnitude) : Nat := x.significand <<< x.exponent

def ofParts? (significand exponent : Nat) : Option Magnitude :=
  if h : significand < 0x20000000000000 ∧ exponent ≤ 2045 ∧
      (exponent = 0 ∨ 0x10000000000000 ≤ significand) then
    some ⟨significand, exponent, h⟩
  else none

/-- The quotient `n / d` to the nearest integer, an exact half to the even one. -/
def divideEven (n d : Nat) : Nat :=
  let rest := 2 * (n % d)
  if d < rest ∨ (rest = d ∧ n / d % 2 = 1) then n / d + 1 else n / d

/-- The magnitude nearest to `n / d` times 2 ^ (-1074), an exact half to the even significand;
none if it is beyond the largest. -/
def round? (n d : Nat) : Option Magnitude :=
  let exponent := (n / d).log2 + 1 - 53
  let significand := divideEven n (d <<< exponent)
  if significand = 0x20000000000000 then ofParts? 0x10000000000000 (exponent + 1)
  else ofParts? significand exponent

/-- The magnitude nearest to a decimal. One that is at least 2 ^ 1024 or below 2 ^ (-1076) is
known to have none, or to be zero, without computing the power of ten. -/
def ofDecimal? (d : Decimal) : Option Magnitude :=
  if d.coefficient = 0 then some zero
  else match d.exponent with
    | .ofNat power =>
        if 1024 ≤ d.coefficient.log2 + 3 * power then none
        else round? ((d.coefficient * Nat.pow 10 power) <<< 1074) 1
    | .negSucc power =>
        if d.coefficient.log2 + 1077 < 3 * (power + 1) then some zero
        else round? (d.coefficient <<< 1074) (Nat.pow 10 (power + 1))

end Magnitude

/-- A floating point number of 64 bits; there is one value that is not a number. -/
inductive Double where
  | nan
  | infinite (negative : Bool)
  | finite (negative : Bool) (magnitude : Magnitude)
  deriving DecidableEq

namespace Double

def isFinite : Double → Bool
  | finite .. => true
  | _ => false

/-- Whether two doubles are the same number: nothing is the same as what is not a number, and
the two zeros are the same. -/
def sameNumber : Double → Double → Bool
  | nan, _ | _, nan => false
  | infinite s, infinite t => s == t
  | finite s x, finite t y => x.units == y.units && (s == t || x.units == 0)
  | _, _ => false

def ofDecimal (negative : Bool) (d : Decimal) : Double :=
  match Magnitude.ofDecimal? d with
  | some x => finite negative x
  | none => infinite negative

end Double

end Terminology
