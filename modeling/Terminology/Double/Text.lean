import Terminology.Double.Basic
import Terminology.Text.Character

/-!
Floating point numbers as text. Reading rounds correctly; writing takes the fewest digits that
read back to the same number.
-/

namespace Terminology

open Text

namespace Decimal

/-- Reads `digits`, `digits.digits`, `.digits` or `digits.`, with an exponent after `e` or `E`
if there is one. -/
def read? (cs : List Char) : Option Decimal :=
  let whole := cs.takeWhile isDecimalDigit
  let rest := cs.dropWhile isDecimalDigit
  let fraction := match rest with
    | '.' :: after => after.takeWhile isDecimalDigit
    | _ => []
  let rest := match rest with
    | '.' :: after => after.dropWhile isDecimalDigit
    | _ => rest
  let power := match rest with
    | [] => some 0
    | c :: after => if c = 'e' ∨ c = 'E' then integer? after else none
  if whole ++ fraction = [] then none
  else power.map fun p => ⟨decimalValue (whole ++ fraction), p - fraction.length⟩

end Decimal

namespace Magnitude

/-- The least `p` such that `x` is below 10 ^ p, for an `x` other than zero. -/
def pointPlace (x : Magnitude) : Int :=
  (decimal ((x.units * Nat.pow 10 400) >>> 1074)).length - 400

/-- The two neighbours of `x` among the decimals of `count` digits, the nearer one first; halfway
between them it is the upper one. -/
def neighbours (x : Magnitude) (count : Nat) : List Decimal :=
  let power := x.pointPlace - count
  let n := x.units * Nat.pow 10 (-power).toNat
  let d := Nat.pow 10 power.toNat <<< 1074
  let lower : Decimal := ⟨n / d, power⟩
  let upper : Decimal :=
    if n / d + 1 = Nat.pow 10 count then ⟨1, x.pointPlace⟩ else ⟨n / d + 1, power⟩
  if 2 * (n % d) < d then [lower, upper] else [upper, lower]

def exact (x : Magnitude) : Decimal := ⟨x.units * Nat.pow 5 1074, -1074⟩

/-- The decimal with the fewest digits that reads back as `x`, of two such the nearer one. -/
def shortest (x : Magnitude) : Decimal :=
  if x.units = 0 then ⟨0, 0⟩
  else
    let candidates := (List.range 17).flatMap fun digits => x.neighbours (digits + 1)
    (candidates.find? fun d => ofDecimal? d == some x).getD x.exact

end Magnitude

namespace Double

/-- Reads an optional sign and a decimal, `inf`, `infinity` or `nan`; the words in any case. -/
def read? (s : String) : Option Double :=
  let (negative, cs) := splitSign s.toList
  let word := String.ofList (cs.map lowerCase)
  if word = "inf" ∨ word = "infinity" then some (infinite negative)
  else if word = "nan" then some nan
  else (Decimal.read? cs).map (ofDecimal negative)

def signed (negative : Bool) (cs : List Char) : String :=
  String.ofList (if negative then '-' :: cs else cs)

/-- The shortest digits, in positional notation however large the number is. -/
def text : Double → String
  | nan => "NaN"
  | infinite negative => signed negative ['i', 'n', 'f']
  | finite negative x => signed negative x.shortest.positional

/-- The shortest digits as diagnostics show them: numbers of at least 10 ^ 16 or below 10 ^ (-4)
with an exponent, others with a fraction even if it is zero. -/
def diagnostic : Double → String
  | finite negative x =>
      let d := x.shortest
      signed negative <|
        if d.coefficient ≠ 0 ∧ (16 ≤ d.magnitude ∨ d.magnitude < -4) then d.scientific
        else if 0 ≤ d.exponent then d.positional ++ ['.', '0'] else d.positional
  | x => x.text

end Double

end Terminology
