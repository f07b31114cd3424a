/-!
Natural numbers and integers as decimal text, and fixed-width hexadecimal text.
-/

namespace Terminology.Text

/-- The digit for `n`, which is below sixteen; letters are lower case. -/
def digit (n : Nat) : Char :=
  if n < 10 then Char.ofNat (48 + n) else Char.ofNat (87 + n)

def digitValue? (c : Char) : Option Nat :=
  let n := c.toNat
  if 48 ≤ n ∧ n ≤ 57 then some (n - 48)
  else if 97 ≤ n ∧ n ≤ 102 then some (n - 87)
  else if 65 ≤ n ∧ n ≤ 70 then some (n - 55)
  else none

def isDecimalDigit (c : Char) : Bool := 48 ≤ c.toNat && c.toNat ≤ 57

/-- Decimal digits of `n`, most significant first; zero is one digit. -/
def decimal (n : Nat) : List Char :=
  if n < 10 then [digit n] else decimal (n / 10) ++ [digit (n % 10)]
termination_by n

/-- The last `width` decimal digits of `n`, with leading zeros. -/
def decimalPadded : Nat → Nat → List Char
  | 0, _ => []
  | width + 1, n => decimalPadded width (n / 10) ++ [digit (n % 10)]

def hexPadded : Nat → Nat → List Char
  | 0, _ => []
  | width + 1, n => hexPadded width (n / 16) ++ [digit (n % 16)]

/-- Hexadecimal digits of `n` without leading zeros; zero is one digit. -/
def hex (n : Nat) : List Char :=
  if n < 16 then [digit n] else hex (n / 16) ++ [digit (n % 16)]
termination_by n

/-- The number that `cs` denotes as decimal digits, whatever its characters are. -/
def decimalValue (cs : List Char) : Nat :=
  cs.foldl (fun value c => value * 10 + (c.toNat - 48)) 0

def natural? (cs : List Char) : Option Nat :=
  if cs ≠ [] ∧ cs.all isDecimalDigit then some (decimalValue cs) else none

/-- An optional sign and what follows it; the flag says that the sign is a minus. -/
def splitSign : List Char → Bool × List Char
  | '+' :: cs => (false, cs)
  | '-' :: cs => (true, cs)
  | cs => (false, cs)

def integer? (cs : List Char) : Option Int :=
  match splitSign cs with
  | (true, digits) => (natural? digits).map fun n => -(n : Int)
  | (false, digits) => (natural? digits).map fun n => (n : Int)

def signed (i : Int) : List Char :=
  if i < 0 then '-' :: decimal i.natAbs else decimal i.natAbs

end Terminology.Text
