/-!
The proleptic Gregorian calendar, with a year zero: dates and the number of days before them.
-/

namespace Terminology

/-- A date; `Date.Valid` says which ones exist. -/
structure Date where
  year : Int
  month : Nat
  day : Nat
  deriving DecidableEq

namespace Date

def isLeap (year : Int) : Bool := year % 4 == 0 && (year % 100 != 0 || year % 400 == 0)

def monthLengths (year : Int) : List Nat :=
  [31, if isLeap year then 29 else 28, 31, 30, 31, 30, 31, 31, 30, 31, 30, 31]

def Valid (date : Date) : Prop :=
  1 ≤ date.month ∧ 1 ≤ date.day ∧
    date.day ≤ (monthLengths date.year).getD (date.month - 1) 0

instance (date : Date) : Decidable date.Valid := by
  unfold Valid
  infer_instance

/-- Days from the first day of year zero to the first day of `year`. -/
def daysBeforeYear (year : Int) : Int :=
  365 * year + (year + 3) / 4 - (year + 99) / 100 + (year + 399) / 400

/-- Days from the first day of a year to the first day of a month in it. -/
def daysBeforeMonth (year : Int) (month : Nat) : Nat :=
  ((monthLengths year).take (month - 1)).foldl (· + ·) 0

def dayNumber (date : Date) : Int :=
  daysBeforeYear date.year + daysBeforeMonth date.year date.month + date.day - 1

/-- The year that the day with the number `n` is in. A year has 146097 / 400 days in the mean, so
the quotient is at most one off. -/
def yearOf (n : Int) : Int :=
  let year := 400 * n / 146097
  if daysBeforeYear (year + 1) ≤ n then year + 1
  else if n < daysBeforeYear year then year - 1
  else year

/-- The month and the day of the day that comes `rest` days after the first of `month`. -/
def locate : Nat → List Nat → Nat → Nat × Nat
  | month, [], rest => (month, rest + 1)
  | month, length :: lengths, rest =>
      if rest < length then (month, rest + 1) else locate (month + 1) lengths (rest - length)

def ofDayNumber (n : Int) : Date :=
  let year := yearOf n
  let (month, day) := locate 1 (monthLengths year) (n - daysBeforeYear year).toNat
  ⟨year, month, day⟩

def epoch : Int := 719528

end Date

end Terminology
