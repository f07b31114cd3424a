import Terminology.Instant.Basic
import Terminology.Text.Decimal

/-!
Instants as RFC 3339 text.
-/

namespace Terminology.Instant

open Text

/-- Four digits for the years zero to 9999; other years have a sign. -/
def yearText (year : Int) : List Char :=
  if 0 ≤ year ∧ year ≤ 9999 then decimalPadded 4 year.toNat
  else
    let sign := if year < 0 then '-' else '+'
    let n := year.natAbs
    sign :: if n < 10000 then decimalPadded 4 n else decimal n

/-- No fraction, or 3, 6 or 9 digits of it: the fewest that lose nothing. -/
def fractionText (nanos : Nat) : List Char :=
  if nanos = 0 then []
  else if nanos % 1000000 = 0 then '.' :: decimalPadded 3 (nanos / 1000000)
  else if nanos % 1000 = 0 then '.' :: decimalPadded 6 (nanos / 1000)
  else '.' :: decimalPadded 9 nanos

def dateText (date : Date) : List Char :=
  yearText date.year ++ '-' :: decimalPadded 2 date.month ++ '-' :: decimalPadded 2 date.day

/-- Hour, minute and second; a leap second is second sixty. -/
def clockText (t : Instant) : List Char :=
  let n := t.secondOfDay
  let second := n % 60 + if t.isLeapSecond then 1 else 0
  decimalPadded 2 (n / 3600) ++ ':' :: decimalPadded 2 (n / 60 % 60) ++
    ':' :: decimalPadded 2 second

def text (t : Instant) : String :=
  String.ofList
    (dateText t.date ++ 'T' :: clockText t ++ fractionText (t.nanos % 1000000000) ++ ['Z'])

def field? (width : Nat) (cs : List Char) : Option (Nat × List Char) :=
  let digits := cs.take width
  if digits.length = width ∧ digits.all isDecimalDigit then
    some (decimalValue digits, cs.drop width)
  else none

def skip? (p : Char → Bool) : List Char → Option (List Char)
  | [] => none
  | c :: cs => if p c then some cs else none

def date? (cs : List Char) : Option (Date × List Char) := do
  let (year, cs) ← field? 4 cs
  let cs ← skip? (· == '-') cs
  let (month, cs) ← field? 2 cs
  let cs ← skip? (· == '-') cs
  let (day, cs) ← field? 2 cs
  let date : Date := ⟨year, month, day⟩
  if date.Valid then some (date, cs) else none

/-- The second of the day, and the nanoseconds that a leap second begins with. -/
def clock? (cs : List Char) : Option ((Nat × Nat) × List Char) := do
  let (hour, cs) ← field? 2 cs
  let cs ← skip? (· == ':') cs
  let (minute, cs) ← field? 2 cs
  let cs ← skip? (· == ':') cs
  let (second, cs) ← field? 2 cs
  if hour ≤ 23 ∧ minute ≤ 59 ∧ second ≤ 60 then
    let start := hour * 3600 + minute * 60
    some (if second = 60 then (start + 59, 1000000000) else (start + second, 0), cs)
  else none

/-- Nanoseconds of a fraction if there is one; digits past the ninth are dropped. -/
def fraction? : List Char → Option (Nat × List Char)
  | '.' :: cs =>
      let digits := cs.takeWhile isDecimalDigit
      if digits = [] then none
      else some (decimalValue ((digits ++ List.replicate 9 '0').take 9),
        cs.dropWhile isDecimalDigit)
  | cs => some (0, cs)

/-- Seconds that local time is ahead of universal time; less than a day. -/
def offset? (cs : List Char) : Option Int :=
  match cs with
  | ['Z'] | ['z'] => some 0
  | sign :: cs =>
      if sign = '+' ∨ sign = '-' ∨ sign = '\u2212' then do
        let (hour, cs) ← field? 2 cs
        let cs ← skip? (· == ':') cs
        let (minute, cs) ← field? 2 cs
        if cs = [] ∧ hour ≤ 23 ∧ minute ≤ 59 then
          let ahead : Int := hour * 3600 + minute * 60
          some (if sign = '+' then ahead else -ahead)
        else none
      else none
  | [] => none

def read? (s : String) : Option Instant := do
  let (date, cs) ← date? s.toList
  let cs ← skip? (fun c => c == 'T' || c == 't' || c == ' ') cs
  let ((second, leap), cs) ← clock? cs
  let (nanos, cs) ← fraction? cs
  let ahead ← offset? cs
  ofParts? ((date.dayNumber - Date.epoch) * 86400 + second - ahead) (leap + nanos)

end Terminology.Instant
