import Terminology.Calendar

/-!
Days and dates: every day has a date that exists, in the year that the day lies in, and the date
has the number of the day.
-/

namespace Terminology.Date

/-- A year has 146097 / 400 days in the mean; no year is two days off. -/
theorem daysBeforeYear_bounds (year : Int) :
    146097 * year ≤ 400 * daysBeforeYear year + 396 ∧
      400 * daysBeforeYear year ≤ 146097 * year + 699 := by
  simp only [daysBeforeYear]
  omega

theorem yearOf_spec (n : Int) :
    daysBeforeYear (yearOf n) ≤ n ∧ n < daysBeforeYear (yearOf n + 1) := by
  unfold yearOf
  simp only
  have mean := daysBeforeYear_bounds (400 * n / 146097 - 1)
  have next := daysBeforeYear_bounds (400 * n / 146097 + 1 + 1)
  split
  · exact ⟨‹_›, by omega⟩
  · split
    · have same : 400 * n / 146097 - 1 + 1 = 400 * n / 146097 := by omega
      rw [same]
      exact ⟨by omega, ‹_›⟩
    · exact ⟨by omega, by omega⟩

theorem le_yearOf_iff (year n : Int) : year ≤ yearOf n ↔ daysBeforeYear year ≤ n := by
  obtain ⟨begun, unfinished⟩ := yearOf_spec n
  have here := daysBeforeYear_bounds year
  have first := daysBeforeYear_bounds (yearOf n)
  have next := daysBeforeYear_bounds (yearOf n + 1)
  constructor
  · intro before
    rcases Int.lt_or_eq_of_le before with earlier | rfl
    · omega
    · exact begun
  · intro reached
    apply Int.not_lt.mp
    intro later
    rcases Int.lt_or_eq_of_le (Int.add_one_le_of_lt later) with after | same
    · omega
    · rw [same] at unfinished
      omega

theorem daysBeforeYear_succ (year : Int) :
    daysBeforeYear (year + 1) = daysBeforeYear year + if isLeap year then 366 else 365 := by
  simp only [daysBeforeYear, isLeap, Bool.and_eq_true, Bool.or_eq_true, beq_iff_eq, bne_iff_ne]
  split <;> omega

/-- The number of days in months of the given lengths. -/
def daysIn (lengths : List Nat) : Nat := lengths.foldl (· + ·) 0

theorem daysIn_nil : daysIn [] = 0 := rfl

theorem daysIn_cons (length : Nat) (lengths : List Nat) :
    daysIn (length :: lengths) = length + daysIn lengths := by
  rw [daysIn, daysIn, ← List.sum_eq_foldl, ← List.sum_eq_foldl, List.sum_cons]

theorem daysIn_monthLengths (year : Int) :
    (daysIn (monthLengths year) : Int) = daysBeforeYear (year + 1) - daysBeforeYear year := by
  rw [daysBeforeYear_succ]
  by_cases leap : isLeap year
  · have total : daysIn (monthLengths year) = 366 := by simp [monthLengths, leap, daysIn]
    rw [total, if_pos leap]
    omega
  · have total : daysIn (monthLengths year) = 365 := by simp [monthLengths, leap, daysIn]
    rw [total, if_neg leap]
    omega

theorem locate_spec (lengths : List Nat) (month rest : Nat) (inside : rest < daysIn lengths) :
    ∃ index, index < lengths.length ∧ (locate month lengths rest).1 = month + index ∧
      1 ≤ (locate month lengths rest).2 ∧
      (locate month lengths rest).2 ≤ lengths.getD index 0 ∧
      daysIn (lengths.take index) + (locate month lengths rest).2 = rest + 1 := by
  induction lengths generalizing month rest with
  | nil => exact absurd inside (Nat.not_lt_zero rest)
  | cons length lengths ih =>
      by_cases here : rest < length
      · refine ⟨0, by simp, ?_⟩
        simp only [locate, here, if_true]
        exact ⟨rfl, by omega, by simpa using Nat.succ_le_of_lt here, by simp [daysIn_nil]⟩
      · rw [daysIn_cons] at inside
        obtain ⟨index, below, found, positive, fits, total⟩ :=
          ih (month + 1) (rest - length) (by omega)
        refine ⟨index + 1, by simpa using below, ?_⟩
        simp only [locate, here, if_false]
        refine ⟨by omega, positive, by simpa using fits, ?_⟩
        rw [List.take_succ_cons, daysIn_cons]
        omega

theorem daysBeforeMonth_eq (year : Int) (month : Nat) :
    daysBeforeMonth year month = daysIn ((monthLengths year).take (month - 1)) := rfl

/-- Every day is the day of a date that exists, and of the year that it lies in. -/
theorem ofDayNumber_spec (n : Int) :
    (ofDayNumber n).Valid ∧ (ofDayNumber n).dayNumber = n ∧ (ofDayNumber n).month ≤ 12 := by
  have year := yearOf_spec n
  have days := daysIn_monthLengths (yearOf n)
  have inside : (n - daysBeforeYear (yearOf n)).toNat < daysIn (monthLengths (yearOf n)) := by omega
  obtain ⟨index, below, month, positive, fits, total⟩ :=
    locate_spec (monthLengths (yearOf n)) 1 _ inside
  have twelve : (monthLengths (yearOf n)).length = 12 := rfl
  refine ⟨⟨?_, positive, ?_⟩, ?_, ?_⟩
  · simp only [ofDayNumber, month]
    omega
  · simp only [ofDayNumber, month, Nat.add_sub_cancel_left]
    exact fits
  · simp only [dayNumber, daysBeforeMonth_eq, ofDayNumber, month, Nat.add_sub_cancel_left]
    omega
  · simp only [ofDayNumber, month]
    omega

end Terminology.Date
