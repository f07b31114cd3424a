import Mathlib.Tactic.IntervalCases
import Terminology.Proofs.Calendar

/-!
The calendar without arithmetic on years: dates follow one another by the lengths of the months,
and the days are counted from the first of January 1970 in both directions. Every day is counted,
and the count is the difference of the numbers that dates are calculated to have.
-/

namespace Terminology.Date

/-- Every fourth year is longer, of the centuries every fourth one. -/
def monthLength (year : Int) (month : Nat) : Nat :=
  if month = 2 then if 4 ∣ year ∧ (100 ∣ year → 400 ∣ year) then 29 else 28
  else if month ∈ [4, 6, 9, 11] then 30 else 31

/-- The second date is that of the day behind the day of the first one. -/
inductive Follows : Date → Date → Prop
  | day {year : Int} {month day : Nat} (first : 1 ≤ month) (last : month ≤ 12) (begun : 1 ≤ day)
      (room : day < monthLength year month) : Follows ⟨year, month, day⟩ ⟨year, month, day + 1⟩
  | month {year : Int} {month : Nat} (first : 1 ≤ month) (others : month < 12) :
      Follows ⟨year, month, monthLength year month⟩ ⟨year, month + 1, 1⟩
  | year {year : Int} : Follows ⟨year, 12, 31⟩ ⟨year + 1, 1, 1⟩

/-- The date of the day that lies as many days behind the first of January 1970. -/
inductive DayOf : Date → Int → Prop
  | epoch : DayOf ⟨1970, 1, 1⟩ 0
  | after {d e : Date} {n : Int} (follows : Follows d e) (day : DayOf d n) : DayOf e (n + 1)
  | before {d e : Date} {n : Int} (follows : Follows d e) (day : DayOf e n) : DayOf d (n - 1)

variable {d e : Date} {n : Int} {year : Int} {month : Nat}

theorem isLeap_iff (year : Int) :
    isLeap year = true ↔ 4 ∣ year ∧ (100 ∣ year → 400 ∣ year) := by
  simp only [isLeap, Bool.and_eq_true, Bool.or_eq_true, beq_iff_eq, bne_iff_ne]
  omega

theorem getD_monthLengths (year : Int) (first : 1 ≤ month) (last : month ≤ 12) :
    (monthLengths year).getD (month - 1) 0 = monthLength year month := by
  have february : (if isLeap year then 29 else 28) = monthLength year 2 := by
    simp only [monthLength, ← isLeap_iff, if_true]
  rw [monthLengths, february]
  interval_cases month <;> rfl

theorem monthLength_pos (year : Int) (month : Nat) : 1 ≤ monthLength year month := by
  unfold monthLength
  split
  · split <;> decide
  · split <;> decide

theorem monthLength_le (year : Int) (month : Nat) : monthLength year month ≤ 31 := by
  unfold monthLength
  split
  · split <;> decide
  · split <;> decide

theorem valid_iff : d.Valid ↔
    (1 ≤ d.month ∧ d.month ≤ 12) ∧ 1 ≤ d.day ∧ d.day ≤ monthLength d.year d.month := by
  have twelve : (monthLengths d.year).length = 12 := rfl
  constructor
  · intro valid
    rcases valid with ⟨first, begun, fits⟩
    have last : d.month ≤ 12 := by
      apply Nat.not_lt.mp
      intro beyond
      have none_there : (monthLengths d.year).length ≤ d.month - 1 := by omega
      rw [List.getD_eq_getElem?_getD, List.getElem?_eq_none none_there] at fits
      exact absurd (begun.trans fits) (by decide)
    rw [getD_monthLengths _ first last] at fits
    exact ⟨⟨first, last⟩, begun, fits⟩
  · intro real
    rcases real with ⟨⟨first, last⟩, begun, fits⟩
    rw [← getD_monthLengths _ first last] at fits
    exact ⟨first, begun, fits⟩

theorem daysBeforeMonth_one (year : Int) : daysBeforeMonth year 1 = 0 := rfl

theorem daysIn_take_succ (lengths : List Nat) (index : Nat) :
    daysIn (lengths.take (index + 1)) = daysIn (lengths.take index) + lengths.getD index 0 := by
  induction lengths generalizing index with
  | nil => simp [daysIn_nil]
  | cons length lengths ih =>
      cases index with
      | zero => simp [daysIn_cons, daysIn_nil]
      | succ index =>
          rw [List.take_succ_cons, List.take_succ_cons, daysIn_cons, daysIn_cons, ih,
            Nat.add_assoc]
          rfl

theorem daysBeforeMonth_succ (year : Int) (first : 1 ≤ month) (last : month ≤ 12) :
    daysBeforeMonth year (month + 1) = daysBeforeMonth year month + monthLength year month := by
  rw [← getD_monthLengths year first last, daysBeforeMonth_eq, daysBeforeMonth_eq,
    ← daysIn_take_succ]
  congr 2
  omega

theorem daysBeforeMonth_end (year : Int) :
    (daysBeforeMonth year 13 : Int) = daysBeforeYear (year + 1) - daysBeforeYear year :=
  daysIn_monthLengths year

theorem daysBeforeMonth_le (year : Int) {later : Nat} (first : 1 ≤ month) (before : month < later)
    (last : later ≤ 13) :
    daysBeforeMonth year month + monthLength year month ≤ daysBeforeMonth year later := by
  induction later with
  | zero => omega
  | succ later ih =>
      rcases Nat.lt_succ_iff_lt_or_eq.mp before with earlier | rfl
      · have passed := ih earlier (by omega)
        have next := daysBeforeMonth_succ year (show 1 ≤ later by omega) (by omega)
        omega
      · exact Nat.le_of_eq (daysBeforeMonth_succ year first (by omega)).symm

theorem dayNumber_bounds (valid : d.Valid) :
    daysBeforeYear d.year ≤ d.dayNumber ∧ d.dayNumber < daysBeforeYear (d.year + 1) := by
  rcases valid_iff.mp valid with ⟨⟨first, last⟩, begun, fits⟩
  have before_next : d.month < 13 := Nat.lt_succ_of_le last
  have ended := daysBeforeMonth_le d.year first before_next (Nat.le_refl 13)
  have whole := daysBeforeMonth_end d.year
  rw [dayNumber]
  omega

theorem yearOf_dayNumber (valid : d.Valid) : yearOf d.dayNumber = d.year := by
  have bounds := dayNumber_bounds valid
  have begun := (le_yearOf_iff d.year d.dayNumber).mpr bounds.1
  have next := le_yearOf_iff (d.year + 1) d.dayNumber
  omega

theorem eq_of_dayNumber (valid : d.Valid) (valid' : e.Valid) (same : d.dayNumber = e.dayNumber) :
    d = e := by
  have years : d.year = e.year := by
    rw [← yearOf_dayNumber valid, same, yearOf_dayNumber valid']
  rcases d with ⟨year, month, day⟩
  rcases e with ⟨_, month', day'⟩
  cases years
  rcases valid_iff.mp valid with ⟨⟨first, last⟩, begun, fits⟩
  rcases valid_iff.mp valid' with ⟨⟨first', last'⟩, begun', fits'⟩
  simp only [dayNumber] at *
  rcases Nat.lt_trichotomy month month' with earlier | rfl | later
  · have ended := daysBeforeMonth_le year first earlier (by omega)
    omega
  · obtain rfl : day = day' := by omega
    rfl
  · have ended := daysBeforeMonth_le year first' later (by omega)
    omega

theorem Follows.valid (follows : Follows d e) : d.Valid ∧ e.Valid := by
  cases follows with
  | day first last begun room =>
      simp only [valid_iff]
      exact ⟨⟨⟨first, last⟩, begun, room.le⟩, ⟨first, last⟩, Nat.le_add_left 1 _, room⟩
  | @month year month first others =>
      have some_day := monthLength_pos year month
      have some_day' := monthLength_pos year (month + 1)
      simp only [valid_iff]
      exact ⟨⟨⟨first, others.le⟩, some_day, Nat.le_refl _⟩, ⟨Nat.le_add_left 1 _, others⟩,
        Nat.le_refl 1, some_day'⟩
  | @year year =>
      have december : monthLength year 12 = 31 := rfl
      have january : monthLength (year + 1) 1 = 31 := rfl
      simp only [valid_iff, december, january]
      decide

theorem Follows.dayNumber (follows : Follows d e) : e.dayNumber = d.dayNumber + 1 := by
  cases follows with
  | day first last begun room =>
      simp only [Date.dayNumber]
      omega
  | @month year month first others =>
      have ended := daysBeforeMonth_succ year first others.le
      simp only [Date.dayNumber]
      omega
  | @year year =>
      have ended : daysBeforeMonth year 13 = daysBeforeMonth year 12 + 31 :=
        daysBeforeMonth_succ year (by decide) (by decide)
      have whole := daysBeforeMonth_end year
      have january := daysBeforeMonth_one (year + 1)
      simp only [Date.dayNumber]
      omega

theorem exists_follows (valid : d.Valid) : ∃ e, Follows d e := by
  rcases d with ⟨year, month, day⟩
  rcases valid_iff.mp valid with ⟨⟨first, last⟩, begun, fits⟩
  rcases Nat.lt_or_eq_of_le fits with room | ended
  · exact ⟨_, .day first last begun room⟩
  · simp only at ended first last
    rcases Nat.lt_or_eq_of_le last with others | rfl
    · rw [ended]
      exact ⟨_, .month first others⟩
    · rw [ended]
      exact ⟨_, .year⟩

theorem exists_followed (valid : e.Valid) : ∃ d, Follows d e := by
  rcases e with ⟨year, month, day⟩
  rcases valid_iff.mp valid with ⟨⟨first, last⟩, begun, fits⟩
  simp only at first last begun fits
  rcases Nat.exists_eq_succ_of_ne_zero (Nat.pos_iff_ne_zero.mp begun) with ⟨yesterday, rfl⟩
  by_cases some_day : 1 ≤ yesterday
  · exact ⟨_, .day first last some_day fits⟩
  · obtain rfl : yesterday = 0 := by omega
    rcases Nat.exists_eq_succ_of_ne_zero (Nat.pos_iff_ne_zero.mp first) with ⟨passed, rfl⟩
    by_cases some_month : 1 ≤ passed
    · exact ⟨_, .month some_month last⟩
    · obtain rfl : passed = 0 := by omega
      have new_year := @Follows.year (year - 1)
      rw [Int.sub_add_cancel] at new_year
      exact ⟨_, new_year⟩

theorem dayNumber_of_dayOf (day : DayOf d n) : d.Valid ∧ d.dayNumber = n + epoch := by
  induction day with
  | epoch => exact ⟨by decide, rfl⟩
  | after follows _ ih =>
      have next := follows.dayNumber
      exact ⟨follows.valid.2, by omega⟩
  | before follows _ ih =>
      have next := follows.dayNumber
      exact ⟨follows.valid.1, by omega⟩

theorem exists_dayOf (n : Int) : ∃ d, DayOf d n := by
  induction n with
  | zero => exact ⟨_, .epoch⟩
  | succ n ih =>
      rcases ih with ⟨d, day⟩
      rcases exists_follows (dayNumber_of_dayOf day).1 with ⟨e, follows⟩
      exact ⟨e, .after follows day⟩
  | pred n ih =>
      rcases ih with ⟨e, day⟩
      rcases exists_followed (dayNumber_of_dayOf day).1 with ⟨d, follows⟩
      exact ⟨d, .before follows day⟩

/-- Every date that exists is the date of one day, which is counted by its number. -/
theorem dayOf_iff : DayOf d n ↔ d.Valid ∧ d.dayNumber = n + epoch := by
  constructor
  · exact dayNumber_of_dayOf
  · intro real
    rcases exists_dayOf n with ⟨e, day⟩
    rcases dayNumber_of_dayOf day with ⟨valid, number⟩
    rw [eq_of_dayNumber real.1 valid (real.2.trans number.symm)]
    exact day

theorem DayOf.unique (day : DayOf d n) (day' : DayOf e n) : d = e := by
  rcases dayNumber_of_dayOf day with ⟨valid, number⟩
  rcases dayNumber_of_dayOf day' with ⟨valid', number'⟩
  exact eq_of_dayNumber valid valid' (number.trans number'.symm)

end Terminology.Date
