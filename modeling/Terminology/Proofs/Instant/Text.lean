import Terminology.Proofs.Instant.Notation

/-!
Instants of the years zero to 9999 survive their text, leap seconds included: what is written is
the date and time that denotes them.
-/

namespace Terminology.Instant

open Text

theorem dayOf_date (t : Instant) : Date.DayOf t.date (t.seconds / 86400) := by
  have written : t.date.Valid ∧ t.date.dayNumber = t.seconds / 86400 + Date.epoch ∧
      t.date.month ≤ 12 := Date.ofDayNumber_spec _
  exact Date.dayOf_iff.mpr ⟨written.1, written.2.1⟩

theorem dated_dateText {date : Date} {n : Int} (calendar : date.DayOf n)
    (four : 0 ≤ date.year ∧ date.year ≤ 9999) : Dated (dateText date) n := by
  rcases date with ⟨year, month, day⟩
  rcases Int.eq_ofNat_of_zero_le four.1 with ⟨natural, rfl⟩
  have small : natural < 10000 := by
    have last := four.2
    simp only at last
    omega
  rw [dateText, yearText, if_pos four, Int.toNat_natCast]
  exact .day small calendar

theorem clock_clockText (t : Instant) :
    Clock (clockText t) t.secondOfDay (if t.isLeapSecond then 1000000000 else 0) := by
  have day : t.secondOfDay < 86400 := by
    rw [secondOfDay]
    omega
  have hours : t.secondOfDay / 3600 < 24 := by omega
  have minutes : t.secondOfDay / 60 % 60 < 60 := by omega
  by_cases leap : t.isLeapSecond
  · have last : t.secondOfDay % 60 = 59 := by
      have within := t.within
      simp only [isLeapSecond, decide_eq_true_eq] at leap
      rw [secondOfDay]
      omega
    have whole : t.secondOfDay / 3600 * 3600 + t.secondOfDay / 60 % 60 * 60 + 59 =
        t.secondOfDay := by omega
    have timed := Clock.leap hours minutes
    rw [whole] at timed
    simp only [clockText, leap, last, if_true]
    exact timed
  · have seconds : t.secondOfDay % 60 < 60 := by omega
    have whole : t.secondOfDay / 3600 * 3600 + t.secondOfDay / 60 % 60 * 60 + t.secondOfDay % 60 =
        t.secondOfDay := by omega
    have timed := Clock.ordinary hours minutes seconds
    rw [whole] at timed
    simp only [clockText, leap, Bool.false_eq_true, if_false]
    exact timed

theorem fraction_decimalPadded {width n : Nat} (some_digit : width ≠ 0) (small : n < 10 ^ width) :
    Fraction ('.' :: decimalPadded width n) (n * 1000000000 / 10 ^ width) := by
  have digits : decimalPadded width n ≠ [] := by
    intro no_digit
    have length := length_decimalPadded width n
    rw [no_digit] at length
    exact some_digit length.symm
  have fine := Fraction.point digits (isDecimalDigit_decimalPadded width n)
  rw [decimalValue_decimalPadded, length_decimalPadded, Nat.mod_eq_of_lt small] at fine
  exact fine

theorem fraction_fractionText {nanos : Nat} (small : nanos < 1000000000) :
    Fraction (fractionText nanos) nanos := by
  have shortened {width n : Nat} (some_digit : width ≠ 0) (fits : n < 10 ^ width)
      (same : n * 1000000000 / 10 ^ width = nanos) :
      Fraction ('.' :: decimalPadded width n) nanos := by
    have fine := fraction_decimalPadded some_digit fits
    rwa [same] at fine
  unfold fractionText
  split
  · rename_i whole
    rw [whole]
    exact .absent
  · split
    · exact shortened (by decide) (by omega) (by omega)
    · split
      · exact shortened (by decide) (by omega) (by omega)
      · exact shortened (by decide) (by omega) (by omega)

theorem length_fractionText (nanos : Nat) : (fractionText nanos).length ∈ [0, 4, 7, 10] := by
  unfold fractionText
  split
  · decide
  · split
    · rw [List.length_cons, length_decimalPadded]
      decide
    · split
      · rw [List.length_cons, length_decimalPadded]
        decide
      · rw [List.length_cons, length_decimalPadded]
        decide

theorem denotes_text {t : Instant} (year : 0 ≤ t.year ∧ t.year ≤ 9999) :
    Denotes t.text.toList t := by
  have dated := dated_dateText t.dayOf_date year
  have fine := fraction_fractionText (Nat.mod_lt t.nanos (show 0 < 1000000000 by decide))
  have zoned := Zone.universal (show 'Z' ∈ ['Z', 'z'] by decide)
  rw [text, String.toList_ofList]
  refine .parts dated (by decide) t.clock_clockText fine zoned ?_ ?_
  · rw [secondOfDay]
    omega
  · have within := t.within
    by_cases leap : t.isLeapSecond
    · simp only [leap, if_true]
      simp only [isLeapSecond, decide_eq_true_eq] at leap
      omega
    · simp only [leap, Bool.false_eq_true, if_false]
      simp only [isLeapSecond, decide_eq_true_eq] at leap
      omega

theorem read_text {t : Instant} (year : 0 ≤ t.year ∧ t.year ≤ 9999) : read? t.text = some t :=
  read?_eq_some_iff.mpr (denotes_text year)

end Terminology.Instant
