import Terminology.Instant.Text
import Terminology.Proofs.Calendar.Succession
import Terminology.Proofs.Text.Decimal
import Terminology.Proofs.Text.Run

/-!
The date and time of RFC 3339 as a notation: which texts there are, and the instant that each one
denotes. The days come from the succession of dates, the seconds from the clock and from how far
local time is ahead. Reading accepts the texts of the notation and no others, and gives what they
denote.
-/

namespace Terminology.Instant

open Text

/-- A date of the years zero to 9999, and its day counted from the first of January 1970. -/
inductive Dated : List Char → Int → Prop
  | day {year month day : Nat} {n : Int} (four : year < 10000)
      (calendar : Date.DayOf ⟨year, month, day⟩ n) :
      Dated (decimalPadded 4 year ++ '-' :: decimalPadded 2 month ++ '-' :: decimalPadded 2 day) n

/-- A time of day, its second of the day, and the nanoseconds that have passed in that second. The
sixty-first second of a minute counts as a part of the sixtieth. -/
inductive Clock : List Char → Nat → Nat → Prop
  | ordinary {hour minute second : Nat} (hours : hour < 24) (minutes : minute < 60)
      (seconds : second < 60) :
      Clock (decimalPadded 2 hour ++ ':' :: decimalPadded 2 minute ++ ':' :: decimalPadded 2 second)
        (hour * 3600 + minute * 60 + second) 0
  | leap {hour minute : Nat} (hours : hour < 24) (minutes : minute < 60) :
      Clock (decimalPadded 2 hour ++ ':' :: decimalPadded 2 minute ++ ':' :: decimalPadded 2 60)
        (hour * 3600 + minute * 60 + 59) 1000000000

/-- The whole nanoseconds of a fraction of any length. -/
inductive Fraction : List Char → Nat → Prop
  | absent : Fraction [] 0
  | point {digits : List Char} (some_digit : digits ≠ [])
      (decimal : ∀ c ∈ digits, isDecimalDigit c = true) :
      Fraction ('.' :: digits) (decimalValue digits * 1000000000 / 10 ^ digits.length)

/-- How many seconds local time is ahead of universal time; a minus may be the one of ASCII or
the mathematical one. -/
inductive Zone : List Char → Int → Prop
  | universal {letter : Char} (zulu : letter ∈ ['Z', 'z']) : Zone [letter] 0
  | ahead {hour minute : Nat} (hours : hour < 24) (minutes : minute < 60) :
      Zone ('+' :: decimalPadded 2 hour ++ ':' :: decimalPadded 2 minute)
        (hour * 3600 + minute * 60)
  | behind {hour minute : Nat} {minus : Char} (sign : minus ∈ ['-', '\u2212']) (hours : hour < 24)
      (minutes : minute < 60) :
      Zone (minus :: decimalPadded 2 hour ++ ':' :: decimalPadded 2 minute)
        (-(hour * 3600 + minute * 60))

/-- A date and time of the notation. -/
inductive Timestamp : List Char → Prop
  | parts {date clock fraction zone : List Char} {between : Char} {day ahead : Int}
      {second leap nanos : Nat} (dated : Dated date day) (separator : between ∈ ['T', 't', ' '])
      (timed : Clock clock second leap) (fine : Fraction fraction nanos)
      (zoned : Zone zone ahead) : Timestamp (date ++ between :: clock ++ fraction ++ zone)

/-- The instant that a date and time denotes. -/
inductive Denotes : List Char → Instant → Prop
  | parts {date clock fraction zone : List Char} {between : Char} {day ahead : Int}
      {second leap nanos : Nat} {t : Instant} (dated : Dated date day)
      (separator : between ∈ ['T', 't', ' ']) (timed : Clock clock second leap)
      (fine : Fraction fraction nanos) (zoned : Zone zone ahead)
      (seconds : t.seconds = day * 86400 + second - ahead) (nanoseconds : t.nanos = leap + nanos) :
      Denotes (date ++ between :: clock ++ fraction ++ zone) t

variable {cs rest : List Char} {n : Nat}

theorem Clock.leap_last {second leap : Nat} (timed : Clock cs second leap) :
    leap = 0 ∨ leap = 1000000000 ∧ second % 60 = 59 := by
  cases timed with
  | ordinary => exact .inl rfl
  | leap => exact .inr ⟨rfl, by omega⟩

theorem Fraction.lt_second (fine : Fraction cs n) : n < 1000000000 := by
  cases fine with
  | absent => decide
  | point _ decimal =>
      apply Nat.div_lt_of_lt_mul
      exact Nat.mul_lt_mul_of_pos_right (decimalValue_lt decimal) (by decide)

theorem Zone.whole_minutes {ahead : Int} (zoned : Zone cs ahead) : ahead % 60 = 0 := by
  cases zoned with
  | universal => rfl
  | ahead => omega
  | behind => omega

theorem Denotes.timestamp {t : Instant} (denotes : Denotes cs t) : Timestamp cs := by
  cases denotes with
  | parts dated separator timed fine zoned => exact .parts dated separator timed fine zoned

theorem Timestamp.exists_denotes (timestamp : Timestamp cs) : ∃ t, Denotes cs t := by
  cases timestamp with
  | @parts date clock fraction zone between day ahead second leap nanos dated separator timed fine
      zoned =>
      have last := timed.leap_last
      have small := fine.lt_second
      have minutes := zoned.whole_minutes
      -- Local time is whole minutes ahead: a leap second ends a minute of universal time too.
      have within : leap + nanos < 1000000000 ∨
          leap + nanos < 2000000000 ∧ (day * 86400 + second - ahead) % 60 = 59 := by omega
      exact ⟨⟨_, _, within⟩, .parts dated separator timed fine zoned rfl rfl⟩

theorem field?_eq_some_iff {width : Nat} :
    field? width cs = some (n, rest) ↔ n < 10 ^ width ∧ cs = decimalPadded width n ++ rest := by
  constructor
  · intro read
    simp only [field?, Option.ite_none_right_eq_some, Option.some.injEq, Prod.mk.injEq] at read
    rcases read with ⟨⟨length, all⟩, rfl, rfl⟩
    have digits := List.all_eq_true.mp all
    have small := decimalValue_lt digits
    have spelled := decimalPadded_decimalValue digits
    rw [length] at small spelled
    rw [spelled, List.take_append_drop]
    exact ⟨small, rfl⟩
  · intro spelled
    rcases spelled with ⟨small, rfl⟩
    have taken : (decimalPadded width n ++ rest).take width = decimalPadded width n :=
      List.take_left' (length_decimalPadded width n)
    have left : (decimalPadded width n ++ rest).drop width = rest :=
      List.drop_left' (length_decimalPadded width n)
    have digits : (decimalPadded width n).all isDecimalDigit = true :=
      List.all_eq_true.mpr (isDecimalDigit_decimalPadded width n)
    simp only [field?, taken, left]
    rw [if_pos ⟨length_decimalPadded width n, digits⟩, decimalValue_decimalPadded,
      Nat.mod_eq_of_lt small]

theorem field?_decimalPadded {width : Nat} (small : n < 10 ^ width) (rest : List Char) :
    field? width (decimalPadded width n ++ rest) = some (n, rest) :=
  field?_eq_some_iff.mpr ⟨small, rfl⟩

theorem skip?_eq_some_iff {p : Char → Bool} :
    skip? p cs = some rest ↔ ∃ c, p c = true ∧ cs = c :: rest := by
  cases cs with
  | nil => simp [skip?]
  | cons c cs =>
      simp only [skip?, Option.ite_none_right_eq_some, Option.some.injEq, List.cons.injEq]
      constructor
      · intro passed
        rcases passed with ⟨passes, rfl⟩
        exact ⟨c, passes, rfl, rfl⟩
      · intro there
        rcases there with ⟨_, passes, rfl, rfl⟩
        exact ⟨passes, rfl⟩

theorem dated_of_date? {date : Date} (read : date? cs = some (date, rest)) :
    ∃ front, Dated front (date.dayNumber - Date.epoch) ∧ cs = front ++ rest := by
  simp only [date?, Option.bind_eq_bind, Option.bind_eq_some_iff, Prod.exists, field?_eq_some_iff,
    skip?_eq_some_iff, Option.ite_none_right_eq_some, Option.some.injEq, Prod.mk.injEq, beq_iff_eq,
    exists_eq_left] at read
  rcases read with ⟨year, _, ⟨four, rfl⟩, _, rfl, month, _, ⟨_, rfl⟩, _, rfl, day, _, ⟨_, rfl⟩,
    valid, rfl, rfl⟩
  have calendar := Date.dayOf_iff.mpr ⟨valid, (Int.sub_add_cancel _ Date.epoch).symm⟩
  exact ⟨_, .day four calendar, by simp only [List.append_assoc, List.cons_append]⟩

theorem date?_of_dated {front : List Char} {n : Int} (dated : Dated front n) (rest : List Char) :
    ∃ date, date? (front ++ rest) = some (date, rest) ∧ date.dayNumber - Date.epoch = n := by
  cases dated with
  | @day year month day n four calendar =>
      rcases Date.dayOf_iff.mp calendar with ⟨valid, number⟩
      rcases Date.valid_iff.mp valid with ⟨⟨_, last⟩, _, fits⟩
      have longest := Date.monthLength_le year month
      have months : month < 10 ^ 2 := by simp only at last; omega
      have days : day < 10 ^ 2 := by simp only at fits; omega
      refine ⟨⟨year, month, day⟩, ?_, by omega⟩
      simp (disch := omega) only [date?, List.append_assoc, List.cons_append,
        field?_decimalPadded, skip?, beq_self_eq_true, if_true, Option.bind_eq_bind,
        Option.bind_some, valid]

theorem clock_of_clock? {second leap : Nat} (read : clock? cs = some ((second, leap), rest)) :
    ∃ front, Clock front second leap ∧ cs = front ++ rest := by
  simp only [clock?, Option.bind_eq_bind, Option.bind_eq_some_iff, Prod.exists, field?_eq_some_iff,
    skip?_eq_some_iff, Option.ite_none_right_eq_some, Option.some.injEq, Prod.mk.injEq, beq_iff_eq,
    exists_eq_left] at read
  rcases read with ⟨hour, _, ⟨_, rfl⟩, _, rfl, minute, _, ⟨_, rfl⟩, _, rfl, unit, _, ⟨_, rfl⟩,
    ⟨hours, minutes, seconds⟩, same, rfl⟩
  by_cases last : unit = 60
  · rw [if_pos last] at same
    cases same
    refine ⟨_, .leap (Nat.lt_succ_of_le hours) (Nat.lt_succ_of_le minutes), ?_⟩
    simp only [last, List.append_assoc, List.cons_append]
  · rw [if_neg last] at same
    cases same
    refine ⟨_, .ordinary (Nat.lt_succ_of_le hours) (Nat.lt_succ_of_le minutes)
      (Nat.lt_of_le_of_ne seconds last), ?_⟩
    simp only [List.append_assoc, List.cons_append]

theorem clock?_of_clock {front : List Char} {second leap : Nat} (timed : Clock front second leap)
    (rest : List Char) : clock? (front ++ rest) = some ((second, leap), rest) := by
  cases timed with
  | @ordinary hour minute second hours minutes seconds =>
      have range : hour ≤ 23 ∧ minute ≤ 59 ∧ second ≤ 60 := by omega
      simp (disch := omega) only [clock?, List.append_assoc, List.cons_append,
        field?_decimalPadded, skip?, beq_self_eq_true, if_true, Option.bind_eq_bind,
        Option.bind_some, range, and_self]
      rw [if_neg (by omega)]
  | @leap hour minute hours minutes =>
      have range : hour ≤ 23 ∧ minute ≤ 59 ∧ 60 ≤ 60 := by omega
      simp (disch := omega) only [clock?, List.append_assoc, List.cons_append,
        field?_decimalPadded, skip?, beq_self_eq_true, if_true, Option.bind_eq_bind,
        Option.bind_some, range, and_self]

/-- Filling digits up and cutting them behind the ninth rounds down. -/
theorem decimalValue_ninth {digits : List Char} (decimal : ∀ c ∈ digits, isDecimalDigit c = true) :
    decimalValue ((digits ++ List.replicate 9 '0').take 9) =
      decimalValue digits * 1000000000 / 10 ^ digits.length := by
  have filled : decimalValue (digits ++ List.replicate 9 '0') =
      decimalValue digits * 1000000000 := by
    rw [decimalValue_append, decimalValue_zeros, List.length_replicate]
    norm_num
  have all : ∀ c ∈ digits ++ List.replicate 9 '0', isDecimalDigit c = true :=
    List.forall_mem_append.mpr ⟨decimal, isDecimalDigit_zeros 9⟩
  have rounded := decimalValue_append_div ((digits ++ List.replicate 9 '0').take 9)
    (fun c member => all c (List.mem_of_mem_drop (i := 9) member))
  rw [List.take_append_drop, List.length_drop, List.length_append, List.length_replicate,
    Nat.add_sub_cancel, filled] at rounded
  exact rounded.symm

theorem fraction_of_fraction? (read : fraction? cs = some (n, rest)) :
    ∃ front, Fraction front n ∧ cs = front ++ rest := by
  unfold fraction? at read
  split at read
  · rename_i cs
    simp only [Option.ite_none_left_eq_some, Option.some.injEq, Prod.mk.injEq] at read
    rcases read with ⟨some_digit, rfl, rfl⟩
    have decimal : ∀ c ∈ cs.takeWhile isDecimalDigit, isDecimalDigit c = true :=
      fun c member => List.mem_takeWhile_imp member
    refine ⟨'.' :: cs.takeWhile isDecimalDigit, ?_, ?_⟩
    · rw [decimalValue_ninth decimal]
      exact .point some_digit decimal
    · rw [List.cons_append, List.takeWhile_append_dropWhile]
  · cases read
    exact ⟨[], .absent, rfl⟩

theorem fraction?_of_fraction {front : List Char} {stop : Char} (fine : Fraction front n)
    (stops : isDecimalDigit stop = false) (no_point : stop ≠ '.') (rest : List Char) :
    fraction? (front ++ stop :: rest) = some (n, stop :: rest) := by
  cases fine with
  | absent =>
      rw [List.nil_append, fraction?]
      intro cs point
      exact no_point (List.cons.inj point).1
  | @point digits some_digit decimal =>
      simp only [fraction?, List.cons_append, takeWhile_run decimal stops,
        dropWhile_run decimal stops, if_neg some_digit, decimalValue_ninth decimal]

theorem Zone.head {ahead : Int} (zoned : Zone cs ahead) :
    ∃ c rest, cs = c :: rest ∧ isDecimalDigit c = false ∧ c ≠ '.' := by
  cases zoned with
  | @universal letter zulu =>
      simp only [List.mem_cons, List.not_mem_nil, or_false] at zulu
      rcases zulu with rfl | rfl
      · exact ⟨'Z', [], rfl, by decide⟩
      · exact ⟨'z', [], rfl, by decide⟩
  | ahead => exact ⟨'+', _, rfl, by decide⟩
  | @behind _ _ minus sign =>
      simp only [List.mem_cons, List.not_mem_nil, or_false] at sign
      rcases sign with rfl | rfl
      · exact ⟨'-', _, rfl, by decide⟩
      · exact ⟨'\u2212', _, rfl, by decide⟩

theorem zone_of_offset? {ahead : Int} (read : offset? cs = some ahead) : Zone cs ahead := by
  unfold offset? at read
  split at read
  · cases read
    exact .universal (by decide)
  · cases read
    exact .universal (by decide)
  · rename_i sign cs _ _
    simp only [Option.ite_none_right_eq_some, Option.bind_eq_bind, Option.bind_eq_some_iff,
      Prod.exists, field?_eq_some_iff, skip?_eq_some_iff, Option.some.injEq, beq_iff_eq,
      exists_eq_left] at read
    rcases read with ⟨signed, hour, _, ⟨_, rfl⟩, _, rfl, minute, _, ⟨_, rfl⟩, ⟨rfl, hours, minutes⟩,
      rfl⟩
    rw [List.append_nil]
    by_cases plus : sign = '+'
    · rw [if_pos plus, plus]
      exact .ahead (Nat.lt_succ_of_le hours) (Nat.lt_succ_of_le minutes)
    · rw [if_neg plus]
      refine .behind ?_ (Nat.lt_succ_of_le hours) (Nat.lt_succ_of_le minutes)
      simpa only [List.mem_cons, List.not_mem_nil, or_false] using signed.resolve_left plus
  · cases read

theorem offset?_signed {sign : Char} {hour minute : Nat}
    (signed : sign = '+' ∨ sign = '-' ∨ sign = '\u2212') (hours : hour < 24)
    (minutes : minute < 60) :
    offset? (sign :: decimalPadded 2 hour ++ ':' :: decimalPadded 2 minute) =
      some (if sign = '+' then (hour * 3600 + minute * 60 : Int)
        else -(hour * 3600 + minute * 60)) := by
  have range : hour ≤ 23 ∧ minute ≤ 59 := by omega
  have last : field? 2 (decimalPadded 2 minute) = some (minute, []) :=
    field?_eq_some_iff.mpr ⟨by omega, (List.append_nil _).symm⟩
  -- The letters are matched before the signs.
  rw [List.cons_append, offset?]
  · simp (disch := omega) only [signed, field?_decimalPadded, skip?, beq_self_eq_true, if_true,
      Option.bind_eq_bind, Option.bind_some, last, range, and_self]
  · intro letter _
    rw [letter] at signed
    revert signed
    decide
  · intro letter _
    rw [letter] at signed
    revert signed
    decide

theorem offset?_of_zone {ahead : Int} (zoned : Zone cs ahead) : offset? cs = some ahead := by
  cases zoned with
  | @universal letter zulu =>
      simp only [List.mem_cons, List.not_mem_nil, or_false] at zulu
      rcases zulu with rfl | rfl
      · rfl
      · rfl
  | ahead hours minutes => exact offset?_signed (.inl rfl) hours minutes
  | @behind hour minute minus sign hours minutes =>
      simp only [List.mem_cons, List.not_mem_nil, or_false] at sign
      have other : minus ≠ '+' := by
        intro plus
        rw [plus] at sign
        revert sign
        decide
      rw [offset?_signed (.inr sign) hours minutes, if_neg other]

theorem ofParts?_eq_some_iff {seconds : Int} {nanos : Nat} {t : Instant} :
    ofParts? seconds nanos = some t ↔ t.seconds = seconds ∧ t.nanos = nanos := by
  constructor
  · intro made
    unfold ofParts? at made
    split at made
    · cases made
      exact ⟨rfl, rfl⟩
    · cases made
  · intro same
    rcases same with ⟨rfl, rfl⟩
    exact dif_pos t.within

theorem isSeparator_iff {c : Char} :
    (c == 'T' || c == 't' || c == ' ') = true ↔ c ∈ ['T', 't', ' '] := by
  simp only [Bool.or_eq_true, beq_iff_eq, List.mem_cons, List.not_mem_nil, or_false, or_assoc]

/-- Every text of the notation is read, no other is, and it is read as what it denotes. -/
theorem read?_eq_some_iff {s : String} {t : Instant} :
    read? s = some t ↔ Denotes s.toList t := by
  constructor
  · intro read
    simp only [read?, Option.bind_eq_bind, Option.bind_eq_some_iff, Prod.exists,
      skip?_eq_some_iff, isSeparator_iff, ofParts?_eq_some_iff] at read
    rcases read with ⟨date, _, date_read, _, ⟨between, separator, rfl⟩, second, leap, _, clock_read,
      nanos, zone, fraction_read, ahead, zone_read, seconds, nanoseconds⟩
    rcases dated_of_date? date_read with ⟨front, dated, spelled⟩
    rcases clock_of_clock? clock_read with ⟨clock, timed, rfl⟩
    rcases fraction_of_fraction? fraction_read with ⟨fraction, fine, rfl⟩
    have zoned := zone_of_offset? zone_read
    have denotes := Denotes.parts dated separator timed fine zoned seconds nanoseconds
    rw [spelled]
    simpa only [List.append_assoc, List.cons_append] using denotes
  · intro denotes
    generalize spelled : s.toList = cs at denotes
    cases denotes with
    | @parts front clock fraction zone between _ _ _ _ _ _ dated separator timed fine zoned seconds
        nanoseconds =>
        rcases zoned.head with ⟨stop, rest, shown, stops, no_point⟩
        rcases date?_of_dated dated (between :: (clock ++ (fraction ++ zone))) with
          ⟨date, date_read, number⟩
        have clock_read := clock?_of_clock timed (fraction ++ zone)
        have fraction_read := fraction?_of_fraction fine stops no_point rest
        rw [← shown] at fraction_read
        simp only [read?, spelled, List.append_assoc, List.cons_append, date_read, clock_read,
          fraction_read, offset?_of_zone zoned, skip?, isSeparator_iff.mpr separator, if_true,
          Option.bind_eq_bind, Option.bind_some, number]
        exact ofParts?_eq_some_iff.mpr ⟨seconds, nanoseconds⟩

end Terminology.Instant
