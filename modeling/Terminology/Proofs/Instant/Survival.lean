import Terminology.Expression.Validity
import Terminology.Proofs.Instant.Text

/-!
Which instants survive documents. The years that validity admits are those whose text is read
back, to the nanosecond and with the leap second; the text of every other year has a sign in front
of it and is not read. A text with any offset therefore names an instant that validity refuses, or
one that is written in universal time and read as the same instant.
-/

namespace Terminology.Instant

open Text

variable {t : Instant}

theorem year_of_dayOf {date : Date} (calendar : date.DayOf (t.seconds / 86400)) :
    date.year = t.year := by
  rw [calendar.unique t.dayOf_date]
  rfl

theorem Denotes.head {cs : List Char} (denotes : Denotes cs t) :
    ∃ c rest, cs = c :: rest ∧ isDecimalDigit c = true := by
  cases denotes with
  | parts dated =>
      cases dated with
      | @day year =>
          have length := length_decimalPadded 4 year
          have digits := isDecimalDigit_decimalPadded 4 year
          cases spelled : decimalPadded 4 year with
          | nil =>
              rw [spelled] at length
              cases length
          | cons c cs =>
              rw [spelled] at digits
              exact ⟨c, _, rfl, digits c List.mem_cons_self⟩

theorem text_signed (outside : ¬ (0 ≤ t.year ∧ t.year ≤ 9999)) :
    ∃ sign rest, t.text.toList = sign :: rest ∧ isDecimalDigit sign = false := by
  have signed : isDecimalDigit (if t.year < 0 then '-' else '+') = false := by
    split <;> rfl
  refine ⟨if t.year < 0 then '-' else '+', ?_⟩
  have other : ¬ (0 ≤ t.date.year ∧ t.date.year ≤ 9999) := outside
  simp only [text, String.toList_ofList, dateText, yearText, if_neg other, List.cons_append]
  exact ⟨_, rfl, signed⟩

theorem read?_text_eq_none (outside : ¬ (0 ≤ t.year ∧ t.year ≤ 9999)) : read? t.text = none := by
  rcases text_signed outside with ⟨sign, rest, spelled, no_digit⟩
  apply Option.eq_none_iff_forall_ne_some.mpr
  intro other read
  rcases (read?_eq_some_iff.mp read).head with ⟨c, cs, shown, digit⟩
  rw [spelled] at shown
  cases shown
  rw [no_digit] at digit
  cases digit

theorem validateAt_instant (path : Path) (t : Instant) :
    (Expression.literal (.instant t)).validateAt path =
      if 0 ≤ t.year ∧ t.year ≤ 9999 then .ok () else .error ⟨path, .yearOutside t.year⟩ := by
  have only_year : Expression.violation? .instant (.literal (some (.instant t))) [] =
      if 0 ≤ t.year ∧ t.year ≤ 9999 then none else some (.yearOutside t.year) := rfl
  rw [Expression.literal, Literal.kind, Expression.validateAt, only_year]
  by_cases inside : 0 ≤ t.year ∧ t.year ≤ 9999
  · simp only [if_pos inside]
    rfl
  · simp only [if_neg inside]

theorem read?_instant (raw : String) :
    Literal.read? .instant raw = (read? raw).map Literal.instant := rfl

theorem read?_iff_timestamp (raw : String) :
    (∃ value, Literal.read? .instant raw = some value) ↔ Timestamp raw.toList := by
  rw [read?_instant]
  constructor
  · intro read
    rcases read with ⟨value, read⟩
    rcases Option.map_eq_some_iff.mp read with ⟨t, found, -⟩
    exact (read?_eq_some_iff.mp found).timestamp
  · intro timestamp
    rcases timestamp.exists_denotes with ⟨t, denotes⟩
    exact ⟨.instant t, Option.map_eq_some_iff.mpr ⟨t, read?_eq_some_iff.mpr denotes, rfl⟩⟩

/-- Validity admits the instant wherever it stands in a tree. Its text ends in no, three, six or
nine digits of the fraction and the letter for universal time, denotes the instant and is read as
it. -/
structure Survives (t : Instant) : Prop where
  admitted : ∀ path, (Expression.literal (.instant t)).validateAt path = .ok ()
  written : ∃ front fraction, (Literal.text (.instant t)).toList = front ++ fraction ++ ['Z'] ∧
    Fraction fraction (t.nanos % 1000000000) ∧ fraction.length ∈ [0, 4, 7, 10]
  denoted : Denotes (Literal.text (.instant t)).toList t
  read : Literal.read? .instant (Literal.text (.instant t)) = some (.instant t)

/-- Validity blames the year of the instant wherever it stands in a tree, and its text would not
be read. -/
structure Refused (t : Instant) : Prop where
  blamed : ∀ path, (Expression.literal (.instant t)).validateAt path =
    .error ⟨path, .yearOutside t.year⟩
  unread : Literal.read? .instant (Literal.text (.instant t)) = none

theorem survives (inside : 0 ≤ t.year ∧ t.year ≤ 9999) : Survives t where
  admitted := by
    intro path
    rw [validateAt_instant, if_pos inside]
  written := by
    have below := Nat.mod_lt t.nanos (show 0 < 1000000000 by decide)
    refine ⟨dateText t.date ++ 'T' :: clockText t, _, ?_, fraction_fractionText below,
      length_fractionText _⟩
    rw [Literal.text, text, String.toList_ofList]
  denoted := denotes_text inside
  read := by
    rw [read?_instant, Literal.text, read_text inside]
    rfl

theorem refused (outside : ¬ (0 ≤ t.year ∧ t.year ≤ 9999)) : Refused t where
  blamed := by
    intro path
    rw [validateAt_instant, if_neg outside]
  unread := by
    rw [read?_instant, Literal.text, read?_text_eq_none outside]
    rfl

/-- The instants of the years zero to 9999 survive and no others do. The texts that are read are the
timestamps, and each denotes an instant that survives as it is or is refused because of its year in
universal time. -/
theorem survival :
    (∀ (t : Instant) (date : Date), date.DayOf (t.seconds / 86400) →
      (0 ≤ date.year ∧ date.year ≤ 9999 → Survives t) ∧
      (¬ (0 ≤ date.year ∧ date.year ≤ 9999) → Refused t)) ∧
    (∀ raw : String, (∃ value, Literal.read? .instant raw = some value) ↔ Timestamp raw.toList) ∧
    ∀ (raw : String) (value : Literal), Literal.read? .instant raw = some value →
      ∃ (t : Instant) (date : Date), value = .instant t ∧ Denotes raw.toList t ∧
        date.DayOf (t.seconds / 86400) ∧
        (¬ (0 ≤ date.year ∧ date.year ≤ 9999) ∧ Refused t ∨
          (0 ≤ date.year ∧ date.year ≤ 9999) ∧ Survives t) := by
  refine ⟨?_, read?_iff_timestamp, ?_⟩
  · intro t date calendar
    rw [year_of_dayOf calendar]
    exact ⟨survives, refused⟩
  · intro raw value read
    rw [read?_instant] at read
    rcases Option.map_eq_some_iff.mp read with ⟨t, found, rfl⟩
    refine ⟨t, t.date, rfl, read?_eq_some_iff.mp found, t.dayOf_date, ?_⟩
    rw [year_of_dayOf t.dayOf_date]
    by_cases inside : 0 ≤ t.year ∧ t.year ≤ 9999
    · exact .inr ⟨inside, survives inside⟩
    · exact .inl ⟨inside, refused inside⟩

/-- An offset that leads out of the year zero, and one that leads to the end of 9999, both in a
leap second. -/
theorem survival_across_years :
    let early : Instant := ⟨-62167219201, 1250000000, by decide⟩
    let late : Instant := ⟨253402300799, 1123456789, by decide⟩
    let afternoon := "9999-12-31T15:59:60.123456789987-08:00"
    Literal.read? .instant "0000-01-01 01:59:60.25+02:00" = some (.instant early) ∧ Refused early ∧
      Literal.read? .instant afternoon = some (.instant late) ∧ Denotes afternoon.toList late ∧
      Survives late := by
  intro early late afternoon
  have reads : Literal.read? .instant "0000-01-01 01:59:60.25+02:00" = some (.instant early) ∧
      Literal.read? .instant afternoon = some (.instant late) := by decide +kernel
  have eve : Date.DayOf ⟨-1, 12, 31⟩ (early.seconds / 86400) := Date.dayOf_iff.mpr (by decide)
  have last : Date.DayOf ⟨9999, 12, 31⟩ (late.seconds / 86400) := Date.dayOf_iff.mpr (by decide)
  have refuses := (survival.1 early ⟨-1, 12, 31⟩ eve).2 (by decide)
  have survives := (survival.1 late ⟨9999, 12, 31⟩ last).1 (by decide)
  rcases survival.2.2 afternoon _ reads.2 with ⟨t, _, same, denotes, _⟩
  cases same
  exact ⟨reads.1, refuses, reads.2, denotes, survives⟩

end Terminology.Instant
