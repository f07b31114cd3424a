import Terminology.Double.Text
import Terminology.Proofs.Text.Decimal
import Terminology.Proofs.Text.Run

/-!
Floating point numbers survive their text. A decimal rounds to the magnitude it is exactly equal
to, so the shortest digits, which are tested by reading them, have a last resort that never
fails.
-/

namespace Terminology

open Text

namespace Magnitude

theorem units_eq (x : Magnitude) : x.units = x.significand * 2 ^ x.exponent :=
  Nat.shiftLeft_eq _ _

theorem eq_zero_of_units (x : Magnitude) (h : x.units = 0) : x = zero := by
  obtain ⟨significand, exponent, canonical⟩ := x
  have none_left : significand = 0 := by
    rw [units_eq] at h
    have positive := Nat.two_pow_pos exponent
    exact (Nat.mul_eq_zero.mp h).resolve_right (by simp only; omega)
  have least : exponent = 0 := by omega
  subst none_left least
  rfl

theorem log2_scaled (n k : Nat) (h : n ≠ 0) : (n * 2 ^ k).log2 = n.log2 + k := by
  have scaled : n * 2 ^ k ≠ 0 := Nat.mul_ne_zero h (by have := Nat.two_pow_pos k; omega)
  rw [Nat.log2_eq_iff scaled]
  have bounds := (Nat.log2_eq_iff h).mp rfl
  constructor
  · rw [Nat.pow_add]
    exact Nat.mul_le_mul_right _ bounds.1
  · rw [Nat.add_right_comm, Nat.pow_add]
    exact Nat.mul_lt_mul_of_pos_right bounds.2 (Nat.two_pow_pos k)

theorem log2_units (x : Magnitude) : x.units.log2 + 1 - 53 = x.exponent := by
  obtain ⟨significand, exponent, small, bounded, normal⟩ := x
  rw [units_eq]
  simp only
  rcases normal with least | large
  · subst least
    by_cases zero : significand = 0
    · simp [zero]
    · have := (Nat.log2_lt zero (k := 53)).mpr (by simpa using small)
      simp only [Nat.pow_zero, Nat.mul_one]
      omega
  · have nonzero : significand ≠ 0 := by omega
    have exact_log : significand.log2 = 52 :=
      (Nat.log2_eq_iff nonzero).mpr ⟨by simpa using large, by simpa using small⟩
    rw [log2_scaled _ _ nonzero, exact_log]
    omega

theorem divideEven_mul (n d : Nat) (h : 0 < d) : divideEven (n * d) d = n := by
  have apart : ¬ (d < 0 ∨ (0 = d ∧ n % 2 = 1)) := by omega
  simp only [divideEven, Nat.mul_mod_left, Nat.mul_div_cancel n h, Nat.mul_zero, apart, if_false]

theorem round_exact (x : Magnitude) (d : Nat) (h : 0 < d) : round? (x.units * d) d = some x := by
  have parts : x.units * d = x.significand * (d <<< x.exponent) := by
    rw [units_eq, Nat.shiftLeft_eq]
    ring
  have positive : 0 < d <<< x.exponent := by
    rw [Nat.shiftLeft_eq]
    exact Nat.mul_pos h (Nat.two_pow_pos _)
  have below : x.significand ≠ 0x20000000000000 := Nat.ne_of_lt x.canonical.1
  simp only [round?, Nat.mul_div_cancel _ h, log2_units]
  rw [parts, divideEven_mul _ _ positive, if_neg below, ofParts?, dif_pos x.canonical]

theorem ofParts_eq_none {significand exponent : Nat} (h : 2045 < exponent) :
    ofParts? significand exponent = none := by
  rw [ofParts?, dif_neg]
  omega

theorem log2_of_round {m : Nat} {x : Magnitude} (h : round? (m <<< 1074) 1 = some x) :
    m.log2 < 1024 := by
  by_contra large
  have nonzero : m ≠ 0 := by
    intro zero
    simp [zero] at large
  have log : ∀ k, (m <<< k / 1).log2 = m.log2 + k := fun k => by
    rw [Nat.div_one, Nat.shiftLeft_eq, log2_scaled _ _ nonzero]
  have beyond : round? (m <<< 1074) 1 = none := by
    simp only [round?, log]
    split
    · exact ofParts_eq_none (by omega)
    · exact ofParts_eq_none (by omega)
  rw [beyond] at h
  cases h

theorem ofDecimal_writtenOut {coefficient power : Nat} {x : Magnitude}
    (h : ofDecimal? ⟨coefficient, power⟩ = some x) :
    ofDecimal? ⟨coefficient * 10 ^ power, 0⟩ = some x := by
  have positive : 0 < 10 ^ power := Nat.pow_pos (by decide)
  by_cases zero : coefficient = 0
  · simpa [ofDecimal?, zero] using h
  · have nonzero : coefficient * 10 ^ power ≠ 0 := Nat.mul_ne_zero zero (by omega)
    have rounded : round? ((coefficient * 10 ^ power) <<< 1074) 1 = some x := by
      simp only [ofDecimal?, zero, if_false] at h
      split at h
      · cases h
      · exact h
    have small := log2_of_round rounded
    have plain : coefficient * 10 ^ power * Nat.pow 10 0 = coefficient * 10 ^ power :=
      Nat.mul_one _
    simp only [ofDecimal?, nonzero, if_false, plain]
    rw [if_neg (by omega)]
    exact rounded

theorem ofDecimal_negative {coefficient power : Nat} (nonzero : coefficient ≠ 0)
    (large : 3 * (power + 1) ≤ coefficient.log2 + 1077) :
    ofDecimal? ⟨coefficient, .negSucc power⟩ =
      round? (coefficient <<< 1074) (Nat.pow 10 (power + 1)) := by
  simp only [ofDecimal?]
  rw [if_neg nonzero, if_neg (Nat.not_lt.mpr large)]

theorem five_pow_ge (k : Nat) : 2 ^ (2 * k) ≤ 5 ^ k := by
  rw [Nat.pow_mul]
  exact Nat.pow_le_pow_left (by decide) k

theorem ofDecimal_exact (x : Magnitude) : ofDecimal? x.exact = some x := by
  by_cases zero : x.units = 0
  · have coefficient : x.exact.coefficient = 0 := Nat.mul_eq_zero.mpr (.inl zero)
    rw [ofDecimal?, if_pos coefficient, eq_zero_of_units x zero]
  -- The powers stand behind variables up to the last step, so that none is ever computed.
  · have fives : ∀ k, x.units * Nat.pow 5 k ≠ 0 := fun k =>
      Nat.mul_ne_zero zero (Nat.ne_of_gt (Nat.pow_pos (by decide)))
    have large : ∀ k, 2 * k ≤ (x.units * Nat.pow 5 k).log2 := fun k =>
      (Nat.le_log2 (fives k)).mpr
        (le_trans (five_pow_ge k) (Nat.le_mul_of_pos_left _ (Nat.pos_of_ne_zero zero)))
    have tens : ∀ k, (x.units * Nat.pow 5 k) <<< k = x.units * 10 ^ k := fun k => by
      rw [Nat.shiftLeft_eq, Nat.mul_assoc]
      exact congrArg _ (Nat.mul_pow 5 2 k).symm
    have rounded : ∀ k p, k = p + 1 →
        round? ((x.units * Nat.pow 5 k) <<< k) (Nat.pow 10 (p + 1)) = some x := by
      intro k p next
      subst next
      rw [tens]
      exact round_exact x _ (Nat.pow_pos (by decide))
    have enough : 3 * (1073 + 1) ≤ (x.units * Nat.pow 5 1074).log2 + 1077 :=
      le_trans (by decide) (Nat.add_le_add_right (large 1074) 1077)
    have parts : x.exact = ⟨x.units * Nat.pow 5 1074, .negSucc 1073⟩ := rfl
    rw [parts, ofDecimal_negative (fives 1074) enough]
    exact rounded 1074 1073 rfl

/-- The digits that are written for a magnitude read back as it. -/
theorem ofDecimal_shortest (x : Magnitude) : ofDecimal? x.shortest = some x := by
  unfold shortest
  split
  · rename_i none_left
    rw [eq_zero_of_units x none_left]
    rfl
  · rename_i nonzero
    simp only
    cases found : ((List.range 17).flatMap fun digits => x.neighbours (digits + 1)).find?
        fun d => ofDecimal? d == some x with
    | none => exact ofDecimal_exact x
    | some d => simpa using List.find?_some found

end Magnitude

namespace Decimal

open Magnitude

theorem positional_ne_nil (d : Decimal) : d.positional ≠ [] := by
  unfold positional
  split
  · simp [decimal_ne_nil]
  · simp only
    split <;> simp

theorem mem_positional (d : Decimal) :
    ∀ c ∈ d.positional, isDecimalDigit c = true ∨ c = '.' := by
  have digits := isDecimalDigit_decimal d.coefficient
  intro c member
  simp only [positional] at member
  split at member
  · rcases List.mem_append.mp member with member | member
    · exact .inl (digits c member)
    · exact .inl (isDecimalDigit_zeros _ c member)
  · split at member
    · rcases List.mem_append.mp member with member | member
      · exact .inl (digits c (List.mem_of_mem_take member))
      · rcases List.mem_cons.mp member with rfl | member
        · exact .inr rfl
        · exact .inl (digits c (List.mem_of_mem_drop member))
    · rcases List.mem_cons.mp member with rfl | member
      · exact .inl rfl
      · rcases List.mem_cons.mp member with rfl | member
        · exact .inr rfl
        · rcases List.mem_append.mp member with member | member
          · exact .inl (isDecimalDigit_zeros _ c member)
          · exact .inl (digits c member)

theorem read_whole {whole : List Char} (digits : ∀ c ∈ whole, isDecimalDigit c = true)
    (some_digit : whole ≠ []) : Decimal.read? whole = some ⟨decimalValue whole, 0⟩ := by
  have taken : whole.takeWhile isDecimalDigit = whole := List.takeWhile_eq_self_iff.mpr digits
  have left : whole.dropWhile isDecimalDigit = [] := List.dropWhile_eq_nil_iff.mpr digits
  simp [Decimal.read?, taken, left, some_digit]

theorem read_fraction {whole fraction : List Char}
    (digits : ∀ c ∈ whole, isDecimalDigit c = true)
    (others : ∀ c ∈ fraction, isDecimalDigit c = true) (some_digit : whole ≠ []) :
    Decimal.read? (whole ++ '.' :: fraction) =
      some ⟨decimalValue (whole ++ fraction), -fraction.length⟩ := by
  have point : isDecimalDigit '.' = false := rfl
  have taken := takeWhile_run digits point fraction
  have left := dropWhile_run digits point fraction
  have taken' : fraction.takeWhile isDecimalDigit = fraction :=
    List.takeWhile_eq_self_iff.mpr others
  have left' : fraction.dropWhile isDecimalDigit = [] := List.dropWhile_eq_nil_iff.mpr others
  simp [Decimal.read?, taken, left, taken', left', some_digit]

theorem read_point (coefficient : Nat) {size : Nat} (some_digit : 0 < size)
    (inside : size ≤ (decimal coefficient).length) :
    Decimal.read? ((decimal coefficient).take size ++ '.' :: (decimal coefficient).drop size) =
      some ⟨coefficient, -((decimal coefficient).length - size : Nat)⟩ := by
  have digits := isDecimalDigit_decimal coefficient
  rw [read_fraction]
  · rw [List.take_append_drop, decimalValue_decimal, List.length_drop]
  · intro c member
    exact digits c (List.mem_of_mem_take member)
  · intro c member
    exact digits c (List.mem_of_mem_drop member)
  · intro none_left
    have length := congrArg List.length none_left
    rw [List.length_take, List.length_nil] at length
    omega

theorem read_zeros (coefficient zeros : Nat) :
    Decimal.read? ('0' :: '.' :: List.replicate zeros '0' ++ decimal coefficient) =
      some ⟨coefficient, -(zeros + (decimal coefficient).length : Nat)⟩ := by
  have shape : '0' :: '.' :: List.replicate zeros '0' ++ decimal coefficient =
      ['0'] ++ '.' :: (List.replicate zeros '0' ++ decimal coefficient) := rfl
  have leading : ['0'] ++ (List.replicate zeros '0' ++ decimal coefficient) =
      List.replicate (zeros + 1) '0' ++ decimal coefficient := by
    rw [List.replicate_succ]
    rfl
  rw [shape, read_fraction]
  · rw [leading, decimalValue_append, decimalValue_zeros, decimalValue_decimal,
      List.length_append, List.length_replicate]
    congr 2
    omega
  · exact isDecimalDigit_zeros 1
  · intro c member
    rcases List.mem_append.mp member with member | member
    · exact isDecimalDigit_zeros zeros c member
    · exact isDecimalDigit_decimal coefficient c member
  · simp

theorem read_power (coefficient power : Nat) :
    Decimal.read? (decimal coefficient ++ List.replicate power '0') =
      some ⟨coefficient * 10 ^ power, 0⟩ := by
  rw [read_whole _ (by simp [decimal_ne_nil]), decimalValue_append, decimalValue_decimal,
    decimalValue_zeros, List.length_replicate, Nat.add_zero]
  intro c member
  rcases List.mem_append.mp member with member | member
  · exact isDecimalDigit_decimal coefficient c member
  · exact isDecimalDigit_zeros power c member

theorem read_positional (d : Decimal) {x : Magnitude} (h : ofDecimal? d = some x) :
    ∃ e, Decimal.read? d.positional = some e ∧ ofDecimal? e = some x := by
  obtain ⟨coefficient, exponent⟩ := d
  simp only [positional]
  by_cases whole : 0 ≤ exponent
  · obtain ⟨power, rfl⟩ := Int.eq_ofNat_of_zero_le whole
    refine ⟨⟨coefficient * 10 ^ power, 0⟩, ?_, ofDecimal_writtenOut h⟩
    rw [if_pos whole]
    exact read_power coefficient power
  · refine ⟨⟨coefficient, exponent⟩, ?_, h⟩
    rw [if_neg whole]
    split
    · rw [read_point coefficient (by omega) (by omega)]
      congr 2
      omega
    · rw [read_zeros]
      congr 2
      omega

end Decimal

namespace Double

theorem lowerCase_of_digit {c : Char} (h : isDecimalDigit c = true ∨ c = '.') :
    lowerCase c = c := by
  rcases h with digit | rfl
  · simp only [isDecimalDigit, Bool.and_eq_true, decide_eq_true_eq] at digit
    rw [lowerCase, if_neg (by omega)]
  · rfl

theorem word_ne {cs : List Char} (digits : ∀ c ∈ cs, isDecimalDigit c = true ∨ c = '.')
    (first : Char) (others : List Char) (letter : isDecimalDigit first = false ∧ first ≠ '.') :
    String.ofList (cs.map lowerCase) ≠ String.ofList (first :: others) := by
  intro same
  have chars := String.ofList_injective same
  have member : first ∈ cs.map lowerCase := by
    rw [chars]
    exact List.mem_cons_self
  obtain ⟨c, inside, lowered⟩ := List.mem_map.mp member
  rw [lowerCase_of_digit (digits c inside)] at lowered
  subst lowered
  rcases digits c inside with digit | point
  · rw [letter.1] at digit
    cases digit
  · exact letter.2 point

theorem read_digits {cs : List Char} (digits : ∀ c ∈ cs, isDecimalDigit c = true ∨ c = '.')
    (some_digit : cs ≠ []) (negative : Bool) :
    read? (signed negative cs) = (Decimal.read? cs).map (ofDecimal negative) := by
  have inf := word_ne digits 'i' ['n', 'f'] (by decide)
  have infinity := word_ne digits 'i' ['n', 'f', 'i', 'n', 'i', 't', 'y'] (by decide)
  have word_nan := word_ne digits 'n' ['a', 'n'] (by decide)
  have split_off : splitSign (if negative then '-' :: cs else cs) = (negative, cs) := by
    cases negative
    · cases cs with
      | nil => exact absurd rfl some_digit
      | cons c cs =>
          have unsigned : c ≠ '+' ∧ c ≠ '-' := by
            rcases digits c List.mem_cons_self with digit | rfl
            · exact not_sign_of_isDecimalDigit digit
            · decide
          simp only [Bool.false_eq_true, if_false]
          unfold splitSign
          split
          · rename_i first
            exact absurd (List.cons.inj first).1 unsigned.1
          · rename_i first
            exact absurd (List.cons.inj first).1 unsigned.2
          · rfl
    · rfl
  simp only [read?, signed, String.toList_ofList, split_off]
  rw [if_neg (not_or.mpr ⟨inf, infinity⟩), if_neg word_nan]

theorem read_text {x : Double} (h : x.isFinite = true) : read? x.text = some x := by
  cases x with
  | nan => cases h
  | infinite negative => cases h
  | finite negative x =>
      obtain ⟨e, read, magnitude⟩ := Decimal.read_positional _ (Magnitude.ofDecimal_shortest x)
      rw [text, read_digits (Decimal.mem_positional _) (Decimal.positional_ne_nil _), read]
      simp [ofDecimal, magnitude]

end Double

end Terminology
