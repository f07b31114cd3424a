import Terminology.Text.Decimal
import Mathlib.Data.List.Induction
import Mathlib.Tactic.Ring

/-!
Numbers survive their text: decimal digits of any number, decimal and hexadecimal digits of a
fixed width, and signed integers.
-/

namespace Terminology.Text

theorem digitValue_digit : ∀ d < 16, digitValue? (digit d) = some d := by decide

theorem toNat_digit : ∀ d < 10, (digit d).toNat = 48 + d := by decide

theorem isDecimalDigit_digit : ∀ d < 10, isDecimalDigit (digit d) = true := by decide

theorem decimalValue_snoc (cs : List Char) (d : Nat) (small : d < 10) :
    decimalValue (cs ++ [digit d]) = decimalValue cs * 10 + d := by
  simp [decimalValue, List.foldl_append, toNat_digit d small]

theorem decimalValue_from (cs : List Char) (start : Nat) :
    cs.foldl (fun value c => value * 10 + (c.toNat - 48)) start =
      start * 10 ^ cs.length + decimalValue cs := by
  induction cs generalizing start with
  | nil => simp [decimalValue]
  | cons c cs ih =>
      simp only [decimalValue, List.foldl_cons, List.length_cons]
      rw [ih, ih (0 * 10 + (c.toNat - 48))]
      ring

theorem decimalValue_append (a b : List Char) :
    decimalValue (a ++ b) = decimalValue a * 10 ^ b.length + decimalValue b := by
  rw [decimalValue, List.foldl_append, decimalValue_from]
  rfl

theorem isDecimalDigit_zeros (n : Nat) :
    ∀ c ∈ List.replicate n '0', isDecimalDigit c = true := by
  intro c member
  rw [(List.mem_replicate.mp member).2]
  rfl

theorem decimalValue_zeros (n : Nat) : decimalValue (List.replicate n '0') = 0 := by
  induction n with
  | zero => rfl
  | succ n ih =>
      rw [List.replicate_succ', decimalValue_append, ih]
      rfl

theorem decimal_ne_nil (n : Nat) : decimal n ≠ [] := by
  rw [decimal]
  split <;> simp

theorem decimalValue_decimal (n : Nat) : decimalValue (decimal n) = n := by
  induction n using Nat.strongRecOn with
  | ind n ih =>
      rw [decimal]
      split
      · rename_i small
        simpa [decimalValue] using decimalValue_snoc [] n small
      · rw [decimalValue_snoc _ _ (by omega), ih (n / 10) (by omega)]
        omega

theorem isDecimalDigit_decimal (n : Nat) : ∀ c ∈ decimal n, isDecimalDigit c = true := by
  induction n using Nat.strongRecOn with
  | ind n ih =>
      intro c member
      rw [decimal] at member
      split at member
      · rename_i small
        rw [List.mem_singleton] at member
        rw [member]
        exact isDecimalDigit_digit n small
      · rcases List.mem_append.mp member with member | member
        · exact ih (n / 10) (by omega) c member
        · rw [List.mem_singleton] at member
          rw [member]
          exact isDecimalDigit_digit _ (by omega)

theorem natural_decimal (n : Nat) : natural? (decimal n) = some n := by
  have digits : (decimal n).all isDecimalDigit = true :=
    List.all_eq_true.mpr (isDecimalDigit_decimal n)
  rw [natural?, if_pos ⟨decimal_ne_nil n, digits⟩, decimalValue_decimal]

theorem not_sign_of_isDecimalDigit {c : Char} (h : isDecimalDigit c = true) :
    c ≠ '+' ∧ c ≠ '-' := by
  constructor
  all_goals
    intro same
    subst same
    revert h
    decide

theorem splitSign_of_digits {cs : List Char} (h : ∀ c ∈ cs, isDecimalDigit c = true) :
    splitSign cs = (false, cs) := by
  cases cs with
  | nil => rfl
  | cons c cs =>
      have sign := not_sign_of_isDecimalDigit (h c (by simp))
      unfold splitSign
      split
      · rename_i first
        exact absurd (List.cons.inj first).1 sign.1
      · rename_i first
        exact absurd (List.cons.inj first).1 sign.2
      · rfl

theorem integer_signed (i : Int) : integer? (signed i) = some i := by
  by_cases negative : i < 0
  · have value : -(i.natAbs : Int) = i := by omega
    simp only [signed, if_pos negative, integer?, splitSign, natural_decimal]
    exact congrArg some value
  · have value : (i.natAbs : Int) = i := by omega
    have digits := splitSign_of_digits (isDecimalDigit_decimal i.natAbs)
    simp only [signed, if_neg negative, integer?, digits, natural_decimal]
    exact congrArg some value

theorem length_decimalPadded (width n : Nat) : (decimalPadded width n).length = width := by
  induction width generalizing n with
  | zero => rfl
  | succ width ih => simp [decimalPadded, ih]

theorem isDecimalDigit_decimalPadded (width n : Nat) :
    ∀ c ∈ decimalPadded width n, isDecimalDigit c = true := by
  induction width generalizing n with
  | zero =>
      intro c member
      cases member
  | succ width ih =>
      intro c member
      rcases List.mem_append.mp member with member | member
      · exact ih (n / 10) c member
      · rw [List.mem_singleton] at member
        rw [member]
        exact isDecimalDigit_digit _ (by omega)

theorem decimalValue_decimalPadded (width n : Nat) :
    decimalValue (decimalPadded width n) = n % 10 ^ width := by
  induction width generalizing n with
  | zero => simp [decimalPadded, decimalValue, Nat.mod_one]
  | succ width ih =>
      rw [decimalPadded, decimalValue_snoc _ _ (by omega), ih, Nat.pow_succ',
        Nat.mod_mul]
      ring

theorem digit_of_isDecimalDigit {c : Char} (digits : isDecimalDigit c = true) :
    digit (c.toNat - 48) = c := by
  simp only [isDecimalDigit, Bool.and_eq_true, decide_eq_true_eq] at digits
  have value : 48 + (c.toNat - 48) = c.toNat := by omega
  rw [digit, if_pos (by omega), value, Char.ofNat_toNat]

theorem decimalValue_concat (cs : List Char) {c : Char} (decimal : isDecimalDigit c = true) :
    decimalValue (cs ++ [c]) = decimalValue cs * 10 + (c.toNat - 48) ∧ c.toNat - 48 < 10 := by
  have small : c.toNat - 48 < 10 := by
    simp only [isDecimalDigit, Bool.and_eq_true, decide_eq_true_eq] at decimal
    omega
  have value := decimalValue_snoc cs (c.toNat - 48) small
  rw [digit_of_isDecimalDigit decimal] at value
  exact ⟨value, small⟩

theorem decimalValue_lt {cs : List Char} (digits : ∀ c ∈ cs, isDecimalDigit c = true) :
    decimalValue cs < 10 ^ cs.length := by
  induction cs using List.reverseRecOn with
  | nil => exact Nat.one_pos
  | append_singleton cs c ih =>
      rcases List.forall_mem_append.mp digits with ⟨front, last⟩
      have bound := ih front
      rcases decimalValue_concat cs (last c (List.mem_singleton_self c)) with ⟨value, small⟩
      rw [value, List.length_append, List.length_singleton, Nat.pow_succ]
      omega

theorem decimalValue_append_div (front : List Char) {back : List Char}
    (digits : ∀ c ∈ back, isDecimalDigit c = true) :
    decimalValue (front ++ back) / 10 ^ back.length = decimalValue front := by
  have small := decimalValue_lt digits
  rw [decimalValue_append, Nat.mul_comm, Nat.mul_add_div (Nat.zero_lt_of_lt small),
    Nat.div_eq_of_lt small, Nat.add_zero]

theorem decimalPadded_decimalValue {cs : List Char} (digits : ∀ c ∈ cs, isDecimalDigit c = true) :
    decimalPadded cs.length (decimalValue cs) = cs := by
  induction cs using List.reverseRecOn with
  | nil => rfl
  | append_singleton cs c ih =>
      rcases List.forall_mem_append.mp digits with ⟨front, last⟩
      have decimal := last c (List.mem_singleton_self c)
      rcases decimalValue_concat cs decimal with ⟨value, small⟩
      have before : (decimalValue cs * 10 + (c.toNat - 48)) / 10 = decimalValue cs := by omega
      have here : (decimalValue cs * 10 + (c.toNat - 48)) % 10 = c.toNat - 48 := by omega
      rw [value, List.length_append, List.length_singleton, decimalPadded, before, here,
        ih front, digit_of_isDecimalDigit decimal]

theorem length_hexPadded (width n : Nat) : (hexPadded width n).length = width := by
  induction width generalizing n with
  | zero => rfl
  | succ width ih => simp [hexPadded, ih]

theorem digitValues_hexPadded (width n : Nat) :
    ∃ digits, (hexPadded width n).mapM digitValue? = some digits ∧
      digits.foldl (fun value d => value * 16 + d) 0 = n % 16 ^ width := by
  induction width generalizing n with
  | zero => exact ⟨[], rfl, by simp [Nat.mod_one]⟩
  | succ width ih =>
      obtain ⟨digits, read, value⟩ := ih (n / 16)
      have last : digitValue? (digit (n % 16)) = some (n % 16) :=
        digitValue_digit _ (Nat.mod_lt _ (by decide))
      refine ⟨digits ++ [n % 16], ?_, ?_⟩
      · simp [hexPadded, List.mapM_append, read, last]
      · rw [List.foldl_append, value, Nat.pow_succ', Nat.mod_mul]
        simp only [List.foldl_cons, List.foldl_nil]
        ring

end Terminology.Text
