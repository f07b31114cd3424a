import Mathlib.Data.List.Forall2
import Terminology.Proofs.Markup.Reference

/-!
What text with references stands for, as a relation between what is written and what is meant,
and reading references as the function that computes it.
-/

namespace Terminology.Markup

open Text

/-- The characters that spell each digit; those beyond nine have a small and a capital letter. -/
def numerals : List (List Char) :=
  [['0'], ['1'], ['2'], ['3'], ['4'], ['5'], ['6'], ['7'], ['8'], ['9'],
    ['a', 'A'], ['b', 'B'], ['c', 'C'], ['d', 'D'], ['e', 'E'], ['f', 'F']]

def Spells (c : Char) (d : Nat) : Prop := c ∈ numerals[d]?.getD []

instance (c : Char) (d : Nat) : Decidable (Spells c d) := by
  unfold Spells
  infer_instance

/-- Digits of a base as they are written, and their values. -/
def Numeral (base : Nat) (cs : List Char) (ds : List Nat) : Prop :=
  List.Forall₂ (fun c d => Spells c d ∧ d < base) cs ds

/-- The number that digits stand for behind a number that was read before. -/
def numberFrom (base : Nat) (before : Nat) (ds : List Nat) : Nat :=
  ds.foldl (fun code d => code * base + d) before

def entities : List (List Char × Char) :=
  [("lt".toList, '<'), ("gt".toList, '>'), ("amp".toList, '&'), ("apos".toList, '\x27'),
    ("quot".toList, '"')]

/-- The references there are, by what stands between the ampersand and the semicolon: the five
predefined entities, and the numbers of characters other than null. -/
inductive Refers : List Char → Char → Prop
  | entity {name : List Char} {c : Char} (predefined : (name, c) ∈ entities) : Refers name c
  | decimal {cs : List Char} {ds : List Nat} {c : Char} (some_digit : cs ≠ [])
      (digits : Numeral 10 cs ds) (code : numberFrom 10 0 ds = c.toNat) (not_null : c ≠ '\x00') :
      Refers ('#' :: cs) c
  | hexadecimal {cs : List Char} {ds : List Nat} {c : Char} (some_digit : cs ≠ [])
      (digits : Numeral 16 cs ds) (code : numberFrom 16 0 ds = c.toNat) (not_null : c ≠ '\x00') :
      Refers ('#' :: 'x' :: cs) c

/-- What a text stands for: each ampersand begins a reference, and the character it refers to is
not looked at again. -/
inductive Stands : List Char → List Char → Prop
  | nil : Stands [] []
  | plain {c : Char} {raw value : List Char} (other : c ≠ '&') (rest : Stands raw value) :
      Stands (c :: raw) (c :: value)
  | reference {name raw value : List Char} {c : Char} (refers : Refers name c)
      (rest : Stands raw value) : Stands ('&' :: name ++ ';' :: raw) (c :: value)

theorem digitValue_of_spells {c : Char} {d : Nat} (spells : Spells c d) :
    digitValue? c = some d := by
  have all : ∀ d < 16, (numerals[d]?.getD []).all fun c => digitValue? c = some d := by decide
  have small : d < 16 := by
    apply Nat.lt_of_not_le
    intro large
    rw [Spells, List.getElem?_eq_none large] at spells
    cases spells
  simpa using List.all_eq_true.mp (all d small) c spells

theorem spells_of_digitValue {c : Char} {d : Nat} (value : digitValue? c = some d) :
    Spells c d := by
  have all : ∀ n < 103, (digitValue? (Char.ofNat n)).all fun d => Spells (Char.ofNat n) d := by
    decide
  have small : c.toNat < 103 := by
    simp only [digitValue?] at value
    split at value
    · omega
    · split at value
      · omega
      · split at value
        · omega
        · cases value
  have found := all c.toNat small
  rw [Char.ofNat_toNat, value] at found
  simpa using found

theorem le_numberFrom {base : Nat} (positive : 0 < base) (ds : List Nat) (before : Nat) :
    before ≤ numberFrom base before ds := by
  induction ds generalizing before with
  | nil => exact Nat.le_refl before
  | cons d ds ih =>
      have step : before ≤ before * base + d :=
        Nat.le_trans (Nat.le_mul_of_pos_right before positive) (Nat.le_add_right _ d)
      exact Nat.le_trans step (ih (before * base + d))

theorem numeral_of_readCode {base before code : Nat} {cs : List Char}
    (read : readCode base before cs = .ok code) :
    ∃ ds, Numeral base cs ds ∧ numberFrom base before ds = code := by
  induction cs generalizing before with
  | nil =>
      cases read
      exact ⟨[], .nil, rfl⟩
  | cons c cs ih =>
      rw [readCode] at read
      cases value : digitValue? c with
      | none =>
          rw [value] at read
          cases read
      | some d =>
          simp only [value] at read
          split at read
          · cases read
          · rename_i below
            split at read
            · cases read
            · obtain ⟨ds, digits, total⟩ := ih read
              exact ⟨d :: ds,
                .cons ⟨spells_of_digitValue value, Nat.lt_of_not_le below⟩ digits, total⟩

theorem readCode_of_numeral {base before : Nat} {cs : List Char} {ds : List Nat}
    (positive : 0 < base) (digits : Numeral base cs ds)
    (small : numberFrom base before ds ≤ 4294967295) :
    readCode base before cs = .ok (numberFrom base before ds) := by
  induction digits generalizing before with
  | nil => rfl
  | @cons c d cs ds spelt _ ih =>
      have partly : before * base + d ≤ 4294967295 :=
        Nat.le_trans (le_numberFrom positive ds (before * base + d)) small
      rw [readCode, digitValue_of_spells spelt.1]
      simp only [Nat.not_le.mpr spelt.2, Nat.not_lt.mpr partly, if_false]
      exact ih small

def numberForm : List Char → Nat × List Char
  | 'x' :: digits => (16, digits)
  | digits => (10, digits)

theorem numberForm_cases (cs : List Char) :
    (∃ digits, cs = 'x' :: digits ∧ numberForm cs = (16, digits)) ∨ numberForm cs = (10, cs) := by
  unfold numberForm
  split
  · exact .inl ⟨_, rfl, rfl⟩
  · exact .inr rfl

theorem base_pos (cs : List Char) : 0 < (numberForm cs).1 := by
  unfold numberForm
  split <;> exact Nat.succ_pos _

theorem readNumber_eq (cs : List Char) :
    readNumber cs =
      match (numberForm cs).2 with
      | [] => .error .emptyNumber
      | c :: _ =>
          if c = '+' ∨ c = '-' then .error .signedNumber
          else match readCode (numberForm cs).1 0 (numberForm cs).2 with
            | .error e => .error e
            | .ok code =>
                if code = 0 then .error .null
                else if code.isValidChar then .ok (Char.ofNat code)
                else .error (.notScalar code) := rfl

theorem code_of_readNumber {cs : List Char} {c : Char} (read : readNumber cs = .ok c) :
    (numberForm cs).2 ≠ [] ∧ c ≠ '\x00' ∧
      readCode (numberForm cs).1 0 (numberForm cs).2 = .ok c.toNat := by
  rw [readNumber_eq] at read
  split at read
  · cases read
  · rename_i first others form
    split at read
    · cases read
    · split at read
      · cases read
      · rename_i code number
        split at read
        · cases read
        · rename_i some_code
          split at read
          · rename_i valid
            cases read
            have back : (Char.ofNat code).toNat = code := by
              rw [Char.ofNat, dif_pos valid]
              rfl
            refine ⟨by simp [form], ?_, by rw [number, back]⟩
            intro null
            rw [null] at back
            exact some_code back.symm
          · cases read

theorem readNumber_of_code {cs : List Char} {c : Char} (some_digit : (numberForm cs).2 ≠ [])
    (not_null : c ≠ '\x00')
    (number : readCode (numberForm cs).1 0 (numberForm cs).2 = .ok c.toNat) :
    readNumber cs = .ok c := by
  obtain ⟨first, others, form⟩ := List.exists_cons_of_ne_nil some_digit
  have unsigned : ¬(first = '+' ∨ first = '-') := by
    intro sign
    rw [form, readCode] at number
    rcases sign with rfl | rfl <;> cases number
  have some_code : c.toNat ≠ 0 := by
    intro zero
    apply not_null
    rw [← Char.ofNat_toNat c, zero]
  have valid : c.toNat.isValidChar := c.valid
  rw [readNumber_eq, number, form]
  simp only [unsigned, some_code, valid, if_true, if_false, Char.ofNat_toNat]

theorem numberForm_digits {cs : List Char} {ds : List Nat} (digits : Numeral 10 cs ds) :
    numberForm cs = (10, cs) := by
  unfold numberForm
  split
  · rename_i others
    cases digits with
    | cons first _ =>
        have value := digitValue_of_spells first.1
        cases value
  · rfl

theorem refers_number_iff {cs : List Char} {c : Char} :
    Refers ('#' :: cs) c ↔
      (numberForm cs).2 ≠ [] ∧ c ≠ '\x00' ∧
        ∃ ds, Numeral (numberForm cs).1 (numberForm cs).2 ds ∧
          numberFrom (numberForm cs).1 0 ds = c.toNat := by
  constructor
  · intro refers
    cases refers with
    | entity predefined => simp [entities] at predefined
    | decimal some_digit digits code not_null =>
        rw [numberForm_digits digits]
        exact ⟨some_digit, not_null, _, digits, code⟩
    | hexadecimal some_digit digits code not_null => exact ⟨some_digit, not_null, _, digits, code⟩
  · rintro ⟨some_digit, not_null, ds, digits, code⟩
    rcases numberForm_cases cs with ⟨others, rfl, form⟩ | form
    · rw [form] at some_digit digits code
      exact .hexadecimal some_digit digits code not_null
    · rw [form] at some_digit digits code
      exact .decimal some_digit digits code not_null

theorem readNumber_eq_ok_iff {cs : List Char} {c : Char} :
    readNumber cs = .ok c ↔ Refers ('#' :: cs) c := by
  rw [refers_number_iff]
  constructor
  · intro read
    obtain ⟨some_digit, not_null, number⟩ := code_of_readNumber read
    exact ⟨some_digit, not_null, numeral_of_readCode number⟩
  · rintro ⟨some_digit, not_null, ds, digits, code⟩
    have small : c.toNat ≤ 4294967295 := Nat.le_of_lt_succ c.val.toNat_lt
    have number := readCode_of_numeral (base_pos cs) digits (code ▸ small)
    rw [code] at number
    exact readNumber_of_code some_digit not_null number

theorem predefined_eq_some_iff {name : List Char} {c : Char} :
    predefined? name = some c ↔ (name, c) ∈ entities := by
  constructor
  · intro found
    unfold predefined? at found
    repeat'
      split at found
      · rename_i same
        rw [same, ← Option.some.inj found]
        decide
    cases found
  · intro member
    simp only [entities, List.mem_cons, Prod.mk.injEq, List.not_mem_nil, or_false] at member
    rcases member with ⟨rfl, rfl⟩ | ⟨rfl, rfl⟩ | ⟨rfl, rfl⟩ | ⟨rfl, rfl⟩ | ⟨rfl, rfl⟩ <;> rfl

theorem resolve_eq_ok_iff {start : Nat} {name : List Char} {c : Char} :
    resolve start name = .ok c ↔ Refers name c := by
  unfold resolve
  split
  · rename_i number
    exact readNumber_eq_ok_iff
  · rename_i other
    have named : Refers name c ↔ (name, c) ∈ entities := by
      constructor
      · intro refers
        cases refers with
        | entity predefined => exact predefined
        | decimal => exact absurd rfl (other _)
        | hexadecimal => exact absurd rfl (other _)
      · exact .entity
    rw [named, ← predefined_eq_some_iff]
    cases predefined? name <;> simp

theorem not_end_of_numeral {base : Nat} {cs : List Char} {ds : List Nat}
    (digits : Numeral base cs ds) : ∀ c ∈ cs, isReferenceEnd c = false := by
  induction digits with
  | nil => exact List.forall_mem_nil _
  | @cons c d cs ds spelt _ ih =>
      have value := digitValue_of_spells spelt.1
      have inside : isReferenceEnd c = false := by
        apply Bool.eq_false_iff.mpr
        intro stop
        simp only [isReferenceEnd, Bool.or_eq_true, beq_iff_eq] at stop
        rcases stop with rfl | rfl <;> cases value
      exact List.forall_mem_cons.mpr ⟨inside, ih⟩

theorem not_end_of_refers {name : List Char} {c : Char} (refers : Refers name c) :
    ∀ d ∈ name, isReferenceEnd d = false := by
  cases refers with
  | entity predefined =>
      have all : ∀ entry ∈ entities, entry.1.all fun d => !isReferenceEnd d := by decide
      intro d member
      simpa using List.all_eq_true.mp (all _ predefined) d member
  | decimal _ digits => exact List.forall_mem_cons.mpr ⟨rfl, not_end_of_numeral digits⟩
  | hexadecimal _ digits =>
      exact List.forall_mem_cons.mpr
        ⟨rfl, List.forall_mem_cons.mpr ⟨rfl, not_end_of_numeral digits⟩⟩

theorem unescapeFrom_of_stands {raw value : List Char} (stands : Stands raw value) (offset : Nat)
    (read : List Char) : unescapeFrom offset read raw = .ok (read.reverse ++ value) := by
  induction stands generalizing offset read with
  | nil => simp [unescapeFrom]
  | plain other _ ih =>
      rw [unescapeFrom_plain other, ih]
      simp
  | reference refers _ ih =>
      rw [unescapeFrom_reference (not_end_of_refers refers) (resolve_eq_ok_iff.mpr refers), ih]
      simp

theorem stands_of_unescapeFrom {raw value : List Char} {offset : Nat} {read : List Char}
    (unescaped : unescapeFrom offset read raw = .ok value) :
    ∃ rest, Stands raw rest ∧ value = read.reverse ++ rest := by
  fun_induction unescapeFrom offset read raw with
  | case1 offset read =>
      cases unescaped
      exact ⟨[], .nil, by simp⟩
  | case2 => cases unescaped
  | case3 offset read cs name rest left c resolved ih =>
      obtain ⟨others, stands, rfl⟩ := ih unescaped
      have whole : cs = name ++ ';' :: rest := by rw [← left, List.takeWhile_append_dropWhile]
      refine ⟨c :: others, ?_, by simp⟩
      rw [whole]
      exact .reference (resolve_eq_ok_iff.mp resolved) stands
  | case4 => cases unescaped
  | case5 offset read c cs plain ih =>
      obtain ⟨others, stands, rfl⟩ := ih unescaped
      exact ⟨c :: others, .plain plain stands, by simp⟩

/-- References are replaced as a text stands for, and where it stands for nothing reading fails. -/
theorem unescape_eq_ok_iff {raw value : List Char} :
    unescape raw = .ok value ↔ Stands raw value := by
  constructor
  · intro unescaped
    obtain ⟨rest, stands, rfl⟩ := stands_of_unescapeFrom unescaped
    exact stands
  · intro stands
    exact unescapeFrom_of_stands stands 0 []

theorem Stands.unique {raw value other : List Char} (stands : Stands raw value)
    (another : Stands raw other) : other = value :=
  Except.ok.inj ((unescape_eq_ok_iff.mpr another).symm.trans (unescape_eq_ok_iff.mpr stands))

theorem Stands.append {raw value more others : List Char} (first : Stands raw value)
    (second : Stands more others) : Stands (raw ++ more) (value ++ others) := by
  induction first with
  | nil => exact second
  | plain other _ ih => exact .plain other ih
  | reference refers _ ih =>
      rw [List.append_assoc]
      exact .reference refers ih

theorem stands_self {raw : List Char} (plain : ∀ c ∈ raw, c ≠ '&') : Stands raw raw := by
  induction raw with
  | nil => exact .nil
  | cons c raw ih =>
      obtain ⟨here, others⟩ := List.forall_mem_cons.mp plain
      exact .plain here (ih others)

theorem stands_spaces {raw : List Char} (spaces : ∀ c ∈ raw, isMarkupSpace c = true) :
    Stands raw raw := by
  refine stands_self fun c member => ?_
  rintro rfl
  cases spaces _ member

theorem stands_between {lead raw value trail : List Char}
    (spaces : ∀ c ∈ lead, isMarkupSpace c = true) (stands : Stands raw value)
    (spaces_behind : ∀ c ∈ trail, isMarkupSpace c = true) :
    Stands (lead ++ raw ++ trail) (lead ++ value ++ trail) :=
  ((stands_spaces spaces).append stands).append (stands_spaces spaces_behind)

theorem stands_of_trim {raw piece : List Char} (stands : Stands (trim raw) piece) :
    ∃ value, Stands raw value := by
  obtain ⟨lead, trail, split, spaces, spaces_behind⟩ := trim_split raw
  have whole := stands_between spaces stands spaces_behind
  rw [← split] at whole
  exact ⟨_, whole⟩

theorem Stands.reference_at {raw value : List Char} (stands : Stands raw value)
    {before after : List Char} (place : raw = before ++ '&' :: after) :
    ∃ name c rest, after = name ++ ';' :: rest ∧ Refers name c := by
  induction stands generalizing before with
  | nil => simp at place
  | plain other _ ih =>
      cases before with
      | nil => exact absurd (List.cons.inj place).1 other
      | cons c before => exact ih (List.cons.inj place).2
  | @reference name raw value c refers _ ih =>
      cases before with
      | nil => exact ⟨name, c, raw, (List.cons.inj place).2.symm, refers⟩
      | cons d before =>
          -- The ampersand is not in the name, so it comes behind the semicolon.
          have inside : '&' ∉ name := by
            intro member
            have := not_end_of_refers refers '&' member
            cases this
          have behind : name ++ ';' :: raw = before ++ '&' :: after := (List.cons.inj place).2
          rcases List.append_eq_append_iff.mp behind with ⟨mid, rfl, split⟩ | ⟨mid, rfl, split⟩
          · cases mid with
            | nil => cases (List.cons.inj split).1
            | cons e mid => exact ih (List.cons.inj split).2
          · cases mid with
            | nil => cases (List.cons.inj split).1
            | cons e mid =>
                rw [← (List.cons.inj split).1] at inside
                simp at inside

end Terminology.Markup
