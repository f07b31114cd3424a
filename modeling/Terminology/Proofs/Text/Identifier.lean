import Terminology.Comparison
import Terminology.Concept
import Terminology.Proofs.Text.Decimal

/-!
Identifiers survive their text, hyphens included, and so do the words for comparisons.
-/

namespace Terminology

namespace Uuid

open Text

theorem length_hyphenate (sizes : List Nat) (digits : List Char)
    (enough : sizes.sum = digits.length) (some_group : sizes ≠ []) :
    (hyphenate sizes digits).length = digits.length + sizes.length - 1 := by
  induction sizes generalizing digits with
  | nil => exact absurd rfl some_group
  | cons size sizes ih =>
      cases sizes with
      | nil =>
          simp only [List.sum_cons, List.sum_nil] at enough
          simp only [hyphenate, List.length_take, List.length_cons, List.length_nil]
          omega
      | cons next sizes =>
          simp only [List.sum_cons] at enough ih
          have others := ih (digits.drop size) (by simp only [List.length_drop]; omega) (by simp)
          simp only [hyphenate, List.length_append, List.length_take, List.length_cons,
            List.length_drop] at others ⊢
          omega

theorem unhyphenate_hyphenate (sizes : List Nat) (digits : List Char)
    (enough : sizes.sum = digits.length) :
    unhyphenate? sizes (hyphenate sizes digits) = some digits := by
  induction sizes generalizing digits with
  | nil =>
      have none_left : digits = [] := List.length_eq_zero_iff.mp enough.symm
      rw [none_left]
      rfl
  | cons size sizes ih =>
      simp only [List.sum_cons] at enough
      cases sizes with
      | nil =>
          simp only [List.sum_nil] at enough
          have whole : digits.take size = digits := List.take_of_length_le (by omega)
          rw [hyphenate, whole, unhyphenate?, if_pos (by omega)]
      | cons next sizes =>
          have others := ih (digits.drop size) (by simp only [List.length_drop]; omega)
          have first : (digits.take size).length = size := by
            rw [List.length_take]
            omega
          simp only [hyphenate, unhyphenate?]
          rw [List.drop_left' first, List.take_left' first]
          simp [others]

theorem ofHex_hexPadded (id : Uuid) : ofHex? (hexPadded 32 id.value.toNat) = some id := by
  obtain ⟨digits, read, value⟩ := digitValues_hexPadded 32 id.value.toNat
  have small : id.value.toNat % 16 ^ 32 = id.value.toNat :=
    Nat.mod_eq_of_lt (by have := id.value.isLt; simpa using this)
  rw [ofHex?, if_pos (length_hexPadded 32 _), read, Option.map_some, value, small,
    BitVec.ofNat_toNat, BitVec.setWidth_eq]

theorem read_text (id : Uuid) : read? id.text = some id := by
  have size : (hyphenate groups (hexPadded 32 id.value.toNat)).length = 36 := by
    rw [length_hyphenate _ _ (by rw [length_hexPadded]; rfl) (by decide), length_hexPadded]
    rfl
  have digits : unhyphenate? groups (hyphenate groups (hexPadded 32 id.value.toNat)) =
      some (hexPadded 32 id.value.toNat) :=
    unhyphenate_hyphenate _ _ (by rw [length_hexPadded]; rfl)
  simp only [read?, text, String.toList_ofList, size]
  simp [ofHyphenated?, digits, ofHex_hexPadded]

end Uuid

theorem ConceptRef.read_text (c : ConceptRef) : read? c.text = some c := by
  simp [ConceptRef.read?, ConceptRef.text, Uuid.read_text]

theorem Comparison.read_text (c : Comparison) : read? c.text = some c := by
  cases c <;> decide

end Terminology
