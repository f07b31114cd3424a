import Terminology.Text.Character

/-!
Classes of characters as ranges of code points.
-/

namespace Terminology

/-- Whether the code point of a character is in one of the ranges. -/
def Within (ranges : List (Nat × Nat)) (c : Char) : Prop :=
  ∃ range ∈ ranges, range.1 ≤ c.toNat ∧ c.toNat ≤ range.2

/-- The production `Char` of XML 1.0. -/
def xmlRanges : List (Nat × Nat) :=
  [(0x9, 0x9), (0xA, 0xA), (0xD, 0xD), (0x20, 0xD7FF), (0xE000, 0xFFFD), (0x10000, 0x10FFFF)]

/-- The Unicode property White_Space. -/
def whiteSpaceRanges : List (Nat × Nat) :=
  [(0x9, 0xD), (0x20, 0x20), (0x85, 0x85), (0xA0, 0xA0), (0x1680, 0x1680), (0x2000, 0x200A),
    (0x2028, 0x2029), (0x202F, 0x202F), (0x205F, 0x205F), (0x3000, 0x3000)]

theorem within_nil (c : Char) : ¬ Within [] c := by simp [Within]

theorem within_cons (first last : Nat) (ranges : List (Nat × Nat)) (c : Char) :
    Within ((first, last) :: ranges) c ↔
      (first ≤ c.toNat ∧ c.toNat ≤ last) ∨ Within ranges c := by
  simp [Within]

theorem isSpace_iff {c : Char} : Text.isSpace c = true ↔ Within whiteSpaceRanges c := by
  simp only [whiteSpaceRanges, within_cons, within_nil, or_false, Text.isSpace, Bool.or_eq_true,
    Bool.and_eq_true, beq_iff_eq, decide_eq_true_eq]
  omega

theorem not_isBlank_iff {cs : List Char} :
    Text.isBlank cs = false ↔ ∃ c ∈ cs, ¬ Within whiteSpaceRanges c := by
  simp [Text.isBlank, ← isSpace_iff]

end Terminology
