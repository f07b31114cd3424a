import Terminology.Markup.Reference
import Terminology.Proofs.Text.Run

/-!
Escaped text reads back as what it stands for, and holds none of the characters that delimit
tags and values.
-/

namespace Terminology.Markup

open Text

theorem unescapeFrom_plain {offset : Nat} {read cs : List Char} {c : Char} (plain : c ≠ '&') :
    unescapeFrom offset read (c :: cs) = unescapeFrom (offset + c.utf8Size) (c :: read) cs := by
  rw [unescapeFrom]
  simp only [plain, if_false]

theorem unescapeFrom_reference {offset : Nat} {read name rest : List Char} {c : Char}
    (inside : ∀ d ∈ name, isReferenceEnd d = false) (stands : resolve (offset + 1) name = .ok c) :
    unescapeFrom offset read ('&' :: name ++ ';' :: rest) =
      unescapeFrom (offset + byteLength name + 2) (c :: read) rest := by
  have before : ∀ d ∈ name, (!isReferenceEnd d) = true := by
    intro d member
    rw [inside d member]
    rfl
  have stop : (!isReferenceEnd ';') = false := rfl
  have taken := takeWhile_run before stop rest
  have left := dropWhile_run before stop rest
  rw [List.cons_append, unescapeFrom]
  simp only [if_true]
  split
  · rename_i after shape
    rw [left] at shape
    cases shape
    simp only [taken, stands]
  · rename_i other
    exact absurd left (other rest)

/-- The five characters that markup claims for itself. -/
def isSpecial (c : Char) : Bool :=
  c == '<' || c == '>' || c == '&' || c == '\x27' || c == '"'

theorem escapeChar_plain {c : Char} (plain : isSpecial c = false) : escapeChar c = [c] := by
  simp only [isSpecial, Bool.or_eq_false_iff, beq_eq_false_iff_ne, ne_eq] at plain
  obtain ⟨⟨⟨⟨lt, gt⟩, amp⟩, apos⟩, quot⟩ := plain
  simp only [escapeChar, lt, gt, amp, apos, quot, if_false]

theorem escapeChar_special {c : Char} (special : isSpecial c = true) :
    ∃ name, escapeChar c = '&' :: name ++ [';'] ∧ (∀ d ∈ name, isReferenceEnd d = false) ∧
      (∀ d ∈ name, isSpecial d = false) ∧ ∀ start, resolve start name = .ok c := by
  simp only [isSpecial, Bool.or_eq_true, beq_iff_eq] at special
  rcases special with (((rfl | rfl) | rfl) | rfl) | rfl
  · exact ⟨['l', 't'], rfl, by simp [isReferenceEnd], by simp [isSpecial], fun _ => rfl⟩
  · exact ⟨['g', 't'], rfl, by simp [isReferenceEnd], by simp [isSpecial], fun _ => rfl⟩
  · exact ⟨['a', 'm', 'p'], rfl, by simp [isReferenceEnd], by simp [isSpecial], fun _ => rfl⟩
  · exact ⟨['a', 'p', 'o', 's'], rfl, by simp [isReferenceEnd], by simp [isSpecial], fun _ => rfl⟩
  · exact ⟨['q', 'u', 'o', 't'], rfl, by simp [isReferenceEnd], by simp [isSpecial], fun _ => rfl⟩

theorem escape_cons (c : Char) (cs : List Char) :
    escape (c :: cs) = escapeChar c ++ escape cs :=
  List.flatMap_cons

theorem unescapeFrom_escape (offset : Nat) (read cs : List Char) :
    unescapeFrom offset read (escape cs) = .ok (read.reverse ++ cs) := by
  induction cs generalizing offset read with
  | nil => simp [escape, unescapeFrom]
  | cons c cs ih =>
      rw [escape_cons]
      cases special : isSpecial c with
      | false =>
          have plain : c ≠ '&' := by
            intro same
            subst same
            cases special
          rw [escapeChar_plain special, List.singleton_append, unescapeFrom_plain plain]
          simpa using ih (offset + c.utf8Size) (c :: read)
      | true =>
          obtain ⟨name, written, inside, _, stands⟩ := escapeChar_special special
          rw [written, List.append_assoc, List.singleton_append,
            unescapeFrom_reference inside (stands _)]
          simpa using ih (offset + byteLength name + 2) (c :: read)

theorem unescape_escape (cs : List Char) : unescape (escape cs) = .ok cs :=
  unescapeFrom_escape 0 [] cs

/-- The only special character in escaped text is the ampersand of a reference. -/
theorem mem_escape {cs : List Char} {c : Char} (member : c ∈ escape cs) :
    c = '&' ∨ isSpecial c = false := by
  obtain ⟨source, _, part⟩ := List.mem_flatMap.mp member
  cases special : isSpecial source with
  | false =>
      rw [escapeChar_plain special, List.mem_singleton] at part
      rw [part]
      exact .inr special
  | true =>
      obtain ⟨name, written, _, plain, _⟩ := escapeChar_special special
      rw [written] at part
      simp only [List.cons_append, List.mem_cons, List.mem_append, List.not_mem_nil,
        or_false] at part
      rcases part with rfl | part | rfl
      · exact .inl rfl
      · exact .inr (plain c part)
      · exact .inr rfl

end Terminology.Markup
