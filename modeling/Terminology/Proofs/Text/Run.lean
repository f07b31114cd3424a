import Mathlib.Data.List.TakeWhile
import Terminology.Text.Character

/-!
A run of characters of one class, and what stops it.
-/

namespace Terminology.Text

section

variable {α : Type} {inside : α → Bool} {run : List α} {stop : α}

theorem takeWhile_run (all : ∀ c ∈ run, inside c = true) (stops : inside stop = false)
    (rest : List α) : (run ++ stop :: rest).takeWhile inside = run := by
  rw [List.takeWhile_append_of_pos all, List.takeWhile_cons, stops]
  simp

theorem dropWhile_run (all : ∀ c ∈ run, inside c = true) (stops : inside stop = false)
    (rest : List α) : (run ++ stop :: rest).dropWhile inside = stop :: rest := by
  rw [List.dropWhile_append_of_pos all, List.dropWhile_cons, stops]
  simp

theorem split_at_stop {text rest : List α} (left : text.dropWhile inside = stop :: rest) :
    ∃ run, text.takeWhile inside = run ∧ text = run ++ stop :: rest ∧
      (∀ c ∈ run, inside c = true) ∧ inside stop = false := by
  refine ⟨text.takeWhile inside, rfl, by rw [← left, List.takeWhile_append_dropWhile],
    fun c member => List.mem_takeWhile_imp member, ?_⟩
  have stops := List.head_dropWhile_not inside (by rw [left]; exact List.cons_ne_nil _ _)
  simpa [left] using stops

end

theorem trimEnd_split (cs : List Char) :
    ∃ trail, cs = trimEnd cs ++ trail ∧ ∀ c ∈ trail, isMarkupSpace c = true := by
  refine ⟨(cs.reverse.takeWhile isMarkupSpace).reverse, ?_, ?_⟩
  · rw [trimEnd, ← List.reverse_append, List.takeWhile_append_dropWhile, List.reverse_reverse]
  · intro c member
    exact List.mem_takeWhile_imp (List.mem_reverse.mp member)

theorem trim_split (cs : List Char) :
    ∃ lead trail, cs = lead ++ trim cs ++ trail ∧ (∀ c ∈ lead, isMarkupSpace c = true) ∧
      ∀ c ∈ trail, isMarkupSpace c = true := by
  obtain ⟨trail, split, spaces⟩ := trimEnd_split (cs.dropWhile isMarkupSpace)
  refine ⟨cs.takeWhile isMarkupSpace, trail, ?_, fun c member => List.mem_takeWhile_imp member,
    spaces⟩
  rw [List.append_assoc, trim, ← split, List.takeWhile_append_dropWhile]

end Terminology.Text
