import Terminology.Expression.Path
import Terminology.Proofs.Text.Run

/-!
Reading a path in a tree of named nodes. The text of a path leads to one node at most, and no two
nodes have one text, whatever the names are: the tree says which name comes next, and an index
ends where its bracket closes.
-/

namespace Terminology.Path

open Text

/-- Reading a text from the node `a` on. It is the name of the node where it ends; before that it
is, for each step, the name of a node and the index of the child that the rest leads on from. -/
inductive Leads {α : Type} (name : α → String) (below : α → List α) :
    α → List Nat → String → α → Prop
  | here (a : α) : Leads name below a [] (name a) a
  | down {a b c : α} {index : Nat} {steps : List Nat} {text : String}
      (child : (below a)[index]? = some b) (onward : Leads name below b steps text c) :
      Leads name below a (index :: steps) (name a ++ "[" ++ toString index ++ "]/" ++ text) c

theorem digits_before_bracket (index : Nat) (rest : String) :
    (toString index ++ "]/" ++ rest).toList.takeWhile Char.isDigit = Nat.toDigits 10 index := by
  have digits : ∀ c ∈ Nat.toDigits 10 index, c.isDigit = true := by
    intro c member
    exact Nat.isDigit_of_mem_toDigits (by decide) (by decide) member
  have bracket : (']').isDigit = false := rfl
  calc
    (toString index ++ "]/" ++ rest).toList.takeWhile Char.isDigit
      = (Nat.toDigits 10 index ++ ']' :: '/' :: rest.toList).takeWhile Char.isDigit := by simp
    _ = Nat.toDigits 10 index := takeWhile_run digits bracket _

theorem index_inj {index other : Nat} {rest rest' : String}
    (same : toString index ++ "]/" ++ rest = toString other ++ "]/" ++ rest') :
    index = other ∧ rest = rest' := by
  have digits : Nat.toDigits 10 index = Nat.toDigits 10 other := by
    rw [← digits_before_bracket index rest, same, digits_before_bracket]
  have equal : index = other := by
    calc
      index = Nat.ofDigitChars 10 (Nat.toDigits 10 index) 0 :=
        Nat.ofDigitChars_ten_toDigits.symm
      _ = Nat.ofDigitChars 10 (Nat.toDigits 10 other) 0 := by rw [digits]
      _ = other := Nat.ofDigitChars_ten_toDigits
  rw [equal] at same
  exact ⟨equal, (String.append_right_inj _).mp same⟩

variable {α : Type} {name : α → String} {below : α → List α} {a b : α}

theorem ne_of_bracket (front rest : String) : front ≠ front ++ "[" ++ rest := by
  intro same
  have lengths := congrArg String.length same
  simp only [String.length_append] at lengths
  have one : "[".length = 1 := rfl
  omega

theorem Leads.unique {steps steps' : List Nat} {text : String} {n n' : α}
    (leads : Leads name below a steps text n) (leads' : Leads name below a steps' text n') :
    steps = steps' ∧ n = n' := by
  induction leads generalizing steps' with
  | here a =>
      generalize ended : name a = text at leads'
      cases leads' with
      | here => exact ⟨rfl, rfl⟩
      | down child onward =>
          rw [String.append_assoc, String.append_assoc] at ended
          exact absurd ended (ne_of_bracket _ _)
  | @down a b c index steps text child onward ih =>
      generalize given : name a ++ "[" ++ toString index ++ "]/" ++ text = whole at leads'
      cases leads' with
      | here =>
          rw [String.append_assoc, String.append_assoc] at given
          exact absurd given.symm (ne_of_bracket _ _)
      | @down _ b' _ other steps' text' child' onward' =>
          have behind : toString index ++ "]/" ++ text = toString other ++ "]/" ++ text' := by
            apply (String.append_right_inj (name a ++ "[")).mp
            simpa only [String.append_assoc] using given
          obtain ⟨rfl, rfl⟩ := index_inj behind
          obtain rfl : b = b' := Option.some.inj (child.symm.trans child')
          obtain ⟨rfl, rfl⟩ := ih onward'
          exact ⟨rfl, rfl⟩

/-- The first place of a tree where something is wrong: a text and the steps that lead to it, what
is wrong there, and that nothing is at any place before it. Steps in their lexical order, a
beginning before its continuations, are the places in document order. -/
structure First {β : Type} (name : α → String) (below : α → List α) (Wrong : α → β → Prop) (a : α)
    (steps : List Nat) (text : String) (n : α) (fault : β) : Prop where
  leads : Leads name below a steps text n
  wrong : Wrong n fault
  earlier : ∀ before path m, Leads name below a before path m → before < steps →
    ∀ other, ¬ Wrong m other

section

variable {β : Type} {Wrong : α → β → Prop} {fault : β}

theorem First.here (wrong : Wrong a fault) : First name below Wrong a [] (name a) a fault where
  leads := .here a
  wrong := wrong
  earlier := fun _ _ _ _ before => absurd before (List.not_lt_nil _)

theorem First.down {index : Nat} {steps : List Nat} {text : String} {n : α}
    (passed : ∀ other, ¬ Wrong a other) (child : (below a)[index]? = some b)
    (clear : ∀ earlier < index, ∀ c, (below a)[earlier]? = some c →
      ∀ before path m, Leads name below c before path m → ∀ other, ¬ Wrong m other)
    (first : First name below Wrong b steps text n fault) :
    First name below Wrong a (index :: steps) (name a ++ "[" ++ toString index ++ "]/" ++ text) n
      fault where
  leads := .down child first.leads
  wrong := first.wrong
  earlier := by
    intro before path m leads less
    cases leads with
    | here => exact passed
    | @down _ c _ other _ _ there onward =>
        rcases List.cons_lt_cons_iff.mp less with before_child | ⟨rfl, within⟩
        · exact clear other before_child c there _ _ m onward
        · cases Option.some.inj (child.symm.trans there)
          exact first.earlier _ _ m onward within

end

end Terminology.Path
