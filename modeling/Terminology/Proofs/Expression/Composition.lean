import Terminology.Proofs.Expression.Expansion

/-!
Expanding in two steps and in one. Bindings laid over others hide those of the same field, and
expanding with the upper ones and then with the lower ones is expanding with both at once, also
where a step is refused.
-/

namespace Terminology

namespace Bindings

/-- The bindings of two sets together; a field that both bind has its upper binding. -/
def Joins (joined upper lower : Bindings) : Prop :=
  ∀ field, joined.get? field = (upper.get? field).or (lower.get? field)

/-- No field is bound in both. -/
def Apart (one other : Bindings) : Prop :=
  ∀ field, one.get? field = none ∨ other.get? field = none

variable {one other upper lower : Bindings}

theorem joins_append (upper lower : Bindings) : Joins (upper ++ lower) upper lower := by
  intro field
  exact List.lookup_append

theorem joins_self (bindings : Bindings) : Joins bindings bindings bindings := by
  intro field
  exact (Option.or_self).symm

theorem Apart.joins (apart : Apart one other) : Joins (one ++ other) other one := by
  intro field
  rw [joins_append one other field]
  rcases apart field with free | free
  · rw [free, Option.none_or, Option.or_none]
  · rw [free, Option.none_or, Option.or_none]

end Bindings

namespace Expression

open Bindings

variable {joined upper lower : Bindings}

theorem expand_of_fill {kind : Kind} {binding : Binding} {e : Expression}
    (filled : binding.fill? kind = some e) (bindings : Bindings) :
    expand bindings e = .ok e := by
  rcases fill_cases filled with ⟨c, -, rfl, -⟩ | ⟨value, -, rfl, -⟩
  · rfl
  · rfl

theorem expand_placeholder_joined_iff (joins : Joins joined upper lower) {kind : Kind}
    {field : String} {deferred : Bool} {children : List Expression} {filled : Expression} :
    expand joined (node kind (.placeholder field deferred) children) = .ok filled ↔
      ∃ between, expand upper (node kind (.placeholder field deferred) children) = .ok between ∧
        expand lower between = .ok filled := by
  have both := joins field
  cases bound : upper.get? field with
  | none =>
      -- The first step keeps the placeholder with all below it, so the second one finds it.
      have kept : expand upper (node kind (.placeholder field deferred) children) =
          .ok (node kind (.placeholder field deferred) children) :=
        expand_placeholder_eq_ok_iff.mpr (.inl ⟨bound, rfl⟩)
      rw [bound, Option.none_or] at both
      rw [kept, expand_placeholder_eq_ok_iff, both, ← expand_placeholder_eq_ok_iff]
      simp
  | some binding =>
      rw [bound, Option.some_or] at both
      cases taken : binding.fill? kind with
      | none => simp [expand, both, bound, taken]
      | some e => simp [expand, both, bound, taken, expand_of_fill taken]

mutual

/-- Expanding with joined bindings is expanding with the upper ones and then with the lower ones:
all steps are taken, with the same outcome, or in both ways one is refused. -/
theorem expand_joined_iff (joins : Joins joined upper lower) (e filled : Expression) :
    expand joined e = .ok filled ↔
      ∃ between, expand upper e = .ok between ∧ expand lower between = .ok filled := by
  obtain ⟨kind, payload, children⟩ := e
  rcases payload.placeholder_or with ⟨field, deferred, rfl⟩ | other
  · exact expand_placeholder_joined_iff joins
  · rw [expand_node_eq_ok_iff other]
    constructor
    · intro at_once
      obtain ⟨es, below, rfl⟩ := at_once
      obtain ⟨between, first, second⟩ := (expandAll_joined_iff joins children es).mp below
      refine ⟨node kind payload between, ?_, ?_⟩
      · exact (expand_node_eq_ok_iff other).mpr ⟨between, first, rfl⟩
      · exact (expand_node_eq_ok_iff other).mpr ⟨es, second, rfl⟩
    · intro in_turn
      obtain ⟨_, first, second⟩ := in_turn
      obtain ⟨between, upper_below, rfl⟩ := (expand_node_eq_ok_iff other).mp first
      obtain ⟨es, lower_below, rfl⟩ := (expand_node_eq_ok_iff other).mp second
      refine ⟨es, ?_, rfl⟩
      exact (expandAll_joined_iff joins children es).mpr ⟨between, upper_below, lower_below⟩

theorem expandAll_joined_iff (joins : Joins joined upper lower) (es filled : List Expression) :
    expandAll joined es = .ok filled ↔
      ∃ between, expandAll upper es = .ok between ∧ expandAll lower between = .ok filled := by
  cases es with
  | nil => simp [expandAll]
  | cons e es =>
      rw [expandAll_cons_eq_ok_iff]
      constructor
      · intro at_once
        obtain ⟨first, others, here, behind, rfl⟩ := at_once
        obtain ⟨e', upper_here, lower_here⟩ := (expand_joined_iff joins e first).mp here
        obtain ⟨es', upper_behind, lower_behind⟩ :=
          (expandAll_joined_iff joins es others).mp behind
        refine ⟨e' :: es', ?_, ?_⟩
        · exact expandAll_cons_eq_ok_iff.mpr ⟨e', es', upper_here, upper_behind, rfl⟩
        · exact expandAll_cons_eq_ok_iff.mpr ⟨first, others, lower_here, lower_behind, rfl⟩
      · intro in_turn
        obtain ⟨_, upper_all, lower_all⟩ := in_turn
        obtain ⟨e', es', upper_here, upper_behind, rfl⟩ := expandAll_cons_eq_ok_iff.mp upper_all
        obtain ⟨first, others, lower_here, lower_behind, rfl⟩ :=
          expandAll_cons_eq_ok_iff.mp lower_all
        refine ⟨first, others, ?_, ?_, rfl⟩
        · exact (expand_joined_iff joins e first).mpr ⟨e', upper_here, lower_here⟩
        · exact (expandAll_joined_iff joins es others).mpr ⟨es', upper_behind, lower_behind⟩

end

theorem expand_again {bindings : Bindings} {e filled : Expression}
    (expanded : expand bindings e = .ok filled) : expand bindings filled = .ok filled := by
  obtain ⟨between, first, again⟩ := (expand_joined_iff (joins_self bindings) e filled).mp expanded
  have same : between = filled := Except.ok.inj (first.symm.trans expanded)
  rwa [same] at again

theorem expand_apart_iff {one other : Bindings} (apart : Apart one other)
    (e filled : Expression) :
    (∃ between, expand one e = .ok between ∧ expand other between = .ok filled) ↔
      ∃ between, expand other e = .ok between ∧ expand one between = .ok filled :=
  calc
    (∃ between, expand one e = .ok between ∧ expand other between = .ok filled)
      ↔ expand (one ++ other) e = .ok filled :=
          (expand_joined_iff (joins_append one other) e filled).symm
    _ ↔ ∃ between, expand other e = .ok between ∧ expand one between = .ok filled :=
          expand_joined_iff apart.joins e filled

/-- Expansion composes. With joined bindings a tree is expanded exactly if it is with the upper
ones and what comes out is with the lower ones, and to the same tree. So expanding again with the
same bindings changes nothing, and bindings of different fields may come in either order. -/
theorem expand_composes (upper lower : Bindings) (e : Expression) :
    (∀ joined, Joins joined upper lower → ∀ filled,
      (expand joined e = .ok filled ↔
        ∃ between, expand upper e = .ok between ∧ expand lower between = .ok filled)) ∧
    (∀ filled, expand upper e = .ok filled → expand upper filled = .ok filled) ∧
    (Apart upper lower → ∀ filled,
      ((∃ between, expand upper e = .ok between ∧ expand lower between = .ok filled) ↔
        ∃ between, expand lower e = .ok between ∧ expand upper between = .ok filled)) := by
  refine ⟨?_, ?_, ?_⟩
  · intro joined joins filled
    exact expand_joined_iff joins e filled
  · intro filled expanded
    exact expand_again expanded
  · intro apart filled
    exact expand_apart_iff apart e filled

/-- A bound placeholder with another one below it, which vanishes; one that only the second step
fills; and one of a kind that is no placeholder's, which stays with what is below it. -/
theorem expand_composes_hidden :
    let c : ConceptRef := ⟨⟨1⟩⟩
    let dose := placeholder .substitutionInteger "dose"
    let odd := node .and (.placeholder "note" false) [placeholder .substitutionConcept "site"]
    let e := connective .or [node .substitutionConcept (.placeholder "site" true) [dose], dose, odd]
    let upper : Bindings := [("site", .concept c)]
    let lower : Bindings := [("dose", .literal (.integer 3))]
    let between := connective .or [concept c, dose, odd]
    let filled := connective .or [concept c, literal (.integer 3), odd]
    Joins (lower.bind "site" (.concept c)) upper lower ∧ Apart upper lower ∧
      expand upper e = .ok between ∧ expand upper between = .ok between ∧
      expand (lower.bind "site" (.concept c)) e = .ok filled ∧
      ∃ other, expand lower e = .ok other ∧ expand upper other = .ok filled := by
  intro c dose odd e upper lower between filled
  have joins : Joins (lower.bind "site" (.concept c)) upper lower := joins_append upper lower
  have apart : Apart upper lower := by
    intro field
    by_cases site : field = "site"
    · right
      rw [site]
      rfl
    · left
      have other : (field == "site") = false := beq_eq_false_iff_ne.mpr site
      rw [Bindings.get?, List.lookup_cons, other]
      rfl
  have first : expand upper e = .ok between := rfl
  have second : expand lower between = .ok filled := rfl
  obtain ⟨composes, again, swap⟩ := expand_composes upper lower e
  refine ⟨joins, apart, first, again between first, ?_, ?_⟩
  · exact (composes _ joins filled).mpr ⟨between, first, second⟩
  · exact (swap apart filled).mp ⟨between, first, second⟩

end Expression

end Terminology
