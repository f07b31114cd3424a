import Mathlib.Data.Option.Basic
import Terminology.Expression.Validity

/-!
The trees that checking accepts, generated by one rule for each shape of node.
-/

namespace Terminology

/-- Values that documents can hold. -/
def Literal.Writable : Literal → Prop
  | .float x => x.isFinite = true
  | .instant t => 0 ≤ t.year ∧ t.year ≤ 9999
  | .string s => ∀ c ∈ s.toList, isXmlChar c = true
  | .boolean _ | .integer _ => True

theorem Literal.violation_eq_none_iff (value : Literal) :
    value.violation? = none ↔ value.Writable := by
  cases value with
  | boolean b => simp [violation?, Writable]
  | float x => simp [violation?, Writable]
  | instant t => simp [violation?, Writable]
  | integer i => simp [violation?, Writable]
  | string s => simp [violation?, Writable]

namespace Expression

/-- Trees that may leave the process. -/
inductive Legal : Expression → Prop
  | connective {kind : Kind} {children : List Expression}
      (operator : kind.category = .setOperator) (some_child : children ≠ [])
      (below : ∀ e ∈ children, Legal e) : Legal (.node kind .empty children)
  | concept (c : ConceptRef) : Legal (.node .concept (.concept c) [])
  | role {kind : Kind} (quantifier : kind = .roleAll ∨ kind = .roleSome) (role : ConceptRef)
      {e : Expression} (below : Legal e) : Legal (.node kind (.role role) [e])
  | feature (f : ConceptRef) (comparison : Comparison) {e : Expression}
      (value : e.kind.carriesValue = true) (below : Legal e) :
      Legal (.node .feature (.feature f comparison) [e])
  | literal {value : Literal} (writable : value.Writable) :
      Legal (.node value.kind (.literal (some value)) [])
  | template (t assemblage : ConceptRef) : Legal (.node .template (.template t assemblage) [])
  | placeholder {kind : Kind} {field : String} (substitution : kind.isPlaceholder = true)
      (filled : Text.isBlank field.toList = false)
      (chars : ∀ c ∈ field.toList, isXmlChar c = true) :
      Legal (.node kind (.placeholder field true) [])

theorem category_of_isPlaceholder {kind : Kind} (h : kind.isPlaceholder = true) :
    kind.category = .substitution := by
  cases kind <;> first | rfl | cases h

theorem category_kind (value : Literal) : value.kind.category = .literal := by
  cases value <;> rfl

theorem count_eq_none_iff {kind : Kind} {expected : Nat} {children : List Expression} :
    countViolation? kind expected children = none ↔ children.length = expected := by
  simp [countViolation?]

theorem fieldViolation_eq_none_iff {kind : Kind} {field : String} {deferred : Bool} :
    fieldViolation? kind field deferred = none ↔
      Text.isBlank field.toList = false ∧ (∀ c ∈ field.toList, isXmlChar c = true) ∧
        deferred = true := by
  rw [← List.all_eq_true, fieldViolation?]
  cases Text.isBlank field.toList <;> cases field.toList.all isXmlChar <;> cases deferred <;>
    simp

theorem featureViolation_eq_none_iff {e : Expression} :
    featureViolation? [e] = none ↔ e.kind.carriesValue = true := by
  simp [featureViolation?]

theorem valueViolation_eq_none_iff {kind : Kind} {value : Option Literal} :
    valueViolation? kind value = none ↔ ∃ v, value = some v ∧ kind = v.kind ∧ v.Writable := by
  cases value with
  | none => simp [valueViolation?]
  | some v =>
      by_cases same : v.kind = kind
      · simp [valueViolation?, same, Literal.violation_eq_none_iff]
      · simp [valueViolation?, same, Ne.symm same]

theorem foreign_of_kind {p : Prop} [Decidable p] {rule : Option Violation} {v : Violation} :
    (if p then rule else some v) = none ↔ p ∧ rule = none := by
  by_cases h : p <;> simp [h]

theorem violation_of_legal {kind : Kind} {payload : Payload} {children : List Expression}
    (legal : Legal (.node kind payload children)) :
    violation? kind payload children = none ∧ ∀ e ∈ children, Legal e := by
  cases legal with
  | connective operator some_child below =>
      exact ⟨by simp [violation?, operator, some_child], below⟩
  | concept c => exact ⟨rfl, by simp⟩
  | role quantifier role below =>
      refine ⟨?_, by simpa using below⟩
      rcases quantifier with rfl | rfl <;> rfl
  | feature f comparison value below =>
      refine ⟨?_, by simpa using below⟩
      exact (Option.orElse_eq_none _ _).mpr ⟨rfl, featureViolation_eq_none_iff.mpr value⟩
  | @literal value writable =>
      refine ⟨?_, by simp⟩
      simp only [violation?, category_kind]
      exact (Option.orElse_eq_none _ _).mpr
        ⟨rfl, valueViolation_eq_none_iff.mpr ⟨value, rfl, rfl, writable⟩⟩
  | template t assemblage => exact ⟨rfl, by simp⟩
  | placeholder substitution filled chars =>
      refine ⟨?_, by simp⟩
      simp only [violation?, category_of_isPlaceholder substitution, substitution, if_true]
      exact (Option.orElse_eq_none _ _).mpr
        ⟨rfl, fieldViolation_eq_none_iff.mpr ⟨filled, chars, rfl⟩⟩

theorem legal_of_violation {kind : Kind} {payload : Payload} {children : List Expression}
    (sound : violation? kind payload children = none) (below : ∀ e ∈ children, Legal e) :
    Legal (.node kind payload children) := by
  cases payload with
  | empty =>
      cases category : kind.category <;> simp only [violation?, category] at sound
      case setOperator =>
        refine .connective category ?_ below
        intro childless
        subst childless
        cases sound
      all_goals cases sound
  | concept c =>
      cases category : kind.category <;> simp only [violation?, category] at sound
      case relational =>
        obtain ⟨rfl, count⟩ := foreign_of_kind.mp sound
        cases List.length_eq_zero_iff.mp (count_eq_none_iff.mp count)
        exact .concept c
      all_goals cases sound
  | role role =>
      cases category : kind.category <;> simp only [violation?, category] at sound
      case relational =>
        obtain ⟨quantifier, count⟩ := foreign_of_kind.mp sound
        obtain ⟨e, rfl⟩ := List.length_eq_one_iff.mp (count_eq_none_iff.mp count)
        exact .role quantifier role (below e List.mem_cons_self)
      all_goals cases sound
  | feature f comparison =>
      cases category : kind.category <;> simp only [violation?, category] at sound
      case relational =>
        obtain ⟨rfl, rules⟩ := foreign_of_kind.mp sound
        obtain ⟨count, value⟩ := (Option.orElse_eq_none _ _).mp rules
        obtain ⟨e, rfl⟩ := List.length_eq_one_iff.mp (count_eq_none_iff.mp count)
        exact .feature f comparison (featureViolation_eq_none_iff.mp value)
          (below e List.mem_cons_self)
      all_goals cases sound
  | literal value =>
      cases category : kind.category <;> simp only [violation?, category] at sound
      case literal =>
        obtain ⟨count, rules⟩ := (Option.orElse_eq_none _ _).mp sound
        cases List.length_eq_zero_iff.mp (count_eq_none_iff.mp count)
        obtain ⟨v, rfl, rfl, writable⟩ := valueViolation_eq_none_iff.mp rules
        exact .literal writable
      all_goals cases sound
  | template t assemblage =>
      cases category : kind.category <;> simp only [violation?, category] at sound
      case substitution =>
        obtain ⟨rfl, count⟩ := foreign_of_kind.mp sound
        cases List.length_eq_zero_iff.mp (count_eq_none_iff.mp count)
        exact .template t assemblage
      all_goals cases sound
  | placeholder field deferred =>
      cases category : kind.category <;> simp only [violation?, category] at sound
      case substitution =>
        obtain ⟨substitution, rules⟩ := foreign_of_kind.mp sound
        obtain ⟨count, field_rules⟩ := (Option.orElse_eq_none _ _).mp rules
        cases List.length_eq_zero_iff.mp (count_eq_none_iff.mp count)
        obtain ⟨filled, chars, rfl⟩ := fieldViolation_eq_none_iff.mp field_rules
        exact .placeholder substitution filled chars
      all_goals cases sound

theorem legal_node_iff {kind : Kind} {payload : Payload} {children : List Expression} :
    Legal (.node kind payload children) ↔
      violation? kind payload children = none ∧ ∀ e ∈ children, Legal e := by
  constructor
  · exact violation_of_legal
  · intro checked
    exact legal_of_violation checked.1 checked.2

mutual

theorem validateAt_eq_ok_iff (path : Path) (e : Expression) :
    validateAt path e = .ok () ↔ Legal e := by
  obtain ⟨kind, payload, children⟩ := e
  rw [legal_node_iff, ← validateAll_eq_ok_iff path 0 children, validateAt]
  cases violation? kind payload children <;> simp

theorem validateAll_eq_ok_iff (path : Path) (index : Nat) (es : List Expression) :
    validateAll path index es = .ok () ↔ ∀ e ∈ es, Legal e := by
  cases es with
  | nil => simp [validateAll]
  | cons e es =>
      have first := validateAt_eq_ok_iff (path.step index e.kind.tag) e
      have others := validateAll_eq_ok_iff path (index + 1) es
      rw [List.forall_mem_cons, ← first, ← others, validateAll]
      cases validateAt (path.step index e.kind.tag) e <;> simp

end

end Expression

end Terminology
