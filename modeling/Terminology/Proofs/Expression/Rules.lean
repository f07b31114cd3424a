import Terminology.Proofs.Expression.Grammar

/-!
The rules of a node's own level, each by itself and in words of its own, whatever the order is in
which they are checked. A violation that is found is the breach of the rule it names, and a node
in which none is found breaks no rule.
-/

namespace Terminology

namespace Kind

def literals : List Kind := [boolean, float, instant, integer, string]

/-- The payloads that nodes of a kind can have. -/
def Carries (kind : Kind) : Payload → Prop
  | .empty => kind ∈ connectives
  | .concept _ => kind = .concept
  | .role _ => kind = .roleAll ∨ kind = .roleSome
  | .feature .. => kind = .feature
  | .literal _ => kind ∈ literals
  | .template .. => kind = .template
  | .placeholder .. => kind ∈ placeholders

instance (kind : Kind) (payload : Payload) : Decidable (kind.Carries payload) :=
  match payload with
  | .empty => inferInstanceAs (Decidable (kind ∈ connectives))
  | .concept _ => inferInstanceAs (Decidable (kind = .concept))
  | .role _ => inferInstanceAs (Decidable (kind = .roleAll ∨ kind = .roleSome))
  | .feature .. => inferInstanceAs (Decidable (kind = .feature))
  | .literal _ => inferInstanceAs (Decidable (kind ∈ literals))
  | .template .. => inferInstanceAs (Decidable (kind = .template))
  | .placeholder .. => inferInstanceAs (Decidable (kind ∈ placeholders))

end Kind

/-- How many nodes are below one with the payload; below a connective there may be any number. -/
def Payload.arity? : Payload → Option Nat
  | .empty => none
  | .role _ | .feature .. => some 1
  | .concept _ | .literal _ | .template .. | .placeholder .. => some 0

namespace Expression

/-- A node breaks a rule of its own level, which the violation names. -/
inductive Breaks : Expression → Violation → Prop
  | payload {kind : Kind} {payload : Payload} {children : List Expression}
      (foreign : ¬ kind.Carries payload) :
      Breaks (node kind payload children) (.foreignPayload kind payload)
  | childless {kind : Kind} (operator : kind ∈ Kind.connectives) :
      Breaks (node kind .empty []) (.childless kind)
  | count {kind : Kind} {payload : Payload} {children : List Expression} {expected : Nat}
      (carries : kind.Carries payload) (arity : payload.arity? = some expected)
      (other : children.length ≠ expected) :
      Breaks (node kind payload children) (.childCount kind expected children.length)
  | featureChild (f : ConceptRef) (comparison : Comparison) {e : Expression}
      (valueless : e.kind ∉ Kind.values) :
      Breaks (node .feature (.feature f comparison) [e]) (.featureChild e.kind)
  | unset {kind : Kind} (literal : kind ∈ Kind.literals) :
      Breaks (node kind (.literal none) []) (.unsetLiteral kind)
  | foreignValue {kind : Kind} {value : Literal} (literal : kind ∈ Kind.literals)
      (other : value.kind ≠ kind) :
      Breaks (node kind (.literal (some value)) []) (.foreignValue kind value.kind)
  | notFinite {x : Double} (beyond : ∀ negative magnitude, x ≠ .finite negative magnitude) :
      Breaks (node .float (.literal (some (.float x))) []) (.notFinite x)
  | year {t : Instant} (outside : ¬ t.InFourDigitYears) :
      Breaks (node .instant (.literal (some (.instant t))) []) (.yearOutside t.year)
  | character {s : String} {c : Char} (member : c ∈ s.toList) (illegal : ¬ Within xmlRanges c) :
      Breaks (node .string (.literal (some (.string s))) []) .stringCharacter
  | blank {kind : Kind} {field : String} {deferred : Bool}
      (substitution : kind ∈ Kind.placeholders)
      (spaces : ∀ c ∈ field.toList, Within whiteSpaceRanges c) :
      Breaks (node kind (.placeholder field deferred) []) (.blankField kind)
  | fieldCharacter {kind : Kind} {field : String} {deferred : Bool} {c : Char}
      (substitution : kind ∈ Kind.placeholders) (member : c ∈ field.toList)
      (illegal : ¬ Within xmlRanges c) :
      Breaks (node kind (.placeholder field deferred) []) (.fieldCharacter kind)
  | pending {kind : Kind} {field : String} (substitution : kind ∈ Kind.placeholders) :
      Breaks (node kind (.placeholder field false) []) (.pending field)

variable {kind : Kind} {payload : Payload} {children : List Expression} {v : Violation}

/-- The rules for a payload that the kind can have, in the order in which they are checked. -/
def rules (kind : Kind) (children : List Expression) : Payload → Option Violation
  | .empty => if children.isEmpty then some (.childless kind) else none
  | .concept _ | .template .. => countViolation? kind 0 children
  | .role _ => countViolation? kind 1 children
  | .feature .. => countViolation? kind 1 children <|> featureViolation? children
  | .literal value => countViolation? kind 0 children <|> valueViolation? kind value
  | .placeholder field deferred =>
      countViolation? kind 0 children <|> fieldViolation? kind field deferred

theorem violation_eq : violation? kind payload children =
    if kind.Carries payload then rules kind children payload
    else some (.foreignPayload kind payload) := by
  cases payload <;> cases kind <;> rfl

theorem count_eq_some_iff {expected : Nat} : countViolation? kind expected children = some v ↔
    children.length ≠ expected ∧ v = .childCount kind expected children.length := by
  simp [countViolation?, eq_comm]

theorem count_or_eq_some_iff {expected : Nat} {rule : Option Violation} :
    (countViolation? kind expected children <|> rule) = some v ↔
      countViolation? kind expected children = some v ∨
        children.length = expected ∧ rule = some v := by
  by_cases count : children.length = expected <;> simp [countViolation?, count]

theorem breaks_of_literal {value : Literal} (found : value.violation? = some v) :
    Breaks (node value.kind (.literal (some value)) []) v := by
  cases value with
  | boolean _ | integer _ => cases found
  | float x =>
      cases x with
      | finite _ _ => cases found
      | nan | infinite _ =>
          cases found
          exact .notFinite nofun
  | instant t =>
      obtain ⟨outside, rfl⟩ : ¬ (0 ≤ t.year ∧ t.year ≤ 9999) ∧ .yearOutside t.year = v := by
        simpa [Literal.violation?] using found
      rw [t.year_iff] at outside
      exact .year outside
  | string s =>
      obtain ⟨illegal, rfl⟩ : (∃ c ∈ s.toList, isXmlChar c = false) ∧ .stringCharacter = v := by
        simpa [Literal.violation?] using found
      obtain ⟨c, member, illegal⟩ := illegal
      apply Breaks.character member
      rw [← isXmlChar_iff, illegal]
      exact Bool.false_ne_true

theorem breaks_of_value {value : Option Literal} (literal : kind ∈ Kind.literals)
    (found : valueViolation? kind value = some v) :
    Breaks (node kind (.literal value) []) v := by
  cases value with
  | none =>
      cases found
      exact .unset literal
  | some value =>
      rw [valueViolation?] at found
      split at found
      · rename_i same
        rw [← same]
        exact breaks_of_literal found
      · rename_i other
        cases found
        exact .foreignValue literal other

theorem breaks_of_field {field : String} {deferred : Bool}
    (substitution : kind ∈ Kind.placeholders)
    (found : fieldViolation? kind field deferred = some v) :
    Breaks (node kind (.placeholder field deferred) []) v := by
  rw [fieldViolation?] at found
  split at found
  · rename_i spaces
    cases found
    apply Breaks.blank substitution
    intro c member
    exact isSpace_iff.mp (List.all_eq_true.mp spaces c member)
  · split at found
    · rename_i illegal
      cases found
      obtain ⟨c, member, outside⟩ : ∃ c ∈ field.toList, isXmlChar c = false := by
        simpa using illegal
      apply Breaks.fieldCharacter substitution member
      rw [← isXmlChar_iff, outside]
      exact Bool.false_ne_true
    · split at found
      · cases found
      · rename_i kept
        cases found
        rw [Bool.not_eq_true] at kept
        rw [kept]
        exact .pending substitution

theorem breaks_of_rules (carries : kind.Carries payload)
    (found : rules kind children payload = some v) : Breaks (node kind payload children) v := by
  have wrong_count {expected : Nat} (arity : payload.arity? = some expected)
      (count : countViolation? kind expected children = some v) :
      Breaks (node kind payload children) v := by
    obtain ⟨other, rfl⟩ := count_eq_some_iff.mp count
    exact .count carries arity other
  cases payload with
  | empty =>
      cases children with
      | nil =>
          cases found
          exact .childless carries
      | cons _ _ => cases found
  | concept _ | role _ | template _ _ => exact wrong_count rfl found
  | feature f comparison =>
      rcases count_or_eq_some_iff.mp found with count | ⟨count, value⟩
      · exact wrong_count rfl count
      · obtain ⟨e, rfl⟩ := List.length_eq_one_iff.mp count
        cases carries
        rw [featureViolation?, Option.ite_none_left_eq_some] at value
        obtain ⟨valueless, same⟩ := value
        cases same
        rw [Kind.carriesValue_iff] at valueless
        exact .featureChild f comparison valueless
  | literal value =>
      rcases count_or_eq_some_iff.mp found with count | ⟨count, value_rule⟩
      · exact wrong_count rfl count
      · cases List.length_eq_zero_iff.mp count
        exact breaks_of_value carries value_rule
  | placeholder field deferred =>
      rcases count_or_eq_some_iff.mp found with count | ⟨count, field_rule⟩
      · exact wrong_count rfl count
      · cases List.length_eq_zero_iff.mp count
        exact breaks_of_field carries field_rule

theorem breaks_of_violation (found : violation? kind payload children = some v) :
    Breaks (node kind payload children) v := by
  rw [violation_eq] at found
  split at found
  · rename_i carries
    exact breaks_of_rules carries found
  · rename_i foreign
    cases found
    exact .payload foreign

theorem arity_of_rules {expected : Nat} (kept : rules kind children payload = none)
    (arity : payload.arity? = some expected) : children.length = expected := by
  cases payload with
  | empty => cases arity
  | concept _ | role _ | template _ _ =>
      cases arity
      exact count_eq_none_iff.mp kept
  | feature _ _ | literal _ | placeholder _ _ =>
      cases arity
      exact count_eq_none_iff.mp ((Option.orElse_eq_none _ _).mp kept).1

theorem value_of_rules {value : Option Literal}
    (kept : rules kind [] (.literal value) = none) :
    ∃ v, value = some v ∧ kind = v.kind ∧ v.Writable :=
  valueViolation_eq_none_iff.mp ((Option.orElse_eq_none _ _).mp kept).2

theorem field_of_rules {field : String} {deferred : Bool}
    (kept : rules kind [] (.placeholder field deferred) = none) :
    Text.isBlank field.toList = false ∧ (∀ c ∈ field.toList, isXmlChar c = true) ∧
      deferred = true :=
  fieldViolation_eq_none_iff.mp ((Option.orElse_eq_none _ _).mp kept).2

theorem not_breaks_of_violation (passed : violation? kind payload children = none) :
    ¬ Breaks (node kind payload children) v := by
  intro broken
  rw [violation_eq] at passed
  obtain ⟨carries, kept⟩ := foreign_of_kind.mp passed
  cases broken with
  | payload foreign => exact foreign carries
  | childless _ => cases kept
  | count _ arity other => exact other (arity_of_rules kept arity)
  | @featureChild f comparison e valueless =>
      have value : featureViolation? [e] = none := ((Option.orElse_eq_none _ _).mp kept).2
      rw [featureViolation_eq_none_iff, Kind.carriesValue_iff] at value
      exact valueless value
  | unset _ => cases kept
  | foreignValue _ other =>
      obtain ⟨_, same, own, -⟩ := value_of_rules kept
      cases same
      exact other own.symm
  | @notFinite x beyond =>
      obtain ⟨_, same, -, writable⟩ := value_of_rules kept
      cases same
      cases x with
      | finite negative magnitude => exact beyond negative magnitude rfl
      | nan | infinite _ => cases writable
  | @year t outside =>
      obtain ⟨_, same, -, writable⟩ := value_of_rules kept
      cases same
      exact outside (t.year_iff.mp writable)
  | @character s c member illegal =>
      obtain ⟨_, same, -, writable⟩ := value_of_rules kept
      cases same
      exact illegal (isXmlChar_iff.mp (writable c member))
  | @blank kind field deferred _ spaces =>
      obtain ⟨c, member, other⟩ := not_isBlank_iff.mp (field_of_rules kept).1
      exact other (spaces c member)
  | @fieldCharacter kind field deferred c _ member illegal =>
      exact illegal (isXmlChar_iff.mp ((field_of_rules kept).2.1 c member))
  | pending _ => cases (field_of_rules kept).2.2

end Expression

end Terminology
