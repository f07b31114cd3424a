import Terminology.Proofs.Calendar
import Terminology.Proofs.Expression.Legal
import Terminology.Proofs.Text.Range

/-!
The grammar of expressions in words of its own: kinds are listed, characters are given by their
ranges and instants by their seconds, so that nothing is shared with what checking looks at.
Checking accepts exactly the expressions of this grammar.
-/

namespace Terminology

theorem isXmlChar_iff {c : Char} : isXmlChar c = true ↔ Within xmlRanges c := by
  have last : c.toNat ≤ 0x10FFFF := by
    have valid := c.valid
    simp only [UInt32.isValidChar, Nat.isValidChar, Char.toNat] at valid ⊢
    omega
  simp only [xmlRanges, within_cons, within_nil, or_false, isXmlChar, Bool.or_eq_true,
    Bool.and_eq_true, beq_iff_eq, decide_eq_true_eq]
  omega

/-- Whether an instant lies between the first second of the year zero and the last of 9999. -/
def Instant.InFourDigitYears (t : Instant) : Prop :=
  -62167219200 ≤ t.seconds ∧ t.seconds < 253402300800

theorem Instant.year_iff (t : Instant) :
    0 ≤ t.year ∧ t.year ≤ 9999 ↔ t.InFourDigitYears := by
  have year : t.year = Date.yearOf (t.seconds / 86400 + Date.epoch) := rfl
  have from_zero := Date.le_yearOf_iff 0 (t.seconds / 86400 + Date.epoch)
  have from_next := Date.le_yearOf_iff 10000 (t.seconds / 86400 + Date.epoch)
  have zero : Date.daysBeforeYear 0 = 0 := rfl
  have next : Date.daysBeforeYear 10000 = 3652425 := rfl
  rw [zero] at from_zero
  rw [next] at from_next
  rw [year, InFourDigitYears]
  simp only [Date.epoch] at *
  omega

namespace Kind

def connectives : List Kind :=
  [necessarySet, sufficientSet, and, or, disjointWith, definitionRoot]

def placeholders : List Kind :=
  [substitutionConcept, substitutionBoolean, substitutionFloat, substitutionInstant,
    substitutionInteger, substitutionString]

/-- The literals and the placeholders of literals. -/
def values : List Kind :=
  [boolean, float, instant, integer, string, substitutionBoolean, substitutionFloat,
    substitutionInstant, substitutionInteger, substitutionString]

theorem category_eq_setOperator_iff (k : Kind) : k.category = .setOperator ↔ k ∈ connectives := by
  cases k <;> decide

theorem isPlaceholder_iff (k : Kind) : k.isPlaceholder = true ↔ k ∈ placeholders := by
  cases k <;> decide

theorem carriesValue_iff (k : Kind) : k.carriesValue = true ↔ k ∈ values := by
  cases k <;> decide

end Kind

namespace Expression

inductive WellFormed : Expression → Prop
  | connective {kind : Kind} {children : List Expression} (operator : kind ∈ Kind.connectives)
      (some_child : children ≠ []) (below : ∀ e ∈ children, WellFormed e) :
      WellFormed (.node kind .empty children)
  | concept (c : ConceptRef) : WellFormed (.node .concept (.concept c) [])
  | roleAll (role : ConceptRef) {e : Expression} (below : WellFormed e) :
      WellFormed (.node .roleAll (.role role) [e])
  | roleSome (role : ConceptRef) {e : Expression} (below : WellFormed e) :
      WellFormed (.node .roleSome (.role role) [e])
  | feature (f : ConceptRef) (comparison : Comparison) {e : Expression}
      (value : e.kind ∈ Kind.values) (below : WellFormed e) :
      WellFormed (.node .feature (.feature f comparison) [e])
  | boolean (b : Bool) : WellFormed (.node .boolean (.literal (some (.boolean b))) [])
  | float (negative : Bool) (x : Magnitude) :
      WellFormed (.node .float (.literal (some (.float (.finite negative x)))) [])
  | instant {t : Instant} (years : t.InFourDigitYears) :
      WellFormed (.node .instant (.literal (some (.instant t))) [])
  | integer (i : Int64) : WellFormed (.node .integer (.literal (some (.integer i))) [])
  | string {s : String} (chars : ∀ c ∈ s.toList, Within xmlRanges c) :
      WellFormed (.node .string (.literal (some (.string s))) [])
  | template (t assemblage : ConceptRef) :
      WellFormed (.node .template (.template t assemblage) [])
  | placeholder {kind : Kind} {field : String} (substitution : kind ∈ Kind.placeholders)
      (filled : ∃ c ∈ field.toList, ¬ Within whiteSpaceRanges c)
      (chars : ∀ c ∈ field.toList, Within xmlRanges c) :
      WellFormed (.node kind (.placeholder field true) [])

theorem wellFormed_literal {value : Literal} (writable : value.Writable) :
    WellFormed (.node value.kind (.literal (some value)) []) := by
  cases value with
  | boolean b => exact .boolean b
  | float x =>
      cases x with
      | finite negative magnitude => exact .float negative magnitude
      | nan => cases writable
      | infinite negative => cases writable
  | instant t => exact .instant (t.year_iff.mp writable)
  | integer i => exact .integer i
  | string s => exact .string fun c member => isXmlChar_iff.mp (writable c member)

theorem wellFormed_of_legal {e : Expression} (legal : e.Legal) : e.WellFormed := by
  induction legal with
  | connective operator some_child _ ih =>
      exact .connective ((Kind.category_eq_setOperator_iff _).mp operator) some_child ih
  | concept c => exact .concept c
  | role quantifier role _ ih =>
      rcases quantifier with rfl | rfl
      · exact .roleAll role ih
      · exact .roleSome role ih
  | feature f comparison value _ ih =>
      exact .feature f comparison ((Kind.carriesValue_iff _).mp value) ih
  | literal writable => exact wellFormed_literal writable
  | template t assemblage => exact .template t assemblage
  | placeholder substitution filled chars =>
      exact .placeholder ((Kind.isPlaceholder_iff _).mp substitution) (not_isBlank_iff.mp filled)
        fun c member => isXmlChar_iff.mp (chars c member)

theorem legal_of_wellFormed {e : Expression} (formed : e.WellFormed) : e.Legal := by
  induction formed with
  | connective operator some_child _ ih =>
      exact .connective ((Kind.category_eq_setOperator_iff _).mpr operator) some_child ih
  | concept c => exact .concept c
  | roleAll role _ ih => exact .role (.inl rfl) role ih
  | roleSome role _ ih => exact .role (.inr rfl) role ih
  | feature f comparison value _ ih =>
      exact .feature f comparison ((Kind.carriesValue_iff _).mpr value) ih
  | boolean b => exact @Legal.literal (.boolean b) trivial
  | float negative x => exact @Legal.literal (.float (.finite negative x)) rfl
  | @instant t years => exact @Legal.literal (.instant t) (t.year_iff.mpr years)
  | integer i => exact @Legal.literal (.integer i) trivial
  | @string s chars =>
      exact @Legal.literal (.string s) fun c member => isXmlChar_iff.mpr (chars c member)
  | template t assemblage => exact .template t assemblage
  | placeholder substitution filled chars =>
      exact .placeholder ((Kind.isPlaceholder_iff _).mpr substitution) (not_isBlank_iff.mpr filled)
        fun c member => isXmlChar_iff.mpr (chars c member)

/-- Checking accepts the expressions of the grammar and no others. -/
theorem validate_eq_ok_iff (e : Expression) : e.validate = .ok () ↔ e.WellFormed := by
  have checked : e.validate = .ok () ↔ e.Legal := validateAt_eq_ok_iff (.root e.kind.tag) e
  rw [checked]
  constructor
  · exact wellFormed_of_legal
  · exact legal_of_wellFormed

end Expression

end Terminology
