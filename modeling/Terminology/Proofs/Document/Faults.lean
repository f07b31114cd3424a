import Terminology.Proofs.Document.Agreement

/-!
What can be wrong with an element by itself, whatever its children are: each kind lists the
attributes that its elements have, and each fault is stated in words of its own, whatever the order
is in which the checks are made. A fault that is reported is one that the element has, and an
element that is read has none.
-/

namespace Terminology

open Markup

/-- An attribute that the elements of a kind have, all of them or some, and the texts that its
value may be. -/
structure AttributeRule where
  key : String
  required : Bool
  Accepts : String → Prop

namespace AttributeRule

def reference (key : String) : AttributeRule :=
  ⟨key, true, fun raw => ∃ c, ConceptRef.read? raw = some c⟩

def operator : AttributeRule := ⟨"operator", true, fun raw => ∃ c, Comparison.read? raw = some c⟩

def value : AttributeRule := ⟨"value", false, fun _ => True⟩

def name : AttributeRule := ⟨"field", true, fun _ => True⟩

def deferred : AttributeRule := ⟨"deferred", false, fun raw => raw = "true" ∨ raw = "false"⟩

end AttributeRule

namespace Kind

/-- The attributes of the elements that are named for a kind. -/
def rules : Kind → List AttributeRule
  | necessarySet | sufficientSet | and | or | disjointWith | definitionRoot => []
  | roleAll | roleSome => [.reference "role"]
  | concept => [.reference "concept"]
  | feature => [.reference "feature", .operator]
  | boolean | float | instant | integer | string => [.value]
  | template => [.reference "template", .reference "assemblage"]
  | substitutionConcept | substitutionBoolean | substitutionFloat | substitutionInstant
  | substitutionInteger | substitutionString => [.name, .deferred]

theorem rules_of_literal {kind : Kind} (literal : kind ∈ literals) : kind.rules = [.value] := by
  revert literal
  cases kind <;> simp [literals, rules]

theorem rules_of_placeholder {kind : Kind} (substitution : kind ∈ placeholders) :
    kind.rules = [.name, .deferred] ∧ kind ∉ literals := by
  revert substitution
  cases kind <;> simp [placeholders, literals, rules]

end Kind

/-- The element has the attribute with a text that it may be, or may do without. -/
inductive AttributeRule.Holds (r : AttributeRule) (e : Element) : Prop
  | present {raw : String} (there : e.attribute? r.key = some raw) (accepted : r.Accepts raw)
  | omitted (optional : r.required = false) (absent : e.attribute? r.key = none)

/-- The one text that a literal is given by, as an attribute or as character data. -/
inductive Markup.Element.GivenBy (e : Element) : String → Prop
  | value {raw : String} (there : e.attribute? "value" = some raw) (silent : e.text = "") :
      GivenBy e raw
  | text (absent : e.attribute? "value" = none) (filled : e.text ≠ "") : GivenBy e e.text

/-- What is wrong with an element for one of its kind. -/
inductive Kind.Fault (kind : Kind) (e : Element) : ContentError → Prop
  | unexpected {a : Attribute} (member : a ∈ e.attributes)
      (foreign : ∀ r ∈ kind.rules, r.key ≠ a.key) : Fault kind e (.unexpectedAttribute a.key)
  | missing {r : AttributeRule} (listed : r ∈ kind.rules) (required : r.required = true)
      (absent : e.attribute? r.key = none) : Fault kind e (.missingAttribute r.key)
  | invalid {r : AttributeRule} {raw : String} (listed : r ∈ kind.rules)
      (there : e.attribute? r.key = some raw) (unread : ¬ r.Accepts raw) :
      Fault kind e (.invalidAttribute r.key raw)
  | twice {raw : String} (literal : kind ∈ Kind.literals)
      (there : e.attribute? "value" = some raw) (filled : e.text ≠ "") : Fault kind e .valueTwice
  | valueless (literal : kind ∈ Kind.literals) (absent : e.attribute? "value" = none)
      (silent : e.text = "") : Fault kind e .valueless
  | value {raw : String} (literal : kind ∈ Kind.literals) (given : e.GivenBy raw)
      (unread : Literal.read? kind raw = none) : Fault kind e (.invalidValue raw kind)
  | characterData (other : kind ∉ Kind.literals) (filled : e.text ≠ "") :
      Fault kind e .characterData

/-- What is wrong with an element: there is no kind that it is named for, or it has a fault for
one of its kind. -/
inductive Markup.Element.Fails (e : Element) : ContentError → Prop
  | unknown (unnamed : ∀ kind : Kind, kind.tag ≠ e.name) : Fails e (.unknownElement e.name)
  | known {kind : Kind} {err : ContentError} (named : kind.tag = e.name)
      (fault : kind.Fault e err) : Fails e err

namespace Payload

variable {kind : Kind} {r : AttributeRule} {e : Element} {err : ContentError}

theorem givenBy_unique {raw raw' : String} (given : e.GivenBy raw) (given' : e.GivenBy raw') :
    raw = raw' := by
  cases given with
  | value there silent =>
      cases given' with
      | value there' _ => exact Option.some.inj (there.symm.trans there')
      | text _ filled => exact absurd silent filled
  | text _ filled =>
      cases given' with
      | value _ silent => exact absurd silent filled
      | text _ _ => rfl

/-- The attributes and the value of an element are what its kind asks for. -/
structure Passes (kind : Kind) (e : Element) : Prop where
  expected : ∀ a ∈ e.attributes, a.key ∈ kind.rules.map AttributeRule.key
  held : ∀ r ∈ kind.rules, r.Holds e
  given : kind ∈ Kind.literals → ∃ raw v, e.GivenBy raw ∧ Literal.read? kind raw = some v

theorem Passes.no_fault (passes : Passes kind e) (silent : kind ∉ Kind.literals → e.text = "") :
    ¬ kind.Fault e err := by
  intro fault
  cases fault with
  | unexpected member foreign =>
      rcases List.mem_map.mp (passes.expected _ member) with ⟨r, listed, same⟩
      exact foreign r listed same
  | missing listed required absent =>
      rcases passes.held _ listed with ⟨there, _⟩ | ⟨optional, _⟩
      · rw [absent] at there
        cases there
      · rw [required] at optional
        cases optional
  | invalid listed there unread =>
      rcases passes.held _ listed with ⟨there', accepted⟩ | ⟨_, absent⟩
      · rw [there] at there'
        cases there'
        exact unread accepted
      · rw [there] at absent
        cases absent
  | twice literal there filled =>
      rcases passes.given literal with ⟨_, _, ⟨_, silent⟩ | ⟨absent, _⟩, _⟩
      · exact filled silent
      · rw [there] at absent
        cases absent
  | valueless literal absent silent =>
      rcases passes.given literal with ⟨_, _, ⟨there, _⟩ | ⟨_, filled⟩, _⟩
      · rw [absent] at there
        cases there
      · exact filled silent
  | value literal given unread =>
      rcases passes.given literal with ⟨raw, v, given', read⟩
      rw [givenBy_unique given given', read] at unread
      cases unread
  | characterData other filled => exact filled (silent other)

theorem fault_of_checkKeys
    (refused : checkKeys e (kind.rules.map AttributeRule.key) = .error err) :
    kind.Fault e err := by
  rw [checkKeys] at refused
  split at refused
  · rename_i a found
    cases refused
    have foreign : a.key ∉ kind.rules.map AttributeRule.key := by simpa using List.find?_some found
    apply Kind.Fault.unexpected (List.mem_of_find?_eq_some found)
    intro r listed same
    exact foreign (same ▸ List.mem_map_of_mem listed)
  · cases refused

theorem fault_of_required (listed : r ∈ kind.rules) (asked : r.required = true)
    (refused : required e r.key = .error err) : kind.Fault e err := by
  rw [required] at refused
  split at refused
  · cases refused
  · rename_i absent
    cases refused
    exact .missing listed asked absent

section

variable {α : Type} {read? : String → Option α}
  (accepts : ∀ raw, r.Accepts raw ↔ ∃ value, read? raw = some value)

include accepts

theorem fault_of_readAttribute (listed : r ∈ kind.rules)
    (asked : e.attribute? r.key = none → r.required = true)
    (refused : readAttribute read? e r.key = .error err) : kind.Fault e err := by
  rw [readAttribute, required] at refused
  cases there : e.attribute? r.key with
  | none =>
      rw [there] at refused
      cases refused
      exact .missing listed (asked there) there
  | some raw =>
      cases found : read? raw with
      | none =>
          simp only [there, found, bind, Except.bind] at refused
          cases refused
          apply Kind.Fault.invalid listed there
          intro accepted
          rcases (accepts raw).mp accepted with ⟨value, read⟩
          rw [found] at read
          cases read
      | some value =>
          simp only [there, found, bind, Except.bind] at refused
          cases refused

theorem holds_of_readAttribute {value : α} (read : readAttribute read? e r.key = .ok value) :
    r.Holds e := by
  rcases readAttribute_eq_ok_iff.mp read with ⟨raw, there, found⟩
  exact .present there ((accepts raw).mpr ⟨value, found⟩)

end

theorem fault_of_literalText (literal : kind ∈ Kind.literals)
    (refused : literalText e = .error err) : kind.Fault e err := by
  rw [literalText] at refused
  split at refused
  · rename_i raw there
    split at refused
    · cases refused
    · rename_i filled
      cases refused
      exact .twice literal there (by simpa using filled)
  · rename_i absent
    split at refused
    · rename_i silent
      cases refused
      exact .valueless literal absent (by simpa using silent)
    · cases refused

theorem givenBy_of_literalText {raw : String} (chosen : literalText e = .ok raw) :
    e.GivenBy raw := by
  rcases literalText_eq_ok_iff.mp chosen with ⟨there, silent⟩ | ⟨absent, rfl, filled⟩
  · exact .value there silent
  · exact .text absent filled

/-- What the outcome of reading the payload says of the element. -/
def Judged (kind : Kind) (e : Element) : Except ContentError Payload → Prop
  | .error err => kind.Fault e err
  | .ok _ => Passes kind e

theorem judged_bind {α : Type} {x : Except ContentError α} {next : α → Except ContentError Payload}
    (refused : ∀ err, x = .error err → kind.Fault e err)
    (onward : ∀ a, x = .ok a → Judged kind e (next a)) : Judged kind e (x >>= next) := by
  cases x with
  | error err => exact refused err rfl
  | ok a => exact onward a rfl

theorem judged_map {α : Type} {x : Except ContentError α} {build : α → Payload}
    (refused : ∀ err, x = .error err → kind.Fault e err)
    (passes : ∀ a, x = .ok a → Passes kind e) : Judged kind e (build <$> x) := by
  cases x with
  | error err => exact refused err rfl
  | ok a => exact passes a rfl

theorem judged_checkKeys {keys : List String} {next : Except ContentError Payload}
    (listed : kind.rules.map AttributeRule.key = keys)
    (onward : (∀ a ∈ e.attributes, a.key ∈ kind.rules.map AttributeRule.key) → Judged kind e next) :
    Judged kind e (do checkKeys e keys; next) := by
  rw [← listed]
  apply judged_bind
  · intro err refused
    exact fault_of_checkKeys refused
  · intro _ checked
    exact onward (checkKeys_eq_ok_iff.mp checked)

theorem judged_none (listed : kind.rules = []) (other : kind ∉ Kind.literals) :
    Judged kind e (do checkKeys e []; return .empty) := by
  apply judged_checkKeys (by rw [listed]; rfl)
  intro expected
  refine ⟨expected, ?_, fun literal => absurd literal other⟩
  rw [listed]
  exact List.forall_mem_nil _

theorem judged_one {α : Type} {read? : String → Option α} (r : AttributeRule) (build : α → Payload)
    (listed : kind.rules = [r]) (other : kind ∉ Kind.literals) (asked : r.required = true)
    (accepts : ∀ raw, r.Accepts raw ↔ ∃ value, read? raw = some value) :
    Judged kind e (do
      checkKeys e [r.key]
      build <$> readAttribute read? e r.key) := by
  have member : r ∈ kind.rules := by rw [listed]; exact List.mem_singleton_self r
  apply judged_checkKeys (by rw [listed]; rfl)
  intro expected
  apply judged_map
  · intro err refused
    exact fault_of_readAttribute accepts member (fun _ => asked) refused
  · intro value read
    refine ⟨expected, ?_, fun literal => absurd literal other⟩
    rw [listed]
    exact List.forall_mem_singleton.mpr (holds_of_readAttribute accepts read)

theorem judged_two {α β : Type} {read? : String → Option α} {second? : String → Option β}
    (r r' : AttributeRule) (build : α → β → Payload) (listed : kind.rules = [r, r'])
    (other : kind ∉ Kind.literals) (asked : r.required = true) (asked' : r'.required = true)
    (accepts : ∀ raw, r.Accepts raw ↔ ∃ value, read? raw = some value)
    (accepts' : ∀ raw, r'.Accepts raw ↔ ∃ value, second? raw = some value) :
    Judged kind e (do
      checkKeys e [r.key, r'.key]
      let first ← readAttribute read? e r.key
      build first <$> readAttribute second? e r'.key) := by
  have member : r ∈ kind.rules := by rw [listed]; exact List.mem_cons_self
  have member' : r' ∈ kind.rules := by
    rw [listed]
    exact List.mem_cons_of_mem r (List.mem_singleton_self r')
  apply judged_checkKeys (by rw [listed]; rfl)
  intro expected
  apply judged_bind
  · intro err refused
    exact fault_of_readAttribute accepts member (fun _ => asked) refused
  · intro first read
    apply judged_map
    · intro err refused
      exact fault_of_readAttribute accepts' member' (fun _ => asked') refused
    · intro second read'
      refine ⟨expected, ?_, fun literal => absurd literal other⟩
      rw [listed]
      exact List.forall_mem_cons.mpr ⟨holds_of_readAttribute accepts read,
        List.forall_mem_singleton.mpr (holds_of_readAttribute accepts' read')⟩

theorem judged_literal (literal : kind ∈ Kind.literals) : Judged kind e (literalOf kind e) := by
  have listed := Kind.rules_of_literal literal
  apply judged_checkKeys (by rw [listed]; rfl)
  intro expected
  apply judged_bind
  · intro err refused
    exact fault_of_literalText literal refused
  · intro raw chosen
    have given := givenBy_of_literalText chosen
    cases read : Literal.read? kind raw with
    | none => exact .value literal given read
    | some v =>
        refine ⟨expected, ?_, fun _ => ⟨raw, v, given, read⟩⟩
        rw [listed, List.forall_mem_singleton]
        cases there : e.attribute? "value" with
        | none => exact .omitted rfl there
        | some raw => exact .present there trivial

theorem accepts_deferred (raw : String) :
    AttributeRule.deferred.Accepts raw ↔ ∃ flag, Literal.boolean? raw = some flag := by
  show raw = "true" ∨ raw = "false" ↔ _
  unfold Literal.boolean?
  split
  · rename_i true_text
    exact ⟨fun _ => ⟨true, rfl⟩, fun _ => .inl true_text⟩
  · split
    · rename_i false_text
      exact ⟨fun _ => ⟨false, rfl⟩, fun _ => .inr false_text⟩
    · rename_i other other'
      simp [other, other']

theorem judged_placeholder (substitution : kind ∈ Kind.placeholders) :
    Judged kind e (placeholderOf e) := by
  rcases Kind.rules_of_placeholder substitution with ⟨listed, other⟩
  have named : AttributeRule.name ∈ kind.rules := by rw [listed]; exact List.mem_cons_self
  have marked : AttributeRule.deferred ∈ kind.rules := by
    rw [listed]
    exact List.mem_cons_of_mem _ (List.mem_singleton_self _)
  apply judged_checkKeys (by rw [listed]; rfl)
  intro expected
  apply judged_bind
  · intro err refused
    exact fault_of_required named rfl refused
  · intro field read
    have held : AttributeRule.name.Holds e := .present (required_eq_ok_iff.mp read) trivial
    have passes (flag : AttributeRule.deferred.Holds e) : Passes kind e := by
      refine ⟨expected, ?_, fun literal => absurd literal other⟩
      rw [listed]
      exact List.forall_mem_cons.mpr ⟨held, List.forall_mem_singleton.mpr flag⟩
    cases there : e.attribute? "deferred" with
    | none => exact passes (.omitted rfl there)
    | some raw =>
        apply judged_map
        · intro err refused
          apply fault_of_readAttribute accepts_deferred marked _ refused
          intro absent
          cases there.symm.trans absent
        · intro flag read
          exact passes (holds_of_readAttribute accepts_deferred read)

theorem judged_ofElement (kind : Kind) (e : Element) : Judged kind e (ofElement kind e) := by
  have reference (key raw : String) : (AttributeRule.reference key).Accepts raw ↔
      ∃ c, ConceptRef.read? raw = some c := Iff.rfl
  have operator (raw : String) : AttributeRule.operator.Accepts raw ↔
      ∃ c, Comparison.read? raw = some c := Iff.rfl
  cases kind with
  | necessarySet | sufficientSet | and | or | disjointWith | definitionRoot =>
      exact judged_none rfl (by decide)
  | roleAll | roleSome =>
      exact judged_one (.reference "role") .role rfl (by decide) rfl (reference "role")
  | concept =>
      exact judged_one (.reference "concept") .concept rfl (by decide) rfl (reference "concept")
  | feature =>
      exact judged_two (.reference "feature") .operator .feature rfl (by decide) rfl rfl
        (reference "feature") operator
  | boolean | float | instant | integer | string => exact judged_literal (by decide)
  | template =>
      exact judged_two (.reference "template") (.reference "assemblage") .template rfl (by decide)
        rfl rfl (reference "template") (reference "assemblage")
  | _ => exact judged_placeholder (by decide)

end Payload

namespace Expression

variable {e : Element} {err : ContentError}

theorem fails_of_ofElementAlone (refused : ofElementAlone e = .error err) : e.Fails err := by
  rw [ofElementAlone] at refused
  cases found : Kind.ofTag? e.name with
  | none =>
      rw [found] at refused
      cases refused
      apply Element.Fails.unknown
      intro kind named
      rw [ofTag_eq_some_iff.mpr named] at found
      cases found
  | some kind =>
      have named := ofTag_eq_some_iff.mp found
      have judged := Payload.judged_ofElement kind e
      simp only [found] at refused
      cases read : Payload.ofElement kind e with
      | error fault =>
          rw [read] at refused judged
          cases refused
          exact .known named judged
      | ok payload =>
          simp only [read, bind, Except.bind] at refused
          split at refused
          · rename_i spoken
            cases refused
            apply Element.Fails.known named
            apply Kind.Fault.characterData
            · exact fun literal => spoken.1 ((Kind.category_eq_literal_iff kind).mpr literal)
            · simpa using spoken.2
          · cases refused

theorem not_fails_of_ofElementAlone {kind : Kind} {payload : Payload}
    (read : ofElementAlone e = .ok (kind, payload)) : ¬ e.Fails err := by
  intro fails
  cases fails with
  | unknown unnamed =>
      rw [ofElementAlone] at read
      split at read
      · cases read
      · rename_i kind found
        exact unnamed kind (ofTag_eq_some_iff.mp found)
  | @known kind err named fault =>
      rw [ofElementAlone, ofTag_eq_some_iff.mpr named] at read
      rcases Payload.bind_eq_ok_iff.mp read with ⟨payload, own, rest⟩
      have judged := Payload.judged_ofElement kind e
      rw [own] at judged
      split at rest
      · cases rest
      · rename_i silent
        apply Payload.Passes.no_fault judged _ fault
        intro other
        rw [← Kind.category_eq_literal_iff] at other
        simpa [other] using silent

end Expression

end Terminology
