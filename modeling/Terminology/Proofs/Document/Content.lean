import Terminology.Document.Content
import Terminology.Proofs.Document.Layout
import Terminology.Proofs.Double.Text
import Terminology.Proofs.Expression.Legal
import Terminology.Proofs.Instant.Text
import Terminology.Proofs.Text.Identifier

/-!
The element tree that stands for a legal expression: its tags are the tags of the expression, and
reading it gives the expression back.
-/

namespace Terminology

open Markup

namespace Literal

theorem integer_integerText (i : Int64) : integer? (integerText i) = some i := by
  have lower := Int64.le_toInt i
  have upper := Int64.toInt_lt i
  rw [integer?, integerText, String.toList_ofList, Text.integer_signed, Option.bind_some,
    if_pos ⟨by omega, by omega⟩, Int64.ofInt_toInt]

theorem read_text {value : Literal} (writable : value.Writable) :
    read? value.kind value.text = some value := by
  cases value with
  | boolean b => cases b <;> rfl
  | float x => simp [read?, kind, text, Double.read_text writable]
  | instant t => simp [read?, kind, text, Instant.read_text writable]
  | integer i => simp [read?, kind, text, integer_integerText]
  | string s => rfl

end Literal

theorem Kind.isName_tag (k : Kind) : IsName k.tag.toList := by
  cases k <;> decide

theorem Kind.ofTag_tag (k : Kind) : ofTag? k.tag = some k := by
  cases k <;> decide

theorem named_one {key : String} (value : String) (name : IsName key.toList) :
    Named [⟨key, value⟩] :=
  ⟨by simpa using name, List.pairwise_singleton _ _⟩

theorem named_two {key other : String} (value second : String) (name : IsName key.toList)
    (other_name : IsName other.toList) (apart : key ≠ other) :
    Named [⟨key, value⟩, ⟨other, second⟩] :=
  ⟨by simpa using ⟨name, other_name⟩, by simpa using apart⟩

namespace Payload

/-- The attributes that record a payload; none if there is no record. -/
def attributes (p : Payload) : List Attribute := p.attributes?.getD []

theorem named_attributes (p : Payload) : Named p.attributes := by
  have nothing : Named [] := ⟨by simp, .nil⟩
  cases p with
  | empty => exact nothing
  | concept c => exact named_one _ (by decide)
  | role r => exact named_one _ (by decide)
  | feature f comparison => exact named_two _ _ (by decide) (by decide) (by decide)
  | literal value =>
      cases value with
      | none => exact nothing
      | some v => exact named_one _ (by decide)
  | template t assemblage => exact named_two _ _ (by decide) (by decide) (by decide)
  | placeholder field deferred =>
      cases deferred with
      | false => exact named_one _ (by decide)
      | true => exact named_two _ _ (by decide) (by decide) (by decide)

end Payload

namespace Payload

theorem checkKeys_ok {e : Element} {keys : List String}
    (expected : ∀ a ∈ e.attributes, a.key ∈ keys) : checkKeys e keys = .ok () := by
  have found : (e.attributes.find? fun a => !keys.contains a.key) = none := by
    rw [List.find?_eq_none]
    intro a member
    simpa using expected a member
  rw [checkKeys, found]

theorem readAttribute_ok {α : Type} {read? : String → Option α} {e : Element}
    {key raw : String} {value : α} (given : e.attribute? key = some raw)
    (reads : read? raw = some value) : readAttribute read? e key = .ok value := by
  simp only [readAttribute, required, given, bind, Except.bind, reads]

theorem ofElement_attributes {kind : Kind} {payload : Payload} {children : List Expression}
    (legal : (Expression.node kind payload children).Legal) (name : String)
    (below : List Element) :
    ofElement kind (.element name payload.attributes below "") = .ok payload := by
  cases legal with
  | connective operator some_child below =>
      simp only [ofElement, operator]
      rw [checkKeys_ok (by simp [Element.attributes, attributes, attributes?])]
      rfl
  | concept c =>
      simp only [ofElement, Kind.category]
      rw [checkKeys_ok (by simp [Element.attributes, attributes, attributes?]),
        readAttribute_ok rfl c.read_text]
      rfl
  | role quantifier role below =>
      have checked : ∀ e : Element, e.attributes = (Payload.role role).attributes →
          checkKeys e ["role"] = .ok () := fun e recorded =>
        checkKeys_ok (by simp [recorded, attributes, attributes?])
      rcases quantifier with rfl | rfl <;> simp only [ofElement, Kind.category]
      all_goals
        rw [checked _ rfl, readAttribute_ok rfl role.read_text]
        rfl
  | feature f comparison value below =>
      simp only [ofElement, Kind.category]
      rw [checkKeys_ok (by simp [Element.attributes, attributes, attributes?]),
        readAttribute_ok rfl f.read_text, readAttribute_ok rfl comparison.read_text]
      rfl
  | @literal value writable =>
      have raw : literalText (.element name (Payload.literal (some value)).attributes below "") =
          .ok value.text := rfl
      simp only [ofElement, Expression.category_kind, literalOf]
      rw [checkKeys_ok (by simp [Element.attributes, attributes, attributes?]), raw]
      simp only [bind, Except.bind, Literal.read_text writable]
  | template t assemblage =>
      simp only [ofElement, Kind.category, if_true]
      rw [checkKeys_ok (by simp [Element.attributes, attributes, attributes?]),
        readAttribute_ok rfl t.read_text, readAttribute_ok rfl assemblage.read_text]
      rfl
  | placeholder substitution filled chars =>
      have other : kind ≠ .template := by
        intro same
        subst same
        cases substitution
      simp only [ofElement, Expression.category_of_isPlaceholder substitution, if_neg other,
        placeholderOf]
      rw [checkKeys_ok (by simp [Element.attributes, attributes, attributes?]),
        @readAttribute_ok Bool Literal.boolean? _ "deferred" "true" true rfl rfl]
      rfl

end Payload

namespace Expression

mutual

def element : Expression → Element
  | node kind payload children => .element kind.tag payload.attributes (elements children) ""

def elements : List Expression → List Element
  | [] => []
  | e :: es => element e :: elements es

end

mutual

theorem writable_element (e : Expression) : e.element.Writable := by
  obtain ⟨kind, payload, children⟩ := e
  exact .element kind.isName_tag payload.named_attributes (writable_elements children)

theorem writable_elements (es : List Expression) : ∀ e ∈ elements es, e.Writable := by
  cases es with
  | nil =>
      intro e member
      cases member
  | cons e es => exact List.forall_mem_cons.mpr ⟨writable_element e, writable_elements es⟩

end

mutual

theorem depth_element (e : Expression) : e.element.depth = e.depth := by
  obtain ⟨kind, payload, children⟩ := e
  rw [element, Element.depth, depth, depthAll_elements children]

theorem depthAll_elements (es : List Expression) :
    Element.depthAll (elements es) = depthAll es := by
  cases es with
  | nil => rfl
  | cons e es =>
      rw [elements, Element.depthAll, depthAll, depth_element e, depthAll_elements es]

end

theorem Legal.attributes {kind : Kind} {payload : Payload} {children : List Expression}
    (legal : Legal (.node kind payload children)) :
    payload.attributes? = some payload.attributes := by
  cases legal <;> rfl

mutual

theorem tags_element {e : Expression} (legal : e.Legal) : e.tags = .ok e.element.tags := by
  obtain ⟨kind, payload, children⟩ := e
  have below := (legal_node_iff.mp legal).2
  rw [tags, legal.attributes, element]
  cases children with
  | nil => rfl
  | cons e es =>
      have first := tags_element (below e List.mem_cons_self)
      have others := tagsAll_elements fun other member =>
        below other (List.mem_cons_of_mem e member)
      simp only [first, others, elements, Element.tags]
      rfl

theorem tagsAll_elements {es : List Expression} (legal : ∀ e ∈ es, e.Legal) :
    tagsAll es = .ok (Element.tagsAll (elements es)) := by
  cases es with
  | nil => rfl
  | cons e es =>
      have first := tags_element (legal e List.mem_cons_self)
      have others := tagsAll_elements fun other member =>
        legal other (List.mem_cons_of_mem e member)
      rw [tagsAll, first, others, elements, Element.tagsAll]
      rfl

end

theorem document_element {e : Expression} (legal : e.Legal) (indent : Nat) :
    e.document indent = .ok (e.element.printed indent) := by
  rw [document, tags_element legal]
  rfl

mutual

/-- Reading the element of a legal tree gives the tree back. -/
theorem ofElementAt_element {e : Expression} (path : Path) (legal : e.Legal) :
    ofElementAt path e.element = .ok e := by
  obtain ⟨kind, payload, children⟩ := e
  have alone : ofElementAlone (.element kind.tag payload.attributes (elements children) "") =
      .ok (kind, payload) := by
    have empty : ¬(kind.category ≠ .literal ∧ ¬("".isEmpty = true)) := by simp
    simp only [ofElementAlone, Element.name, kind.ofTag_tag,
      Payload.ofElement_attributes legal kind.tag (elements children), bind, Except.bind]
    exact if_neg empty
  have below := ofElementsAt_elements path 0 (legal_node_iff.mp legal).2
  rw [element, ofElementAt, alone]
  simp only [below]
  rfl

theorem ofElementsAt_elements {es : List Expression} (path : Path) (index : Nat)
    (legal : ∀ e ∈ es, e.Legal) : ofElementsAt path index (elements es) = .ok es := by
  cases es with
  | nil => rfl
  | cons e es =>
      have first := ofElementAt_element (path.step index e.element.name)
        (legal e List.mem_cons_self)
      have others := ofElementsAt_elements path (index + 1) fun other member =>
        legal other (List.mem_cons_of_mem e member)
      rw [elements, ofElementsAt, first]
      simp only [others]
      rfl

end

theorem ofElement_element {e : Expression} (legal : e.Legal) :
    ofElement e.element = .ok e := by
  have valid : e.validate = .ok () := (validateAt_eq_ok_iff _ e).mpr legal
  rw [ofElement, ofElementAt_element _ legal]
  simp only [bind, Except.bind, valid]

end Expression

end Terminology
