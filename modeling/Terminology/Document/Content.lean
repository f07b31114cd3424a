import Terminology.Expression.Validity
import Terminology.Markup.Element

/-!
The expression that an element tree describes. An element names a kind, its attributes are the
record of the payload, and only literals have character data. Faults are located in the same
paths that the validity of expressions uses.
-/

namespace Terminology

open Markup

inductive ContentError where
  | unknownElement (name : String)
  | unexpectedAttribute (key : String)
  | missingAttribute (key : String)
  | invalidAttribute (key value : String)
  | valueTwice
  | valueless
  | invalidValue (value : String) (kind : Kind)
  | characterData
  | violation (v : Violation)
  deriving DecidableEq

namespace ContentError

def valueName : Kind → String
  | .boolean => "boolean"
  | .float => "float"
  | .instant => "RFC 3339 instant"
  | _ => "integer"

def message : ContentError → String
  | unknownElement name => s!"unknown element `{name}`"
  | unexpectedAttribute key => s!"unexpected attribute `{key}`"
  | missingAttribute key => s!"missing attribute `{key}`"
  | invalidAttribute key value => s!"attribute `{key}` has invalid value `{value}`"
  | valueTwice => "literal value given both as attribute and text"
  | valueless => "literal has no value"
  | invalidValue value kind => s!"`{value}` is not a valid {valueName kind}"
  | characterData => "unexpected character data"
  | violation v => v.message

end ContentError

namespace Payload

/-- Refuses the first attribute whose key is not among `keys`. -/
def checkKeys (e : Element) (keys : List String) : Except ContentError Unit :=
  match e.attributes.find? fun a => !keys.contains a.key with
  | some a => .error (.unexpectedAttribute a.key)
  | none => .ok ()

def required (e : Element) (key : String) : Except ContentError String :=
  match e.attribute? key with
  | some value => .ok value
  | none => .error (.missingAttribute key)

def readAttribute {α : Type} (read? : String → Option α) (e : Element) (key : String) :
    Except ContentError α := do
  let raw ← required e key
  match read? raw with
  | some value => .ok value
  | none => .error (.invalidAttribute key raw)

/-- The text of a literal: its attribute or its character data, whichever is there. -/
def literalText (e : Element) : Except ContentError String :=
  match e.attribute? "value" with
  | some value => if e.text.isEmpty then .ok value else .error .valueTwice
  | none => if e.text.isEmpty then .error .valueless else .ok e.text

def literalOf (kind : Kind) (e : Element) : Except ContentError Payload := do
  checkKeys e ["value"]
  let raw ← literalText e
  match Literal.read? kind raw with
  | some value => .ok (.literal (some value))
  | none => .error (.invalidValue raw kind)

def placeholderOf (e : Element) : Except ContentError Payload := do
  checkKeys e ["field", "deferred"]
  let field ← required e "field"
  match e.attribute? "deferred" with
  | none => .ok (.placeholder field false)
  | some _ => .placeholder field <$> readAttribute Literal.boolean? e "deferred"

def ofElement (kind : Kind) (e : Element) : Except ContentError Payload :=
  match kind.category with
  | .setOperator => do
      checkKeys e []
      return .empty
  | .relational =>
      match kind with
      | .concept => do
          checkKeys e ["concept"]
          .concept <$> readAttribute ConceptRef.read? e "concept"
      | .feature => do
          checkKeys e ["feature", "operator"]
          let feature ← readAttribute ConceptRef.read? e "feature"
          .feature feature <$> readAttribute Comparison.read? e "operator"
      | _ => do
          checkKeys e ["role"]
          .role <$> readAttribute ConceptRef.read? e "role"
  | .literal => literalOf kind e
  | .substitution =>
      if kind = .template then do
        checkKeys e ["template", "assemblage"]
        let template ← readAttribute ConceptRef.read? e "template"
        .template template <$> readAttribute ConceptRef.read? e "assemblage"
      else placeholderOf e

end Payload

structure Misplaced where
  path : Path
  error : ContentError
  deriving DecidableEq

namespace Expression

/-- The kind and the payload of the node that an element describes by itself. -/
def ofElementAlone (e : Element) : Except ContentError (Kind × Payload) :=
  match Kind.ofTag? e.name with
  | none => .error (.unknownElement e.name)
  | some kind => do
      let payload ← Payload.ofElement kind e
      if kind.category ≠ .literal ∧ ¬ e.text.isEmpty then .error .characterData
      else .ok (kind, payload)

mutual

/-- Reads the element at `path` and then the elements below it in order. -/
def ofElementAt (path : Path) : Element → Except Misplaced Expression
  | .element name attributes children text =>
      match ofElementAlone (.element name attributes children text) with
      | .error e => .error ⟨path, e⟩
      | .ok (kind, payload) => (ofElementsAt path 0 children).map (node kind payload)

/-- Reads the children of the element at `path`, the first of which has the given index. -/
def ofElementsAt (path : Path) (index : Nat) : List Element → Except Misplaced (List Expression)
  | [] => .ok []
  | e :: es =>
      match ofElementAt (path.step index e.name) e with
      | .error misplaced => .error misplaced
      | .ok first => (ofElementsAt path (index + 1) es).map (first :: ·)

end

def ofElement (e : Element) : Except Misplaced Expression := do
  let tree ← ofElementAt (.root e.name) e
  match tree.validate with
  | .ok () => .ok tree
  | .error refused => .error ⟨refused.path, .violation refused.violation⟩

end Expression

end Terminology
