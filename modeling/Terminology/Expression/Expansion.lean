import Terminology.Expression.Validity

/-!
Filling placeholders with the values that are bound to their fields.
-/

namespace Terminology

inductive Binding where
  | concept (concept : ConceptRef)
  | literal (value : Literal)
  deriving DecidableEq

namespace Binding

/-- The node that takes the place of a placeholder of the given kind, if the binding fits. -/
def fill? (kind : Kind) : Binding → Option Expression
  | concept c => if kind = .substitutionConcept then some (.concept c) else none
  | literal value => if value.placeholderKind = kind then some (.literal value) else none

end Binding

/-- Bindings by field, the latest first. -/
abbrev Bindings := List (String × Binding)

namespace Bindings

/-- Binds a field; an earlier binding of it is hidden. -/
def bind (bindings : Bindings) (field : String) (binding : Binding) : Bindings :=
  (field, binding) :: bindings

def get? (bindings : Bindings) (field : String) : Option Binding := bindings.lookup field

end Bindings

namespace Expression

mutual

/-- Replaces the bound placeholders and keeps the others. A node with a placeholder's payload
ends the descent, so what may lie below it is dropped or kept as it is. -/
def expand (bindings : Bindings) : Expression → Except InvalidExpression Expression
  | node kind (.placeholder field deferred) children =>
      match bindings.get? field with
      | none => .ok (node kind (.placeholder field deferred) children)
      | some binding =>
          match binding.fill? kind with
          | some e => .ok e
          | none => .error ⟨.root kind.tag, .misfit field kind⟩
  | node kind payload children => (expandAll bindings children).map (node kind payload)

def expandAll (bindings : Bindings) : List Expression → Except InvalidExpression (List Expression)
  | [] => .ok []
  | e :: es =>
      match expand bindings e with
      | .error refused => .error refused
      | .ok e => (expandAll bindings es).map (e :: ·)

end

end Expression

end Terminology
