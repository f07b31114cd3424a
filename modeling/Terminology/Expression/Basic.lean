import Terminology.Comparison
import Terminology.Concept
import Terminology.Literal

/-!
Expression trees. A node has a kind, data of its own and an ordered list of children; that the
three suit one another is not part of the type but what `Expression.validate` checks.
-/

namespace Terminology

inductive Payload where
  | empty
  | concept (concept : ConceptRef)
  | role (role : ConceptRef)
  | feature (feature : ConceptRef) (comparison : Comparison)
  | literal (value : Option Literal)
  | template (template assemblage : ConceptRef)
  | placeholder (field : String) (deferred : Bool)
  deriving DecidableEq

namespace Payload

def diagnostic : Payload → String
  | empty => "None"
  | concept c => "Concept(" ++ c.diagnostic ++ ")"
  | role r => "Role(" ++ r.diagnostic ++ ")"
  | feature f comparison =>
      "Feature \x7b feature: " ++ f.diagnostic ++ ", operator: " ++ comparison.name ++ " \x7d"
  | literal none => "Literal(None)"
  | literal (some value) => "Literal(Some(" ++ value.diagnostic ++ "))"
  | template t assemblage =>
      "Template \x7b template: " ++ t.diagnostic ++ ", assemblage: " ++ assemblage.diagnostic ++
        " \x7d"
  | placeholder field deferred =>
      "Substitution \x7b field: " ++ Text.quoted field ++ ", deferred: " ++
        Literal.booleanText deferred ++ " \x7d"

/-- Whether two payloads are equal; floats compare as numbers. -/
def same : Payload → Payload → Bool
  | literal (some x), literal (some y) => x.sameValue y
  | x, y => x == y

end Payload

inductive Expression where
  | node (kind : Kind) (payload : Payload) (children : List Expression)

namespace Expression

def kind : Expression → Kind
  | node kind _ _ => kind

def payload : Expression → Payload
  | node _ payload _ => payload

def children : Expression → List Expression
  | node _ _ children => children

mutual

/-- Whether two trees are identical, floats bit by bit. -/
def decideEq : (e e' : Expression) → Decidable (e = e')
  | node kind payload children, node kind' payload' children' =>
      match decideEqAll children children' with
      | isTrue below =>
          if alone : kind = kind' ∧ payload = payload' then
            isTrue (by rw [alone.1, alone.2, below])
          else isFalse fun same => alone ⟨(node.inj same).1, (node.inj same).2.1⟩
      | isFalse differ => isFalse fun same => differ (node.inj same).2.2

def decideEqAll : (es es' : List Expression) → Decidable (es = es')
  | [], [] => isTrue rfl
  | [], _ :: _ => isFalse nofun
  | _ :: _, [] => isFalse nofun
  | e :: es, e' :: es' =>
      match decideEq e e', decideEqAll es es' with
      | isTrue first, isTrue others => isTrue (by rw [first, others])
      | isFalse differ, _ => isFalse fun same => differ (List.cons.inj same).1
      | _, isFalse differ => isFalse fun same => differ (List.cons.inj same).2

end

instance : DecidableEq Expression := decideEq

def connective (kind : Kind) (children : List Expression) : Expression := node kind .empty children

def concept (c : ConceptRef) : Expression := node .concept (.concept c) []

def roleSome (role : ConceptRef) (restriction : Expression) : Expression :=
  node .roleSome (.role role) [restriction]

def roleAll (role : ConceptRef) (restriction : Expression) : Expression :=
  node .roleAll (.role role) [restriction]

def feature (f : ConceptRef) (comparison : Comparison) (value : Expression) : Expression :=
  node .feature (.feature f comparison) [value]

def literal (value : Literal) : Expression := node value.kind (.literal (some value)) []

def unsetLiteral (kind : Kind) : Expression := node kind (.literal none) []

def template (t assemblage : ConceptRef) : Expression := node .template (.template t assemblage) []

def placeholder (kind : Kind) (field : String) : Expression :=
  node kind (.placeholder field false) []

/-- Marks a placeholder as left open on purpose; other nodes stay as they are. -/
def deferred : Expression → Expression
  | node kind (.placeholder field _) children => node kind (.placeholder field true) children
  | e => e

def withChild (parent child : Expression) : Expression :=
  node parent.kind parent.payload (parent.children ++ [child])

def conceptRef? (e : Expression) : Option ConceptRef :=
  match e.payload with
  | .concept c => some c
  | _ => none

def literal? (e : Expression) : Option Literal :=
  match e.payload with
  | .literal value => value
  | _ => none

mutual

def nodeCount : Expression → Nat
  | node _ _ children => 1 + nodeCountAll children

def nodeCountAll : List Expression → Nat
  | [] => 0
  | e :: es => nodeCount e + nodeCountAll es

end

mutual

/-- Levels of nesting; a node without children has one. -/
def depth : Expression → Nat
  | node _ _ children => 1 + depthAll children

def depthAll : List Expression → Nat
  | [] => 0
  | e :: es => max (depth e) (depthAll es)

end

mutual

/-- Whether two trees are equal node by node; floats compare as numbers. -/
def same : Expression → Expression → Bool
  | node kind payload children, node kind' payload' children' =>
      kind == kind' && payload.same payload' && sameAll children children'

def sameAll : List Expression → List Expression → Bool
  | [], [] => true
  | e :: es, e' :: es' => same e e' && sameAll es es'
  | _, _ => false

end

end Expression

end Terminology
