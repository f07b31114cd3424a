import Terminology.Uuid

/-!
The closed set of description-logic constructs, and the identifier each of them keeps across
systems.
-/

namespace Terminology

inductive Category where
  | setOperator | relational | literal | substitution
  deriving DecidableEq

namespace Category

def all : List Category := [setOperator, relational, literal, substitution]

def name : Category → String
  | setOperator => "SetOperator"
  | relational => "Relational"
  | literal => "Literal"
  | substitution => "Substitution"

def rank (c : Category) : Nat := all.idxOf c

def ofName? (s : String) : Option Category := all.find? fun c => c.name == s

end Category

/-- The construct that a node of an expression stands for. -/
inductive Kind where
  | necessarySet | sufficientSet | and | or | disjointWith | definitionRoot
  | roleAll | roleSome | concept | feature
  | boolean | float | instant | integer | string
  | template | substitutionConcept | substitutionBoolean | substitutionFloat
  | substitutionInstant | substitutionInteger | substitutionString
  deriving DecidableEq

structure UnknownKind where
  value : String
  deriving DecidableEq

def UnknownKind.message (e : UnknownKind) : String := "unknown logic node kind: " ++ e.value

namespace Kind

def all : List Kind :=
  [necessarySet, sufficientSet, and, or, disjointWith, definitionRoot,
    roleAll, roleSome, concept, feature,
    boolean, float, instant, integer, string,
    template, substitutionConcept, substitutionBoolean, substitutionFloat,
    substitutionInstant, substitutionInteger, substitutionString]

def category : Kind → Category
  | necessarySet | sufficientSet | and | or | disjointWith | definitionRoot => .setOperator
  | roleAll | roleSome | concept | feature => .relational
  | boolean | float | instant | integer | string => .literal
  | template | substitutionConcept | substitutionBoolean | substitutionFloat
  | substitutionInstant | substitutionInteger | substitutionString => .substitution

def name : Kind → String
  | necessarySet => "NecessarySet"
  | sufficientSet => "SufficientSet"
  | and => "And"
  | or => "Or"
  | disjointWith => "DisjointWith"
  | definitionRoot => "DefinitionRoot"
  | roleAll => "RoleAll"
  | roleSome => "RoleSome"
  | concept => "Concept"
  | feature => "Feature"
  | boolean => "Boolean"
  | float => "Float"
  | instant => "Instant"
  | integer => "Integer"
  | string => "String"
  | template => "Template"
  | substitutionConcept => "SubstitutionConcept"
  | substitutionBoolean => "SubstitutionBoolean"
  | substitutionFloat => "SubstitutionFloat"
  | substitutionInstant => "SubstitutionInstant"
  | substitutionInteger => "SubstitutionInteger"
  | substitutionString => "SubstitutionString"

def tag : Kind → String
  | necessarySet => "necessary-set"
  | sufficientSet => "sufficient-set"
  | and => "and"
  | or => "or"
  | disjointWith => "disjoint-with"
  | definitionRoot => "definition-root"
  | roleAll => "role-all"
  | roleSome => "role-some"
  | concept => "concept"
  | feature => "feature"
  | boolean => "literal-boolean"
  | float => "literal-float"
  | instant => "literal-instant"
  | integer => "literal-integer"
  | string => "literal-string"
  | template => "template"
  | substitutionConcept => "substitution-concept"
  | substitutionBoolean => "substitution-boolean"
  | substitutionFloat => "substitution-float"
  | substitutionInstant => "substitution-instant"
  | substitutionInteger => "substitution-integer"
  | substitutionString => "substitution-string"

def rank (k : Kind) : Nat := all.idxOf k

def isConnective (k : Kind) : Bool := k.category == .setOperator

def isPlaceholder (k : Kind) : Bool := k.category == .substitution && k != template

def canonicalName (k : Kind) : String := k.category.name ++ "." ++ k.name

/-- The space that the canonical names are unique in: d96cb408-b9ae-473d-a08d-ece06dbcedf9. -/
def space : Uuid := ⟨0xd96cb408b9ae473da08dece06dbcedf9#128⟩

/-- The identifier that other systems know this kind by. -/
def stableId (k : Kind) : Uuid :=
  .ofName space (k.canonicalName.toList.map fun c => UInt8.ofNat c.toNat)

def ofTag? (s : String) : Option Kind := all.find? fun k => k.tag == s

def ofName? (s : String) : Option Kind := all.find? fun k => k.name == s

def parse (s : String) : Except UnknownKind Kind :=
  match all.find? fun k => k.name == s || k.tag == s with
  | some k => .ok k
  | none => .error ⟨s⟩

def ofStableId? (id : Uuid) : Option Kind := all.find? fun k => k.stableId == id

theorem mem_all (k : Kind) : k ∈ all := by cases k <;> decide

end Kind

end Terminology
