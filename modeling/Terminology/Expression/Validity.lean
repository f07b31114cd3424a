import Terminology.Expression.Basic
import Terminology.Expression.Path
import Terminology.Text.Character

/-!
Which expressions may leave the process. Each node is checked by itself, against its kind, its
payload and its direct children; the first node in document order that breaks a rule is reported
with its place.
-/

namespace Terminology

inductive Violation where
  | childless (kind : Kind)
  | childCount (kind : Kind) (expected found : Nat)
  | featureChild (found : Kind)
  | unsetLiteral (kind : Kind)
  | foreignValue (kind valueKind : Kind)
  | notFinite (value : Double)
  | yearOutside (year : Int)
  | stringCharacter
  | blankField (kind : Kind)
  | fieldCharacter (kind : Kind)
  | pending (field : String)
  | foreignPayload (kind : Kind) (payload : Payload)
  | misfit (field : String) (kind : Kind)
  | tooDeep (levels limit : Nat)
  | tooLarge (bytes limit : Nat)
  deriving DecidableEq

namespace Violation

def message : Violation → String
  | childless kind => s!"`{kind.name}` requires at least one child"
  | childCount kind expected found =>
      s!"`{kind.name}` requires {expected} child(ren), found {found}"
  | featureChild found => s!"`Feature` requires a literal child, found `{found.name}`"
  | unsetLiteral kind => s!"`{kind.name}` literal has no value"
  | foreignValue kind valueKind => s!"`{kind.name}` literal carries a `{valueKind.name}` value"
  | notFinite value => s!"`Float` literal is not finite: {value.text}"
  | yearOutside year => s!"`Instant` literal year {year} is outside 0000..=9999"
  | stringCharacter => "`String` literal holds a character XML 1.0 cannot carry"
  | blankField kind => s!"`{kind.name}` placeholder has no field name"
  | fieldCharacter kind => s!"`{kind.name}` field name holds a character XML 1.0 cannot carry"
  | pending field => s!"placeholder `{field}` is neither expanded nor deferred"
  | foreignPayload kind payload => s!"`{kind.name}` cannot carry payload {payload.diagnostic}"
  | misfit field kind => s!"binding for `{field}` does not fit a `{kind.name}` placeholder"
  | tooDeep levels limit => s!"tree is {levels} levels deep, the limit is {limit}"
  | tooLarge bytes limit => s!"document would be {bytes} bytes, the limit is {limit}"

end Violation

/-- A refused expression: the node that is to blame and why. -/
structure InvalidExpression where
  path : Path
  violation : Violation
  deriving DecidableEq

def InvalidExpression.message (e : InvalidExpression) : String :=
  "invalid expression at `" ++ e.path.text ++ "`: " ++ e.violation.message

/-- The characters that XML 1.0 documents can hold. -/
def isXmlChar (c : Char) : Bool :=
  let n := c.toNat
  n == 9 || n == 10 || n == 13 || (0x20 ≤ n && n ≤ 0xD7FF) || (0xE000 ≤ n && n ≤ 0xFFFD) ||
    0x10000 ≤ n

def Literal.violation? : Literal → Option Violation
  | .float x => if x.isFinite then none else some (.notFinite x)
  | .instant t => if 0 ≤ t.year ∧ t.year ≤ 9999 then none else some (.yearOutside t.year)
  | .string s => if s.toList.all isXmlChar then none else some .stringCharacter
  | _ => none

/-- Whether the child of a feature is a literal or stands for one. -/
def Kind.carriesValue (k : Kind) : Bool :=
  k.category == .literal || (k.isPlaceholder && k != .substitutionConcept)

namespace Expression

def countViolation? (kind : Kind) (expected : Nat) (children : List Expression) :
    Option Violation :=
  if children.length = expected then none
  else some (.childCount kind expected children.length)

def featureViolation? : List Expression → Option Violation
  | value :: _ => if value.kind.carriesValue then none else some (.featureChild value.kind)
  | [] => none

def valueViolation? (kind : Kind) : Option Literal → Option Violation
  | none => some (.unsetLiteral kind)
  | some value =>
      if value.kind = kind then value.violation? else some (.foreignValue kind value.kind)

def fieldViolation? (kind : Kind) (field : String) (deferred : Bool) : Option Violation :=
  if Text.isBlank field.toList then some (.blankField kind)
  else if ¬ field.toList.all isXmlChar then some (.fieldCharacter kind)
  else if deferred then none
  else some (.pending field)

/-- The first rule of its own level that a node breaks. -/
def violation? (kind : Kind) (payload : Payload) (children : List Expression) :
    Option Violation :=
  match kind.category, payload with
  | .setOperator, .empty => if children.isEmpty then some (.childless kind) else none
  | .relational, .concept _ =>
      if kind = .concept then countViolation? kind 0 children
      else some (.foreignPayload kind payload)
  | .relational, .role _ =>
      if kind = .roleAll ∨ kind = .roleSome then countViolation? kind 1 children
      else some (.foreignPayload kind payload)
  | .relational, .feature .. =>
      if kind = .feature then countViolation? kind 1 children <|> featureViolation? children
      else some (.foreignPayload kind payload)
  | .literal, .literal value => countViolation? kind 0 children <|> valueViolation? kind value
  | .substitution, .template .. =>
      if kind = .template then countViolation? kind 0 children
      else some (.foreignPayload kind payload)
  | .substitution, .placeholder field deferred =>
      if kind.isPlaceholder then
        countViolation? kind 0 children <|> fieldViolation? kind field deferred
      else some (.foreignPayload kind payload)
  | _, _ => some (.foreignPayload kind payload)

mutual

/-- Checks the node at `path`, then the nodes below it in order. -/
def validateAt (path : Path) : Expression → Except InvalidExpression Unit
  | node kind payload children =>
      match violation? kind payload children with
      | some violation => .error ⟨path, violation⟩
      | none => validateAll path 0 children

/-- Checks the children of the node at `path`, the first of which has the given index. -/
def validateAll (path : Path) (index : Nat) : List Expression → Except InvalidExpression Unit
  | [] => .ok ()
  | e :: es =>
      match validateAt (path.step index e.kind.tag) e with
      | .error refused => .error refused
      | .ok () => validateAll path (index + 1) es

end

def validate (e : Expression) : Except InvalidExpression Unit := validateAt (.root e.kind.tag) e

end Expression

end Terminology
