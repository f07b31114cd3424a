import Terminology.Double.Text
import Terminology.Instant.Text
import Terminology.Kind
import Terminology.Text.Quoted

/-!
Values that literal nodes carry: their kinds and their text in documents and in diagnostics.
-/

namespace Terminology

inductive Literal where
  | boolean (value : Bool)
  | float (value : Double)
  | instant (value : Instant)
  | integer (value : Int64)
  | string (value : String)
  deriving DecidableEq

namespace Literal

def kind : Literal → Kind
  | boolean _ => .boolean
  | float _ => .float
  | instant _ => .instant
  | integer _ => .integer
  | string _ => .string

def placeholderKind : Literal → Kind
  | boolean _ => .substitutionBoolean
  | float _ => .substitutionFloat
  | instant _ => .substitutionInstant
  | integer _ => .substitutionInteger
  | string _ => .substitutionString

def booleanText (value : Bool) : String := if value then "true" else "false"

def integerText (value : Int64) : String := String.ofList (Text.signed value.toInt)

/-- The value as documents hold it. -/
def text : Literal → String
  | boolean value => booleanText value
  | float value => value.text
  | instant value => value.text
  | integer value => integerText value
  | string value => value

def diagnostic : Literal → String
  | boolean value => "Boolean(" ++ booleanText value ++ ")"
  | float value => "Float(" ++ value.diagnostic ++ ")"
  | instant value => "Instant(" ++ value.text ++ ")"
  | integer value => "Integer(" ++ integerText value ++ ")"
  | string value => "String(" ++ Text.quoted value ++ ")"

def boolean? (s : String) : Option Bool :=
  if s = "true" then some true else if s = "false" then some false else none

def integer? (s : String) : Option Int64 :=
  (Text.integer? s.toList).bind fun i =>
    if -9223372036854775808 ≤ i ∧ i ≤ 9223372036854775807 then some (Int64.ofInt i) else none

def read? (kind : Kind) (s : String) : Option Literal :=
  match kind with
  | .boolean => (boolean? s).map boolean
  | .float => (Double.read? s).map float
  | .instant => (Instant.read? s).map instant
  | .integer => (integer? s).map integer
  | .string => some (string s)
  | _ => none

/-- Whether two literals have the same value; floats compare as numbers. -/
def sameValue : Literal → Literal → Bool
  | float x, float y => x.sameNumber y
  | x, y => x == y

end Literal

end Terminology
