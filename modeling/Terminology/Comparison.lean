/-!
How a feature compares its value with the literal below it.
-/

namespace Terminology

inductive Comparison where
  | equals | lessThan | lessThanOrEqual | greaterThan | greaterThanOrEqual
  deriving DecidableEq

structure UnknownComparison where
  value : String
  deriving DecidableEq

def UnknownComparison.message (e : UnknownComparison) : String :=
  "unknown concrete domain operator `" ++ e.value ++ "`"

namespace Comparison

def all : List Comparison := [equals, lessThan, lessThanOrEqual, greaterThan, greaterThanOrEqual]

def name : Comparison → String
  | equals => "Equals"
  | lessThan => "LessThan"
  | lessThanOrEqual => "LessThanOrEqual"
  | greaterThan => "GreaterThan"
  | greaterThanOrEqual => "GreaterThanOrEqual"

def text : Comparison → String
  | equals => "equals"
  | lessThan => "less-than"
  | lessThanOrEqual => "less-than-or-equal"
  | greaterThan => "greater-than"
  | greaterThanOrEqual => "greater-than-or-equal"

def read? (s : String) : Option Comparison := all.find? fun c => c.text == s

def parse (s : String) : Except UnknownComparison Comparison :=
  match read? s with
  | some c => .ok c
  | none => .error ⟨s⟩

end Comparison

end Terminology
