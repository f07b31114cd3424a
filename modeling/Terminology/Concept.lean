import Terminology.Uuid

/-!
How concepts and kinds are referred to: across systems by identifier, within one store by number.
-/

namespace Terminology

structure ConceptRef where
  id : Uuid
  deriving DecidableEq

structure InvalidConceptRef where
  value : String
  deriving DecidableEq

def InvalidConceptRef.message (e : InvalidConceptRef) : String :=
  "invalid concept reference: " ++ e.value

namespace ConceptRef

def text (c : ConceptRef) : String := c.id.text

def read? (s : String) : Option ConceptRef := (Uuid.read? s).map ConceptRef.mk

def parse (s : String) : Except InvalidConceptRef ConceptRef :=
  match read? s with
  | some c => .ok c
  | none => .error ⟨s⟩

def diagnostic (c : ConceptRef) : String := "ConceptRef(" ++ c.text ++ ")"

/-- Order of the sixteen bytes. -/
def le (a b : ConceptRef) : Bool := a.id.value.toNat ≤ b.id.value.toNat

end ConceptRef

/-- The number of a concept within one loaded store. -/
structure ConceptSequence where
  value : UInt32
  deriving DecidableEq

namespace ConceptSequence

def lt (a b : ConceptSequence) : Bool := a.value < b.value

def le (a b : ConceptSequence) : Bool := a.value ≤ b.value

end ConceptSequence

/-- The number that a store gave to a kind; it means nothing to another store. -/
structure Handle where
  value : Int32
  deriving DecidableEq

namespace Handle

def le (a b : Handle) : Bool := a.value ≤ b.value

end Handle

end Terminology
