import Terminology.Concept
import Terminology.Kind

/-!
The form in which kinds, concepts and numbers are exchanged as data: names and identifiers as
text, sequence numbers and handles as integers.
-/

namespace Terminology

/-- A datum, as far as the forms below tell data apart. -/
inductive Datum where
  | null
  | text (s : String)
  | integer (i : Int)
  | record (fields : List (String × Datum))
  | other

/-- How the values of a type are exchanged, and their order. -/
structure Form (α : Type) where
  read? : Datum → Option α
  write : α → Datum
  le : α → α → Bool

namespace Form

variable {α : Type}

def normalize? (form : Form α) (d : Datum) : Option Datum := (form.read? d).map form.write

/-- The data in the order of the values they read as. -/
def sort? (form : Form α) (data : List Datum) : Option (List Datum) :=
  (data.mapM form.read?).map fun values => (values.mergeSort form.le).map form.write

/-- Reads a name as text, or as the only field of a record that holds nothing. -/
def name? (find? : String → Option α) : Datum → Option α
  | .text s => find? s
  | .record [(s, .null)] => find? s
  | _ => none

def kind : Form Kind where
  read? := name? Kind.ofName?
  write k := .text k.name
  le a b := a.rank ≤ b.rank

def category : Form Category where
  read? := name? Category.ofName?
  write c := .text c.name
  le a b := a.rank ≤ b.rank

def conceptRef : Form ConceptRef where
  read?
    | .text s => ConceptRef.read? s
    | _ => none
  write c := .text c.text
  le := ConceptRef.le

def conceptSequence : Form ConceptSequence where
  read?
    | .integer i => if 0 ≤ i ∧ i ≤ 4294967295 then some ⟨UInt32.ofNat i.toNat⟩ else none
    | _ => none
  write c := .integer c.value.toNat
  le := ConceptSequence.le

def handle : Form Handle where
  read?
    | .integer i => if -2147483648 ≤ i ∧ i ≤ 2147483647 then some ⟨Int32.ofInt i⟩ else none
    | _ => none
  write h := .integer h.value.toInt
  le := Handle.le

end Form

end Terminology
