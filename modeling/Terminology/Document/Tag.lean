import Terminology.Expression.Basic
import Terminology.Markup.Attribute

/-!
An expression as the sequence of tags that its document consists of, and those tags one to a
line.
-/

namespace Terminology

open Markup Text

/-- A tag of a document; an element without children is one tag. -/
inductive Tag where
  | opening (name : String) (attributes : List Attribute)
  | empty (name : String) (attributes : List Attribute)
  | closing (name : String)
  deriving DecidableEq

namespace Tag

def attributeText (a : Attribute) : List Char :=
  ' ' :: a.key.toList ++ '=' :: '"' :: escape a.value.toList ++ ['"']

def text : Tag → List Char
  | opening name attributes => '<' :: name.toList ++ attributes.flatMap attributeText ++ ['>']
  | empty name attributes => '<' :: name.toList ++ attributes.flatMap attributeText ++ ['/', '>']
  | closing name => '<' :: '/' :: name.toList ++ ['>']

end Tag

/-- The lines written so far, the latest first, and how many elements are open behind them. -/
structure Printer where
  level : Nat
  lines : List (List Char)

namespace Printer

def start : Printer := ⟨0, []⟩

def line (indent level : Nat) (tag : Tag) : List Char :=
  '\n' :: List.replicate (indent * level) ' ' ++ tag.text

/-- Writes a tag on a line of its own. A closing tag is on the level of its opening one. -/
def put (indent : Nat) (p : Printer) (tag : Tag) : Printer :=
  match tag with
  | .opening .. => ⟨p.level + 1, line indent p.level tag :: p.lines⟩
  | .empty .. => ⟨p.level, line indent p.level tag :: p.lines⟩
  | .closing _ => ⟨p.level - 1, line indent (p.level - 1) tag :: p.lines⟩

end Printer

/-- The attributes that record a payload, in their fixed order; a literal without a value has no
record. -/
def Payload.attributes? : Payload → Option (List Attribute)
  | empty => some []
  | concept c => some [⟨"concept", c.text⟩]
  | role r => some [⟨"role", r.text⟩]
  | feature f comparison => some [⟨"feature", f.text⟩, ⟨"operator", comparison.text⟩]
  | literal value => value.map fun v => [⟨"value", v.text⟩]
  | template t assemblage => some [⟨"template", t.text⟩, ⟨"assemblage", assemblage.text⟩]
  | placeholder field deferred =>
      some (⟨"field", field⟩ :: if deferred then [⟨"deferred", "true"⟩] else [])

namespace Expression

mutual

/-- The tags of a tree in document order; the error is the kind of a literal without a value. -/
def tags : Expression → Except Kind (List Tag)
  | node kind payload children =>
      match payload.attributes? with
      | none => .error kind
      | some attributes =>
          match children with
          | [] => .ok [.empty kind.tag attributes]
          | e :: es =>
              match tags e with
              | .error unset => .error unset
              | .ok first => (tagsAll es).map fun others =>
                  .opening kind.tag attributes :: first ++ others ++ [.closing kind.tag]

def tagsAll : List Expression → Except Kind (List Tag)
  | [] => .ok []
  | e :: es =>
      match tags e with
      | .error unset => .error unset
      | .ok first => (tagsAll es).map (first ++ ·)

end

def declaration : List Char := "<?xml version=\"1.0\" encoding=\"UTF-8\"?>".toList

def document (indent : Nat) (e : Expression) : Except Kind String :=
  e.tags.map fun tags =>
    let printed := tags.foldl (Printer.put indent) .start
    String.ofList (declaration ++ printed.lines.reverse.flatten ++ ['\n'])

end Expression

end Terminology
