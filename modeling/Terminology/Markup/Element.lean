import Terminology.Markup.Attribute

/-!
Element trees, the meaning of a marked-up text.
-/

namespace Terminology.Markup

/-- An element: its attributes and child elements in document order, and its own character data
in one piece. -/
inductive Element where
  | element (name : String) (attributes : List Attribute) (children : List Element)
      (text : String)

namespace Element

def name : Element → String
  | element name _ _ _ => name

def attributes : Element → List Attribute
  | element _ attributes _ _ => attributes

def children : Element → List Element
  | element _ _ children _ => children

def text : Element → String
  | element _ _ _ text => text

def attribute? (e : Element) (key : String) : Option String :=
  (e.attributes.find? fun a => a.key == key).map Attribute.value

mutual

/-- Levels of nesting; an element without children has one. -/
def depth : Element → Nat
  | element _ _ children _ => 1 + depthAll children

def depthAll : List Element → Nat
  | [] => 0
  | e :: es => max (depth e) (depthAll es)

end

mutual

def count : Element → Nat
  | element _ _ children _ => 1 + countAll children

def countAll : List Element → Nat
  | [] => 0
  | e :: es => count e + countAll es

end

end Element

end Terminology.Markup
