/-!
Places in a tree of named nodes: the name of the root, then an index and a name for each step.
Expressions and the documents that hold them share this one language.
-/

namespace Terminology

inductive Path where
  | root (name : String)
  | step (parent : Path) (index : Nat) (name : String)
  deriving DecidableEq

namespace Path

def text : Path → String
  | root name => name
  | step parent index name => parent.text ++ "[" ++ toString index ++ "]/" ++ name

end Path

end Terminology
