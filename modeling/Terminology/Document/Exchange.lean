import Terminology.Document.Content
import Terminology.Document.Tag
import Terminology.Markup.Assembly

/-!
Writing expressions as documents and reading them back, within common limits: what is written can
be read.
-/

namespace Terminology

namespace Document

/-- How documents are written, and the limits that hold for writing and reading. -/
structure Settings extends Markup.Limits where
  indent : Nat := 2
  deriving DecidableEq

inductive Malformed where
  | markup (m : Markup.Malformed)
  | content (m : Misplaced)
  deriving DecidableEq

def Malformed.message : Malformed → String
  | markup m => "malformed document: " ++ m.message
  | content m => "malformed document: at `" ++ m.path.text ++ "`: " ++ m.error.message

inductive Unwritten where
  | invalid (e : InvalidExpression)
  | unsetLiteral (kind : Kind)
  deriving DecidableEq

def Unwritten.message : Unwritten → String
  | invalid e => e.message
  | unsetLiteral kind => "cannot write document: `" ++ kind.tag ++ "` literal has no value"

/-- Whether a tree may be written: its depth, then its validity. -/
def checkWritable (settings : Settings) (e : Expression) : Except InvalidExpression Unit :=
  if settings.maxDepth < e.depth then
    .error ⟨.root e.kind.tag, .tooDeep e.depth settings.maxDepth⟩
  else e.validate

/-- The document of a tree. Nothing is written of a tree that could not be read back. -/
def serialize (settings : Settings) (e : Expression) : Except Unwritten String :=
  match checkWritable settings e with
  | .error refused => .error (.invalid refused)
  | .ok () =>
      match e.document settings.indent with
      | .error kind => .error (.unsetLiteral kind)
      | .ok text =>
          if settings.maxBytes < text.utf8ByteSize then
            .error (.invalid ⟨.root e.kind.tag, .tooLarge text.utf8ByteSize settings.maxBytes⟩)
          else .ok text

def deserialize (settings : Settings) (text : String) : Except Malformed Expression :=
  match Markup.Element.parse settings.toLimits text with
  | .error m => .error (.markup m)
  | .ok root =>
      match Expression.ofElement root with
      | .error m => .error (.content m)
      | .ok e => .ok e

end Document

end Terminology
