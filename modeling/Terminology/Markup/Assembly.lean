import Terminology.Markup.Element
import Terminology.Markup.Token

/-!
From tokens to the element tree. Document type declarations and processing instructions are
refused wherever they stand, so no entity can be declared, and nothing outside the text is
looked at. The first fault in document order is reported.
-/

namespace Terminology.Markup

open Text

structure Limits where
  maxDepth : Nat := 256
  maxBytes : Nat := 4194304
  deriving DecidableEq

inductive Malformed where
  | tooLarge (bytes limit : Nat)
  | fault (offset : Nat) (cause : Fault)
  | unmatched (offset : Nat) (name : List Char)
  | mismatched (offset : Nat) (expected found : List Char)
  | doctype
  | instruction
  | secondRoot
  | tooDeep (limit : Nat)
  | attributes (error : AttributeError)
  | reference (error : ReferenceError)
  | strayText
  | unclosed (name : List Char)
  | rootless
  deriving DecidableEq

namespace Malformed

def message : Malformed → String
  | tooLarge bytes limit => s!"document is {bytes} bytes, the limit is {limit}"
  | fault offset cause => s!"invalid markup at byte {offset}: {cause.message}"
  | unmatched offset name =>
      s!"invalid markup at byte {offset}: ill-formed document: close tag " ++
        s!"`</{String.ofList name}>` does not match any open tag"
  | mismatched offset expected found =>
      s!"invalid markup at byte {offset}: ill-formed document: expected " ++
        s!"`</{String.ofList expected}>`, but `</{String.ofList found}>` was found"
  | doctype => "doctype declarations are not accepted"
  | instruction => "processing instructions are not accepted"
  | secondRoot => "document has more than one root element"
  | tooDeep limit => s!"nesting deeper than {limit} elements"
  | attributes error => error.message
  | reference error => error.message
  | strayText => "character data outside the root element"
  | unclosed name => s!"truncated document: `<{String.ofList name}>` is never closed"
  | rootless => "document has no root element"

end Malformed

/-- An element that is still open: its children and its pieces of character data so far, the
latest first. -/
structure Frame where
  name : List Char
  attributes : List Attribute
  children : List Element
  pieces : List (List Char)

namespace Frame

def ofTag (content : List Char) : Except Malformed Frame :=
  match tagAttributes content with
  | .ok attributes => .ok ⟨tagName content, attributes, [], []⟩
  | .error e => .error (.attributes e)

def close (f : Frame) : Element :=
  .element (String.ofList f.name) f.attributes f.children.reverse
    (String.ofList f.pieces.reverse.flatten)

end Frame

/-- What the tokens read so far amount to: the bytes they take, the elements that are open, the
innermost first, and the root element once it is closed. -/
structure Assembly where
  offset : Nat
  stack : List Frame
  root : Option Element

namespace Assembly

def start : Assembly := ⟨0, [], none⟩

def checkOpen (maxDepth : Nat) (a : Assembly) : Except Malformed Unit :=
  if a.stack.isEmpty ∧ a.root.isSome then .error .secondRoot
  else if maxDepth ≤ a.stack.length then .error (.tooDeep maxDepth)
  else .ok ()

/-- Gives a closed element to the one that is open around it, or makes it the root. -/
def attach (e : Element) (a : Assembly) : Except Malformed Assembly :=
  match a.stack with
  | f :: fs => .ok { a with stack := { f with children := e :: f.children } :: fs }
  | [] => if a.root.isSome then .error .secondRoot else .ok { a with root := some e }

/-- Adds character data to the innermost open element. Outside the root there may be none but
white space. -/
def addText (piece : List Char) (a : Assembly) : Except Malformed Assembly :=
  match a.stack with
  | f :: fs => .ok { a with stack := { f with pieces := piece :: f.pieces } :: fs }
  | [] => if isBlank piece then .ok a else .error .strayText

/-- The name in an end tag. White space behind it does not count, unless there is nothing else. -/
def closingName (content : List Char) : List Char :=
  if (trimEnd content).isEmpty then content else trimEnd content

def openElement (maxDepth : Nat) (content : List Char) (a : Assembly) :
    Except Malformed Assembly := do
  a.checkOpen maxDepth
  let f ← Frame.ofTag content
  return { a with stack := f :: a.stack }

def emptyElement (maxDepth : Nat) (content : List Char) (a : Assembly) :
    Except Malformed Assembly := do
  a.checkOpen maxDepth
  let f ← Frame.ofTag content
  a.attach f.close

def closeElement (content : List Char) (a : Assembly) : Except Malformed Assembly :=
  match a.stack with
  | [] => .error (.unmatched a.offset (closingName content))
  | f :: fs =>
      if f.name = closingName content then attach f.close { a with stack := fs }
      else .error (.mismatched a.offset f.name (closingName content))

def interpret (maxDepth : Nat) (a : Assembly) : Token → Except Malformed Assembly
  | .text raw =>
      if (trim raw).isEmpty then .ok a
      else match unescape (trim raw) with
        | .ok piece => a.addText piece
        | .error e => .error (.reference e)
  | .opening content => a.openElement maxDepth content
  | .empty content => a.emptyElement maxDepth content
  | .closing content => a.closeElement content
  | .verbatim content => a.addText content
  | .comment _ | .declaration _ => .ok a
  | .instruction _ => .error .instruction
  | .doctype .. => .error .doctype

def step (maxDepth : Nat) (a : Assembly) (t : Token) : Except Malformed Assembly :=
  (a.interpret maxDepth t).map fun next =>
    { next with offset := a.offset + byteLength t.source }

/-- The root element, if every element is closed. -/
def finish (a : Assembly) : Except Malformed Element :=
  match a.stack, a.root with
  | f :: _, _ => .error (.unclosed f.name)
  | [], some e => .ok e
  | [], none => .error .rootless

end Assembly

namespace Element

/-- The element tree of a sequence of tokens, and of the fault behind them if there is one. -/
def ofScan (maxDepth : Nat) (s : Scan) : Except Malformed Element := do
  let a ← s.tokens.foldlM (Assembly.step maxDepth) .start
  match s.fault with
  | some fault => .error (.fault (a.offset + fault.shift) fault)
  | none => a.finish

/-- A byte order mark at the start of a text does not belong to it. -/
def withoutMark : List Char → List Char
  | '\ufeff' :: cs => cs
  | cs => cs

def parse (limits : Limits) (text : String) : Except Malformed Element :=
  if limits.maxBytes < text.utf8ByteSize then
    .error (.tooLarge text.utf8ByteSize limits.maxBytes)
  else ofScan limits.maxDepth (.ofText (withoutMark text.toList))

end Element

end Terminology.Markup
