import Terminology.Text.Decimal
import Terminology.Yaml.Node

/-!
The values that nodes denote: truth values, numbers, words and the entries of sections.
-/

namespace Terminology.Yaml

open Text

/-- The text of a scalar that denotes more than its text: a plain one, or a literal one that has
the tag of such values. -/
def denoting? (tag : String) : Yaml → Option String
  | scalar .plain _ text => some text
  | scalar .literal (some t) text => if t = "tag:yaml.org,2002:" ++ tag then some text else none
  | _ => none

def boolean? (y : Yaml) : Option Bool :=
  (y.denoting? "bool").bind fun s =>
    if ["true", "True", "TRUE"].contains s then some true
    else if ["false", "False", "FALSE"].contains s then some false
    else none

def digits? (base : Nat) (cs : List Char) : Option Nat :=
  if cs.isEmpty then none
  else cs.foldlM (fun value c => (digitValue? c).bind fun d =>
    if d < base then some (value * base + d) else none) 0

/-- Reads a natural number: decimal without leading zeros, or of the base that `0x`, `0o` or `0b`
announces, with a plus sign if one likes. -/
def naturalOf? (s : String) : Option Nat :=
  let cs := match s.toList with
    | '+' :: cs => cs
    | cs => cs
  match cs with
  | '0' :: 'x' :: cs => digits? 16 cs
  | '0' :: 'o' :: cs => digits? 8 cs
  | '0' :: 'b' :: cs => digits? 2 cs
  | '0' :: _ :: _ => none
  | cs => digits? 10 cs

def natural? (y : Yaml) : Option Nat :=
  ((y.denoting? "int").bind naturalOf?).bind fun n =>
    if n ≤ 18446744073709551615 then some n else none

def nothing : List String := ["", "~", "null", "Null", "NULL"]

/-- A word: the text of a scalar, or its tag if it is a local one and there is no text. -/
def word? : Yaml → Option String
  | scalar style (some tag) text =>
      match tag.toList with
      | ['!'] => none
      | '!' :: cs =>
          if style = .plain ∧ nothing.contains text then some (String.ofList cs) else none
      | _ => some text
  | scalar _ none text => some text
  | _ => none

/-- The entries of a section with what aliases in them stand for; a section that is absent has
none. Keys are scalars. -/
def entries? (d : Document) : Yaml → Option (List (String × Yaml))
  | mapping entries => entries.mapM fun (key, value) =>
      match d.resolve key with
      | scalar _ _ text => some (text, d.resolve value)
      | _ => none
  | scalar .plain _ text => if text.isEmpty then some [] else none
  | _ => none

/-- A field of a section: its default if it is left out, and nothing if it is there twice or does
not read. -/
def field? {α : Type} (entries : List (String × Yaml)) (key : String) (default : α)
    (read? : Yaml → Option α) : Option α :=
  match entries.filter fun entry => entry.1 == key with
  | [] => some default
  | [(_, value)] => read? value
  | _ => none

end Terminology.Yaml
