import Terminology.Markup.Reference

/-!
The inside of a start tag: a name and attributes. Attributes are read from left to right, each
with its value before the next, so that the leftmost fault is the one reported. Positions count
the bytes of the inside of the tag, the name included.
-/

namespace Terminology.Markup

open Text

/-- An attribute with its value unescaped. -/
structure Attribute where
  key : String
  value : String
  deriving DecidableEq

inductive AttributeError where
  | missingEquals (offset : Nat)
  | duplicated (offset earlier : Nat)
  | missingValue (offset : Nat)
  | unquoted (offset : Nat)
  | unclosed (offset : Nat) (quote : Char)
  | reference (error : ReferenceError)
  deriving DecidableEq

namespace AttributeError

def message : AttributeError → String
  | missingEquals n =>
      s!"position {n}: attribute key must be directly followed by `=` or space"
  | duplicated n earlier =>
      s!"position {n}: duplicated attribute, previous declaration at position {earlier}"
  | missingValue n => s!"position {n}: `=` must be followed by an attribute value"
  | unquoted n => "position " ++ toString n ++ ": attribute value must be enclosed in `\"` or `'`"
  | unclosed n quote =>
      s!"position {n}: missing closing quote `{quote.toString}` in attribute value"
  | reference error => error.message

end AttributeError

def isKeyChar (c : Char) : Bool := c != '=' && !isMarkupSpace c

/-- Where `rest` begins in a tag of `size` bytes that it is the end of. -/
def position (size : Nat) (rest : List Char) : Nat := size - byteLength rest

/-- The key that starts with `c`, whatever `c` is, and what follows its equals sign. -/
def readKey (size : Nat) (c : Char) (cs : List Char) :
    Except AttributeError (List Char × List Char) :=
  match (cs.dropWhile isKeyChar).dropWhile isMarkupSpace with
  | '=' :: rest => .ok (c :: cs.takeWhile isKeyChar, rest)
  | rest => .error (.missingEquals (position size rest))

/-- A quoted value as it is written, and what follows its closing quote. -/
def readValue (size : Nat) (cs : List Char) : Except AttributeError (List Char × List Char) :=
  match cs.dropWhile isMarkupSpace with
  | [] => .error (.missingValue size)
  | quote :: rest =>
      if quote = '"' ∨ quote = '\x27' then
        match rest.dropWhile (· != quote) with
        | [] => .error (.unclosed size quote)
        | _ :: after => .ok (rest.takeWhile (· != quote), after)
      else .error (.unquoted (position size (quote :: rest)))

theorem length_of_readKey {size : Nat} {c : Char} {cs key rest : List Char}
    (h : readKey size c cs = .ok (key, rest)) : rest.length < cs.length := by
  have spaces := (List.dropWhile_suffix (l := cs.dropWhile isKeyChar) isMarkupSpace).length_le
  have chars := (List.dropWhile_suffix (l := cs) isKeyChar).length_le
  unfold readKey at h
  split at h
  · rename_i _ equals
    simp only [equals, List.length_cons] at spaces
    cases h
    omega
  · cases h

theorem length_of_readValue {size : Nat} {cs value rest : List Char}
    (h : readValue size cs = .ok (value, rest)) : rest.length < cs.length := by
  have spaces := (List.dropWhile_suffix (l := cs) isMarkupSpace).length_le
  unfold readValue at h
  split at h
  · cases h
  · rename_i quote inside start
    have chars := (List.dropWhile_suffix (l := inside) (· != quote)).length_le
    simp only [start, List.length_cons] at spaces
    split at h
    · split at h
      · cases h
      · rename_i _ _ close
        simp only [close, List.length_cons] at chars
        cases h
        omega
    · cases h

/-- Reads the attributes in the rest of a tag of `size` bytes. `read` holds those read so far, the
latest first, each with the rest of the tag at its key. -/
def attributesFrom (size : Nat) (read : List (List Char × Attribute)) (cs : List Char) :
    Except AttributeError (List Attribute) :=
  match _ : cs.dropWhile isMarkupSpace with
  | [] => .ok (read.reverse.map Prod.snd)
  | c :: rest =>
      match _ : readKey size c rest with
      | .error e => .error e
      | .ok (chars, rest') =>
          let key := String.ofList chars
          match read.find? fun earlier => earlier.2.key == key with
          | some earlier =>
              .error (.duplicated (position size (c :: rest)) (position size earlier.1))
          | none =>
              match _ : readValue size rest' with
              | .error e => .error e
              | .ok (raw, after) =>
                  match unescape raw with
                  | .error e => .error (.reference e)
                  | .ok value =>
                      attributesFrom size ((c :: rest, ⟨key, String.ofList value⟩) :: read) after
termination_by cs.length
decreasing_by
  have spaces := (List.dropWhile_suffix (l := cs) isMarkupSpace).length_le
  have first := length_of_readKey ‹_›
  have second := length_of_readValue ‹_›
  simp only [‹cs.dropWhile isMarkupSpace = _›, List.length_cons] at spaces
  omega

/-- The name in the inside of a tag: all before the first white space. -/
def tagName (content : List Char) : List Char := content.takeWhile (!isMarkupSpace ·)

def tagAttributes (content : List Char) : Except AttributeError (List Attribute) :=
  attributesFrom (byteLength content) [] (content.dropWhile (!isMarkupSpace ·))

end Terminology.Markup
