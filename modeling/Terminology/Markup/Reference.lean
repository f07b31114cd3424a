import Terminology.Text.Character
import Terminology.Text.Decimal

/-!
References in character data and attribute values: writing the five characters that markup
claims for itself, and reading the five predefined entities and character references back. No
other entity is known, and what a reference stands for is not read again.
-/

namespace Terminology.Markup

open Text

def escapeChar (c : Char) : List Char :=
  if c = '<' then "&lt;".toList
  else if c = '>' then "&gt;".toList
  else if c = '&' then "&amp;".toList
  else if c = '\x27' then "&apos;".toList
  else if c = '"' then "&quot;".toList
  else [c]

def escape (cs : List Char) : List Char := cs.flatMap escapeChar

/-- What is wrong with a reference. Offsets count the bytes of the text that holds it. -/
inductive ReferenceError where
  | unterminated (start stop : Nat)
  | unknownEntity (start stop : Nat) (name : List Char)
  | signedNumber
  | emptyNumber
  | invalidDigit
  | numberTooLarge
  | null
  | notScalar (code : Nat)
  deriving DecidableEq

namespace ReferenceError

def message : ReferenceError → String
  | unterminated start stop =>
      s!"Error while escaping character at range {start}..{stop}: Cannot find ';' after '&'"
  | unknownEntity start stop name =>
      s!"at {start}..{stop}: unrecognized entity `{String.ofList name}`"
  | signedNumber => "invalid character reference: unexpected number sign"
  | emptyNumber => "invalid character reference: cannot parse integer from empty string"
  | invalidDigit => "invalid character reference: invalid digit found in string"
  | numberTooLarge => "invalid character reference: number too large to fit in target type"
  | null => "invalid character reference: 0x0 character is not permitted in XML"
  | notScalar code => s!"invalid character reference: `{code}` is not a valid codepoint"

end ReferenceError

/-- Reads digits of the given base into a code of at most 32 bits; of several faults the leftmost
counts. -/
def readCode (base : Nat) : Nat → List Char → Except ReferenceError Nat
  | code, [] => .ok code
  | code, c :: cs =>
      match digitValue? c with
      | none => .error .invalidDigit
      | some d =>
          if base ≤ d then .error .invalidDigit
          else if 4294967295 < code * base + d then .error .numberTooLarge
          else readCode base (code * base + d) cs

/-- The character that a number refers to: decimal digits, or hexadecimal ones after `x`. -/
def readNumber (cs : List Char) : Except ReferenceError Char :=
  let (base, digits) := match cs with
    | 'x' :: digits => (16, digits)
    | digits => (10, digits)
  match digits with
  | [] => .error .emptyNumber
  | c :: _ =>
      if c = '+' ∨ c = '-' then .error .signedNumber
      else match readCode base 0 digits with
        | .error e => .error e
        | .ok code =>
            if code = 0 then .error .null
            else if code.isValidChar then .ok (Char.ofNat code)
            else .error (.notScalar code)

def predefined? (name : List Char) : Option Char :=
  if name = "lt".toList then some '<'
  else if name = "gt".toList then some '>'
  else if name = "amp".toList then some '&'
  else if name = "apos".toList then some '\x27'
  else if name = "quot".toList then some '"'
  else none

/-- The character that a reference with the given name stands for; the name starts at `start`. -/
def resolve (start : Nat) (name : List Char) : Except ReferenceError Char :=
  match name with
  | '#' :: number => readNumber number
  | _ =>
      match predefined? name with
      | some c => .ok c
      | none => .error (.unknownEntity start (start + byteLength name) name)

def isReferenceEnd (c : Char) : Bool := c == '&' || c == ';'

/-- Replaces the references in the rest of a text. `read` is what was read so far, its last
character first, and `offset` the number of bytes it was read from. -/
def unescapeFrom (offset : Nat) (read : List Char) (cs : List Char) :
    Except ReferenceError (List Char) :=
  match cs with
  | [] => .ok read.reverse
  | c :: cs =>
      if c = '&' then
        let name := cs.takeWhile (!isReferenceEnd ·)
        match h : cs.dropWhile (!isReferenceEnd ·) with
        | ';' :: rest =>
            match resolve (offset + 1) name with
            | .error e => .error e
            | .ok c => unescapeFrom (offset + byteLength name + 2) (c :: read) rest
        | _ => .error (.unterminated offset (offset + 1 + byteLength cs))
      else unescapeFrom (offset + c.utf8Size) (c :: read) cs
termination_by cs.length
decreasing_by
  · have shorter := (List.dropWhile_suffix (l := cs) (!isReferenceEnd ·)).length_le
    simp only [h, List.length_cons] at shorter ⊢
    omega
  · simp

def unescape (cs : List Char) : Except ReferenceError (List Char) := unescapeFrom 0 [] cs

end Terminology.Markup
