/-!
The characters of YAML text. The structure of a text is in its lines and columns, so every
character carries its place. Line breaks of all kinds are line feeds here, but for the separators
of lines and of paragraphs, which stay as they are.
-/

namespace Terminology.Yaml

/-- A character, its number in the text, its line and its column in that line. -/
structure Placed where
  char : Char
  index : Nat
  line : Nat
  column : Nat

def isBreak (c : Char) : Bool := c == '\n' || c == '\u2028' || c == '\u2029'

def isBlank (c : Char) : Bool := c == ' ' || c == '\t'

def isSpace (c : Char) : Bool := isBlank c || isBreak c

def isNameChar (c : Char) : Bool := c.isAlphanum || c == '-' || c == '_'

def isPrintable (c : Char) : Bool :=
  let n := c.toNat
  n == 9 || n == 10 || n == 13 || (0x20 ≤ n && n ≤ 0x7E) || n == 0x85 ||
    (0xA0 ≤ n && n ≤ 0xFFFD) || 0x10000 ≤ n

/-- The characters placed so far, the latest first, the place of the next one, and whether the
latest was written as a carriage return. -/
structure Placement where
  read : List Placed
  index : Nat
  line : Nat
  column : Nat
  returned : Bool

namespace Placement

/-- A carriage return and a line feed are one break. -/
def push (p : Placement) (c : Char) : Placement :=
  if c = '\n' ∧ p.returned then { p with returned := false }
  else
    let char := if c = '\r' ∨ c = '\x85' then '\n' else c
    let read := ⟨char, p.index, p.line, p.column⟩ :: p.read
    if isBreak char then ⟨read, p.index + 1, p.line + 1, 0, c == '\r'⟩
    else ⟨read, p.index + 1, p.line, p.column + 1, false⟩

end Placement

def place (cs : List Char) : List Placed :=
  (cs.foldl Placement.push ⟨[], 0, 0, 0, false⟩).read.reverse

/-- Whether a text starts with a blank or a line break, or is over. -/
def atSpace (ps : List Placed) : Bool := ps.head?.all fun p => isSpace p.char

def atMarker : List Placed → Bool
  | a :: b :: c :: ps =>
      a.column == 0 && a.char == b.char && b.char == c.char && (a.char == '-' || a.char == '.') &&
        atSpace ps
  | _ => false

def span (p : Char → Bool) (ps : List Placed) : List Char × List Placed :=
  ((ps.takeWhile fun x => p x.char).map Placed.char, ps.dropWhile fun x => p x.char)

end Terminology.Yaml
