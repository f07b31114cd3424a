import Terminology.Text.Decimal
import Terminology.Yaml.Character

/-!
The texts of scalars: plain, quoted and in blocks. Within plain and quoted scalars one line break
counts as a space and further ones as themselves.
-/

namespace Terminology.Yaml

open Text

/-- White space inside a scalar, the latest character first: blanks within a line, or line breaks,
around which blanks do not count. The first break is absent if it was escaped. -/
inductive Gap where
  | blanks (read : List Char)
  | breaks (first : Option Char) (others : List Char)

namespace Gap

def none : Gap := blanks []

def isNone : Gap → Bool
  | blanks read => read.isEmpty
  | breaks .. => false

def hasBreak : Gap → Bool
  | blanks _ => false
  | breaks .. => true

def push (c : Char) : Gap → Gap
  | blanks read => if isBreak c then breaks (some c) [] else blanks (c :: read)
  | breaks first others => if isBreak c then breaks first (c :: others) else breaks first others

/-- What the gap counts as, the last character first. -/
def text : Gap → List Char
  | blanks read => read
  | breaks (some '\n') [] => [' ']
  | breaks (some '\n') others => others
  | breaks first others => others ++ first.toList

end Gap

def isFlowIndicator (c : Char) : Bool :=
  c == ',' || c == '[' || c == ']' || c == '\x7b' || c == '\x7d'

/-- Reads on in a plain scalar, of which further lines start in the column `least` or behind it:
its text, whether lines were left behind, and what follows. -/
def plain (flow : Bool) (least : Nat) (read : List Char) (gap : Gap) :
    List Placed → Option (List Char × Bool × List Placed)
  | [] => some (read.reverse, gap.hasBreak, [])
  | p :: ps =>
      if isSpace p.char then
        if p.char = '\t' ∧ gap.hasBreak ∧ p.column < least then none
        else plain flow least read (gap.push p.char) ps
      else if ¬ gap.isNone ∧ (p.char = '#' ∨ atMarker (p :: ps) ∨ (¬ flow ∧ p.column < least)) then
        some (read.reverse, gap.hasBreak, p :: ps)
      else if (p.char = ':' ∧ atSpace ps) ∨ (flow ∧ isFlowIndicator p.char) then
        some (read.reverse, gap.hasBreak, p :: ps)
      else if flow ∧ p.char = ':' ∧
          ps.head?.any (fun q => isFlowIndicator q.char || q.char == '?') then none
      else plain flow least (p.char :: gap.text ++ read) .none ps

/-- Reads on between single quotes, where two of them mean one: the text and what follows. -/
def singleQuoted (read : List Char) (gap : Gap) : List Placed → Option (List Char × List Placed)
  | [] => none
  | p :: ps =>
      if isSpace p.char then singleQuoted read (gap.push p.char) ps
      else if atMarker (p :: ps) then none
      else
        let read := gap.text ++ read
        if p.char = '\x27' then
          match ps with
          | [] => some (read.reverse, [])
          | q :: qs =>
              if q.char = '\x27' then singleQuoted ('\x27' :: read) .none qs
              else some (read.reverse, q :: qs)
        else singleQuoted (p.char :: read) .none ps

def escapes : List (Char × Char) :=
  [('0', '\x00'), ('a', '\x07'), ('b', '\x08'), ('t', '\t'), ('\t', '\t'), ('n', '\n'),
    ('v', '\x0b'), ('f', '\x0c'), ('r', '\r'), ('e', '\x1b'), (' ', ' '), ('"', '"'),
    ('/', '/'), ('\\', '\\'), ('N', '\x85'), ('_', '\xa0'), ('L', '\u2028'), ('P', '\u2029')]

inductive QuoteState where
  | between
  | escaped
  | code (digits value : Nat)

def doubleQuoted : QuoteState → List Char → Gap → List Placed → Option (List Char × List Placed)
  | _, _, _, [] => none
  | .between, read, gap, p :: ps =>
      if isSpace p.char then doubleQuoted .between read (gap.push p.char) ps
      else if atMarker (p :: ps) then none
      else if p.char = '"' then some ((gap.text ++ read).reverse, ps)
      else if p.char = '\\' then doubleQuoted .escaped (gap.text ++ read) .none ps
      else doubleQuoted .between (p.char :: gap.text ++ read) .none ps
  | .escaped, read, _, p :: ps =>
      if p.char = 'x' then doubleQuoted (.code 2 0) read .none ps
      else if p.char = 'u' then doubleQuoted (.code 4 0) read .none ps
      else if p.char = 'U' then doubleQuoted (.code 8 0) read .none ps
      else if isBreak p.char then doubleQuoted .between read (.breaks none []) ps
      else match escapes.lookup p.char with
        | some c => doubleQuoted .between (c :: read) .none ps
        | none => none
  | .code digits value, read, _, p :: ps =>
      match digitValue? p.char with
      | none => none
      | some d =>
          let value := value * 16 + d
          if 1 < digits then doubleQuoted (.code (digits - 1) value) read .none ps
          else if value.isValidChar then
            doubleQuoted .between (Char.ofNat value :: read) .none ps
          else none

inductive Chomp where
  | strip | clip | keep

/-- The header of a block scalar: what becomes of its end, and its indentation if it is given. -/
structure BlockHeader where
  chomp : Chomp
  indent : Option Nat

namespace BlockHeader

def sign? (ps : List Placed) : Option (Chomp × List Placed) :=
  match ps with
  | p :: rest =>
      if p.char = '-' then some (.strip, rest)
      else if p.char = '+' then some (.keep, rest)
      else none
  | [] => none

def digit? (ps : List Placed) : Option Nat × List Placed :=
  match ps with
  | p :: rest =>
      if isDecimalDigit p.char then (digitValue? p.char, rest) else (none, ps)
  | [] => (none, [])

/-- Reads a sign and a digit in either order, each at most once. -/
def ofStart (ps : List Placed) : BlockHeader × List Placed :=
  match sign? ps with
  | some (chomp, ps) =>
      let (indent, ps) := digit? ps
      (⟨chomp, indent⟩, ps)
  | none =>
      let (indent, ps) := digit? ps
      match sign? ps with
      | some (chomp, ps) => (⟨chomp, indent⟩, ps)
      | none => (⟨.clip, indent⟩, ps)

end BlockHeader

/-- What follows the break of a line on which nothing is left but a comment. -/
def lineEnd? (ps : List Placed) : Option (List Placed) :=
  let ps := ps.dropWhile fun p => isBlank p.char
  let ps := if ps.head?.any (·.char == '#') then ps.dropWhile (!isBreak ·.char) else ps
  match ps with
  | [] => some []
  | p :: rest => if isBreak p.char then some rest else none

/-- The column of the deepest of the blank lines and the first other line, but no less than
`deepest`. A tab may not indent them. -/
def margin? (deepest : Nat) : List Placed → Option Nat
  | [] => some deepest
  | p :: ps =>
      if p.char = ' ' then margin? (max deepest (p.column + 1)) ps
      else if p.char = '\t' then none
      else if isBreak p.char then margin? deepest ps
      else some deepest

/-- What was read of a block scalar, the latest character first: its lines, the break that ends
them, the breaks of blank lines behind it, and whether the last line starts with a blank. -/
structure BlockText where
  read : List Char
  lead : Option Char
  trail : List Char
  indented : Bool

namespace BlockText

def start : BlockText := ⟨[], none, [], false⟩

/-- The text with the first character of another line. Where lines are folded, a line feed between
two lines that start with no blank counts as a space, or as nothing if blank lines follow it. -/
def newLine (folded : Bool) (t : BlockText) (c : Char) : BlockText :=
  let lead :=
    if folded ∧ t.lead = some '\n' ∧ ¬ t.indented ∧ ¬ isBlank c then
      if t.trail.isEmpty then [' '] else []
    else t.lead.toList
  ⟨c :: t.trail ++ lead ++ t.read, none, [], isBlank c⟩

def chomped (t : BlockText) : Chomp → List Char
  | .strip => t.read.reverse
  | .clip => (t.lead.toList ++ t.read).reverse
  | .keep => (t.trail ++ t.lead.toList ++ t.read).reverse

end BlockText

/-- Reads on in a block scalar of which the lines start in the column `indent`; `inside` says
whether that column was reached in this line. -/
def blockLines (folded : Bool) (indent : Nat) :
    BlockText → (inside : Bool) → List Placed → Option (BlockText × List Placed)
  | t, _, [] => some (t, [])
  | t, true, p :: ps =>
      if isBreak p.char then
        blockLines folded indent { t with lead := some p.char, trail := [] } false ps
      else blockLines folded indent { t with read := p.char :: t.read } true ps
  | t, false, p :: ps =>
      if isBreak p.char then
        blockLines folded indent { t with trail := p.char :: t.trail } false ps
      else if indent ≤ p.column then blockLines folded indent (t.newLine folded p.char) true ps
      else if p.char = ' ' then blockLines folded indent t false ps
      else if p.char = '\t' then none
      else some (t, p :: ps)

/-- Reads a block scalar behind its indicator: its text and what follows. Its lines start in the
column `least` or behind it, or if the header says so that many columns behind the collection that
the scalar belongs to. -/
def block (folded : Bool) (least : Nat) (ps : List Placed) :
    Option (List Char × List Placed) := do
  let (header, ps) := BlockHeader.ofStart ps
  let ps ← lineEnd? ps
  let indent ← match header.indent with
    | some 0 => none
    | some n => some (least - 1 + n)
    | none => margin? (max least 1) ps
  let (t, ps) ← blockLines folded indent .start false ps
  return (t.chomped header.chomp, ps)

end Terminology.Yaml
