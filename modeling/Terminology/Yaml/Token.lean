import Terminology.Yaml.Scalar

/-!
The tokens of YAML text. Collections in blocks have no brackets: the columns of keys and dashes
say where they start and end. What is a key shows only at the colon behind it, so the place where
one may start is kept in mind until then.
-/

namespace Terminology.Yaml

open Text

inductive Style where
  | plain | quoted | literal | folded
  deriving DecidableEq

inductive Token where
  | version (major minor : Nat)
  | tagHandle (handle : String) (leading : List UInt8)
  | documentStart
  | documentEnd
  | blockSequence
  | blockMapping
  | blockEnd
  | flowSequence
  | flowSequenceEnd
  | flowMapping
  | flowMappingEnd
  | comma
  | dash
  | key
  | value
  | aliasOf (name : String)
  | anchor (name : String)
  | tag (handle : String) (rest : List UInt8)
  | scalar (style : Style) (text : String)
  deriving DecidableEq

/-- Skips blanks, line breaks, comments, and a byte order mark at the start of each line. Behind a
line break in a block a key may start, and where one may start a tab may not stand: `fresh` says so
before and after. -/
def separation (flow : Bool) : (fresh comment : Bool) → List Placed → Bool × List Placed
  | fresh, _, [] => (fresh, [])
  | fresh, comment, p :: ps =>
      if isBreak p.char then separation flow (fresh || !flow) false ps
      else if comment ∨ p.char = '#' then separation flow fresh true ps
      else if p.char = ' ' ∨ (p.char = '\t' ∧ (flow ∨ ¬ fresh)) ∨
          (p.char = '\ufeff' ∧ p.column = 0) then
        separation flow fresh false ps
      else (fresh, p :: ps)

namespace Token

def name? (ps : List Placed) : Option (String × List Placed) :=
  let (name, rest) := span isNameChar ps
  if name.isEmpty then none
  else if rest.head?.all fun p => isSpace p.char || "?:,]\x7d%@`".toList.contains p.char then
    some (String.ofList name, rest)
  else none

/-- The characters of a tag besides escaped bytes; flow indicators only in one that is enclosed. -/
def isTagChar (enclosed : Bool) (c : Char) : Bool :=
  isNameChar c || ";/?:@&=+$.!~*'()".toList.contains c || (enclosed && ",[]".toList.contains c)

/-- How many bytes the character takes in UTF-8 that starts with the given one. -/
def width? (byte : Nat) : Option Nat :=
  if byte < 0x80 then some 1
  else if byte < 0xC0 then none
  else if byte < 0xE0 then some 2
  else if byte < 0xF0 then some 3
  else if byte < 0xF8 then some 4
  else none

/-- Reads the bytes of a tag, of which `read` holds the ones so far, the latest first. The bytes of
a character that are still `due` have to be escaped like its first one. -/
def tagBytes? (enclosed : Bool) (due : Nat) (read : List UInt8) :
    List Placed → Option (List UInt8 × List Placed)
  | [] => if due = 0 then some (read.reverse, []) else none
  | p :: ps =>
      if p.char = '%' then
        match ps with
        | high :: low :: rest =>
            match digitValue? high.char, digitValue? low.char with
            | some h, some l =>
                let byte := h * 16 + l
                if 0 < due then
                  if byte / 64 = 2 then
                    tagBytes? enclosed (due - 1) (UInt8.ofNat byte :: read) rest
                  else none
                else match width? byte with
                  | some width => tagBytes? enclosed (width - 1) (UInt8.ofNat byte :: read) rest
                  | none => none
            | _, _ => none
        | _ => none
      else if 0 < due then none
      else if isTagChar enclosed p.char then
        tagBytes? enclosed 0 (UInt8.ofNat p.char.toNat :: read) ps
      else some (read.reverse, p :: ps)

/-- Reads one or more bytes of a tag. It ends with the first zero among them. -/
def someTagBytes? (enclosed : Bool) (ps : List Placed) : Option (List UInt8 × List Placed) := do
  let (bytes, rest) ← tagBytes? enclosed 0 [] ps
  guard (bytes ≠ [])
  return (bytes.takeWhile (· != 0), rest)

def after? (c : Char) : List Placed → Option (List Placed)
  | [] => none
  | p :: ps => if p.char = c then some ps else none

def enclosedTag? (ps : List Placed) : Option (Token × List Placed) := do
  let (bytes, rest) ← someTagBytes? true ps
  return (tag "" bytes, ← after? '>' rest)

def handledTag? (handle : String) (ps : List Placed) : Option (Token × List Placed) := do
  let (bytes, rest) ← someTagBytes? false ps
  return (tag handle bytes, rest)

/-- Reads a tag whose handle is one exclamation mark behind it. The mark alone is a tag too. -/
def localTag? (ps : List Placed) : Option (Token × List Placed) := do
  let (bytes, rest) ← tagBytes? false 0 [] ps
  match bytes.takeWhile (· != 0) with
  | [] => return (tag "" [33], rest)
  | bytes => return (tag "!" bytes, rest)

def tag? (flow : Bool) (ps : List Placed) : Option (Token × List Placed) := do
  let (name, behind) := span isNameChar ps
  let (token, rest) ← match after? '<' ps, after? '!' behind with
    | some inside, _ => enclosedTag? inside
    | none, some rest => handledTag? ("!" ++ String.ofList name ++ "!") rest
    | none, none => localTag? ps
  guard (atSpace rest || (flow && (after? ',' rest).isSome))
  return (token, rest)

def number? (ps : List Placed) : Option (Nat × List Placed) :=
  let (digits, rest) := span isDecimalDigit ps
  if digits.isEmpty ∨ 9 < digits.length then none else some (decimalValue digits, rest)

def version? (ps : List Placed) : Option (Token × List Placed) := do
  let (major, rest) ← number? ps
  let (minor, rest) ← number? (← after? '.' rest)
  return (version major minor, rest)

/-- Reads the handle that a directive declares, which has one exclamation mark or two, and what it
stands for. -/
def tagHandle? (ps : List Placed) : Option (Token × List Placed) := do
  let (name, behind) := span isNameChar (← after? '!' ps)
  let (handle, rest) ← match after? '!' behind with
    | some rest => some ("!" ++ String.ofList name ++ "!", rest)
    | none => if name.isEmpty then some ("!", behind) else none
  guard (rest.head?.any fun p => isBlank p.char)
  let (leading, rest) ← someTagBytes? true (rest.dropWhile fun p => isBlank p.char)
  guard (atSpace rest)
  return (tagHandle handle leading, rest)

def directive? (ps : List Placed) : Option (Token × List Placed) := do
  let (name, behind) := span isNameChar ps
  guard (atSpace behind)
  let ps := behind.dropWhile fun p => isBlank p.char
  let (token, rest) ← match String.ofList name with
    | "YAML" => version? ps
    | "TAG" => tagHandle? ps
    | _ => none
  return (token, ← lineEnd? rest)

end Token

/-- A place where a key may start: whether one has to, the number of tokens before it, and its
character. -/
structure PossibleKey where
  required : Bool
  before : Nat
  start : Placed

/-- A text that is cut into tokens. Block collections are open in the columns of `levels`, the
innermost first; each flow collection that is open has its own possible key, the enclosing ones in
`outer`. `fresh` says whether a key may start here. The tokens are listed with the latest first. -/
structure Scanner where
  rest : List Placed
  levels : List Nat
  key : Option PossibleKey
  outer : List (Option PossibleKey)
  fresh : Bool
  count : Nat
  tokens : List Token

namespace Scanner

def start (ps : List Placed) : Scanner := ⟨ps, [], none, [], true, 0, []⟩

def inFlow (s : Scanner) : Bool := !s.outer.isEmpty

/-- The least column behind the one of the innermost block collection. -/
def least (s : Scanner) : Nat := (s.levels.head?.map (· + 1)).getD 0

def emit (s : Scanner) (fresh : Bool) (rest : List Placed) (t : Token) : Scanner :=
  { s with fresh, rest, count := s.count + 1, tokens := t :: s.tokens }

/-- Gives a possible key up, unless it has to be one. -/
def forget? (s : Scanner) : Option Scanner :=
  if s.key.any PossibleKey.required then none else some { s with key := none }

/-- Notes that a key may start with the character `p`. In the column of its collection one has
to. -/
def note? (s : Scanner) (p : Placed) : Option Scanner :=
  if s.fresh then
    s.forget?.map fun s =>
      { s with key := some ⟨!s.inFlow && s.levels.head? == some p.column, s.count, p⟩ }
  else some s

def closeBehind (s : Scanner) (column : Nat) : Scanner :=
  let closed := (s.levels.takeWhile (column < ·)).map fun _ => Token.blockEnd
  if s.inFlow then s
  else { s with
    levels := s.levels.drop closed.length
    count := s.count + closed.length
    tokens := closed ++ s.tokens }

def closeAll (s : Scanner) : Scanner :=
  if s.inFlow then s
  else { s with levels := [], tokens := s.levels.map (fun _ => Token.blockEnd) ++ s.tokens }

/-- Starts a block collection in the given column, unless one is open there or behind it, and puts
its token and then `ts` behind the first `before` tokens. -/
def openAt (s : Scanner) (column before : Nat) (t : Token) (ts : List Token) : Scanner :=
  let opens := !s.inFlow && decide (s.least ≤ column)
  let added := ts.reverse ++ if opens then [t] else []
  let later := s.count - before
  { s with
    levels := if opens then column :: s.levels else s.levels
    count := s.count + added.length
    tokens := s.tokens.take later ++ added ++ s.tokens.drop later }

def indicator? (s : Scanner) (p : Placed) (ps : List Placed) (collection mark : Token) :
    Option Scanner :=
  if s.inFlow then s.forget?.map fun s => s.emit (mark == .dash) ps mark
  else if s.fresh then
    (s.openAt p.column s.count collection []).forget?.map fun s => s.emit true ps mark
  else none

/-- A colon. What it makes a key is on its line and at most 1024 characters before it. -/
def colon? (s : Scanner) (p : Placed) (ps : List Placed) : Option Scanner :=
  match s.key.filter fun k => k.start.line == p.line && p.index ≤ k.start.index + 1024 with
  | some k =>
      let s := s.openAt k.start.column k.before .blockMapping [.key]
      some ({ s with key := none }.emit false ps .value)
  | none =>
      s.forget?.bind fun s =>
        if s.inFlow then some (s.emit false ps .value)
        else if s.fresh then
          some ((s.openAt p.column s.count .blockMapping []).emit true ps .value)
        else none

def openFlow? (s : Scanner) (p : Placed) (ps : List Placed) (t : Token) : Option Scanner :=
  (s.note? p).map fun s => { s with key := none, outer := s.key :: s.outer }.emit true ps t

/-- The bracket that ends a flow collection, even if none is open. -/
def closeFlow? (s : Scanner) (ps : List Placed) (t : Token) : Option Scanner :=
  s.forget?.map fun s =>
    match s.outer with
    | [] => s.emit false ps t
    | key :: outer => { s with key, outer }.emit false ps t

/-- A part of a node, with which a key may start. -/
def part? (s : Scanner) (p : Placed) (read : Option (Token × List Placed)) : Option Scanner := do
  let (t, rest) ← read
  return (← s.note? p).emit false rest t

def quoted? (s : Scanner) (p : Placed) (read : Option (List Char × List Placed)) :
    Option Scanner :=
  s.part? p (read.map fun (text, rest) => (.scalar .quoted (String.ofList text), rest))

/-- A plain scalar. If it left lines behind, a key may start at what follows. -/
def plain? (s : Scanner) (p : Placed) (ps : List Placed) : Option Scanner := do
  let (text, broken, rest) ← plain s.inFlow s.least [p.char] .none ps
  return (← s.note? p).emit broken rest (.scalar .plain (String.ofList text))

def block? (s : Scanner) (ps : List Placed) (style : Style) : Option Scanner := do
  if s.inFlow then none
  else
    let s ← s.forget?
    let (text, rest) ← block (style == .folded) s.least ps
    return s.emit true rest (.scalar style (String.ofList text))

def topLine? (s : Scanner) (read : Option (Token × List Placed)) : Option Scanner := do
  let (t, rest) ← read
  let s ← s.closeAll.forget?
  return s.emit false rest t

def step? (s : Scanner) (p : Placed) (ps : List Placed) : Option Scanner :=
  if p.column = 0 ∧ p.char = '%' then s.topLine? (Token.directive? ps)
  else if atMarker (p :: ps) then
    s.topLine? (some (if p.char = '-' then .documentStart else .documentEnd, ps.drop 2))
  else match p.char with
    | '[' => s.openFlow? p ps .flowSequence
    | '\x7b' => s.openFlow? p ps .flowMapping
    | ']' => s.closeFlow? ps .flowSequenceEnd
    | '\x7d' => s.closeFlow? ps .flowMappingEnd
    | ',' => s.forget?.map fun s => s.emit true ps .comma
    | '-' => if atSpace ps then s.indicator? p ps .blockSequence .dash else s.plain? p ps
    | '?' =>
        if s.inFlow ∨ atSpace ps then s.indicator? p ps .blockMapping .key else s.plain? p ps
    | ':' => if s.inFlow ∨ atSpace ps then s.colon? p ps else s.plain? p ps
    | '*' => s.part? p ((Token.name? ps).map fun (name, rest) => (.aliasOf name, rest))
    | '&' => s.part? p ((Token.name? ps).map fun (name, rest) => (.anchor name, rest))
    | '!' => s.part? p (Token.tag? s.inFlow ps)
    | '|' => s.block? ps .literal
    | '>' => s.block? ps .folded
    | '\x27' => s.quoted? p (singleQuoted [] .none ps)
    | '"' => s.quoted? p (doubleQuoted .between [] .none ps)
    | '\t' | '%' | '@' | '\x60' => none
    | _ => s.plain? p ps

/-- Cuts the rest of a text. Each token takes at least one character. -/
def tokens? : Nat → Scanner → Option (List Token)
  | 0, _ => none
  | fuel + 1, s =>
      match separation s.inFlow s.fresh false s.rest with
      | (_, []) => s.closeAll.forget?.map fun s => s.tokens.reverse
      | (fresh, p :: ps) =>
          (({ s with fresh }.closeBehind p.column).step? p ps).bind (tokens? fuel)

end Scanner

def tokens? (text : String) : Option (List Token) :=
  if text.toList.all isPrintable then
    let ps := place text.toList
    Scanner.tokens? (ps.length + 1) (.start ps)
  else none

end Terminology.Yaml
