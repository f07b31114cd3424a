import Terminology.Yaml.Token

/-!
The nodes that tokens make up. Nodes with anchors are numbered, so that an alias may also stand for
a node around it. Tags are kept with scalars, the only nodes that they matter for here.
-/

namespace Terminology

/-- A node. A tag that is no text counts as none. -/
inductive Yaml where
  | scalar (style : Yaml.Style) (tag : Option String) (text : String)
  | sequence (items : List Yaml)
  | mapping (entries : List (Yaml × Yaml))
  | aliasOf (number : Nat)

namespace Yaml

def absent : Yaml := scalar .plain none ""

/-- A node and the nodes that aliases in it stand for, by number. Of several with one number the
first counts. -/
structure Document where
  root : Yaml
  anchored : List (Nat × Yaml)

/-- The node that an alias stands for; other nodes are themselves. -/
def Document.resolve (d : Document) : Yaml → Yaml
  | aliasOf number => (d.anchored.lookup number).getD absent
  | y => y

structure Properties where
  anchor : Option String
  tag : Option String
  present : Bool

/-- The tokens ahead, the numbers that the names of anchors have, how many names there are, the
nodes with anchors, and what the handles of tags stand for; the latest names and nodes first. -/
structure Outline where
  tokens : List Token
  numbers : List (String × Nat)
  names : Nat
  anchored : List (Nat × Yaml)
  handles : List (String × List UInt8)

namespace Outline

def drop (o : Outline) : Outline := { o with tokens := o.tokens.drop 1 }

/-- Numbers a node that starts here by the names so far. A name that is used again is no new one,
so the next node may get the same number. -/
def anchor (o : Outline) (name : String) : Outline :=
  { o with
    numbers := (name, o.names) :: o.numbers
    names := if (o.numbers.lookup name).isSome then o.names else o.names + 1
    anchored := (o.names, absent) :: o.anchored }

/-- Fills in the node with an anchor that `earlier` others started before. -/
def define (o : Outline) (earlier number : Nat) (node : Yaml) : Outline :=
  { o with anchored := o.anchored.set (o.anchored.length - 1 - earlier) (number, node) }

/-- The text of the tag that a handle and what follows it amount to; no handle may be unknown. -/
def tag? (o : Outline) (handle : String) (rest : List UInt8) : Option (Option String) :=
  let leading := if handle.isEmpty then some [] else o.handles.lookup handle
  leading.map fun bytes => String.fromUTF8? ⟨(bytes ++ rest).toArray⟩

def properties? (o : Outline) : Option (Properties × Outline) :=
  match o.tokens with
  | .anchor name :: .tag handle rest :: ts | .tag handle rest :: .anchor name :: ts =>
      (o.tag? handle rest).map fun tag => (⟨some name, tag, true⟩, { o with tokens := ts })
  | .anchor name :: ts => some (⟨some name, none, true⟩, { o with tokens := ts })
  | .tag handle rest :: ts =>
      (o.tag? handle rest).map fun tag => (⟨none, tag, true⟩, { o with tokens := ts })
  | _ => some (⟨none, none, false⟩, o)

def ahead (o : Outline) (ts : List Token) : Bool := o.tokens.head?.any ts.contains

end Outline

mutual

/-- A node. `level` says that a sequence may stand in the column of the mapping around it. -/
def node : Nat → (level : Bool) → Outline → Option (Yaml × Outline)
  | 0, _, _ => none
  | fuel + 1, level, o =>
      match o.tokens with
      | .aliasOf name :: _ => (o.numbers.lookup name).map fun number => (aliasOf number, o.drop)
      | _ => do
          let (properties, o) ← o.properties?
          match properties.anchor with
          | none => content fuel level properties o
          | some name => do
              let (node, rest) ← content fuel level properties (o.anchor name)
              return (node, rest.define o.anchored.length o.names node)

/-- What follows the properties of a node; behind some it may be left out. -/
def content : Nat → (level : Bool) → Properties → Outline → Option (Yaml × Outline)
  | 0, _, _, _ => none
  | fuel + 1, level, properties, o =>
      match o.tokens with
      | .scalar style text :: _ => some (scalar style properties.tag text, o.drop)
      | .flowSequence :: _ => flowItems fuel [] o.drop
      | .flowMapping :: _ => flowEntries fuel [] o.drop
      | .blockSequence :: _ => blockItems fuel [] o.drop
      | .blockMapping :: _ => blockEntries fuel [] o.drop
      | _ =>
          if level ∧ o.ahead [.dash] then levelItems fuel [] o
          else if properties.present then some (scalar .plain properties.tag "", o)
          else none

def nodeBefore : Nat → (level : Bool) → List Token → Outline → Option (Yaml × Outline)
  | 0, _, _, _ => none
  | fuel + 1, level, ends, o => if o.ahead ends then some (absent, o) else node fuel level o

def valueBefore : Nat → (level : Bool) → List Token → Outline → Option (Yaml × Outline)
  | 0, _, _, _ => none
  | fuel + 1, level, ends, o =>
      if o.ahead [.value] then nodeBefore fuel level ends o.drop else some (absent, o)

/-- The items of a block sequence; `read` holds them, the latest first. -/
def blockItems : Nat → List Yaml → Outline → Option (Yaml × Outline)
  | 0, _, _ => none
  | fuel + 1, read, o =>
      if o.ahead [.blockEnd] then some (sequence read.reverse, o.drop)
      else if o.ahead [.dash] then do
        let (item, o) ← nodeBefore fuel false [.dash, .blockEnd] o.drop
        blockItems fuel (item :: read) o
      else none

/-- The items of a block sequence in the column of the mapping around it, which nothing ends. -/
def levelItems : Nat → List Yaml → Outline → Option (Yaml × Outline)
  | 0, _, _ => none
  | fuel + 1, read, o =>
      if o.ahead [.dash] then do
        let (item, o) ← nodeBefore fuel false [.dash, .key, .value, .blockEnd] o.drop
        levelItems fuel (item :: read) o
      else some (sequence read.reverse, o)

/-- The entries of a block mapping; `read` holds them, the latest first. -/
def blockEntries : Nat → List (Yaml × Yaml) → Outline → Option (Yaml × Outline)
  | 0, _, _ => none
  | fuel + 1, read, o =>
      if o.ahead [.blockEnd] then some (mapping read.reverse, o.drop)
      else if o.ahead [.key] then do
        let (key, o) ← nodeBefore fuel true [.key, .value, .blockEnd] o.drop
        let (value, o) ← valueBefore fuel true [.key, .value, .blockEnd] o
        blockEntries fuel ((key, value) :: read) o
      else none

/-- The items of a flow sequence up to its bracket; `read` holds them, the latest first. An item
may be a pair. -/
def flowItems : Nat → List Yaml → Outline → Option (Yaml × Outline)
  | 0, _, _ => none
  | fuel + 1, read, o =>
      if o.ahead [.flowSequenceEnd] then some (sequence read.reverse, o.drop)
      else do
        let (item, o) ←
          if o.ahead [.key] then do
            let (key, o) ←
              if o.drop.ahead [.value, .comma, .flowSequenceEnd] then some (absent, o.drop.drop)
              else node fuel false o.drop
            let (value, o) ← valueBefore fuel false [.comma, .flowSequenceEnd] o
            some (mapping [(key, value)], o)
          else node fuel false o
        if o.ahead [.comma] then flowItems fuel (item :: read) o.drop
        else if o.ahead [.flowSequenceEnd] then some (sequence (item :: read).reverse, o.drop)
        else none

/-- The entries of a flow mapping up to its brace; `read` holds them, the latest first. An entry
may be a key alone. -/
def flowEntries : Nat → List (Yaml × Yaml) → Outline → Option (Yaml × Outline)
  | 0, _, _ => none
  | fuel + 1, read, o =>
      if o.ahead [.flowMappingEnd] then some (mapping read.reverse, o.drop)
      else do
        let (entry, o) ←
          if o.ahead [.key] then do
            let (key, o) ← nodeBefore fuel false [.value, .comma, .flowMappingEnd] o.drop
            let (value, o) ← valueBefore fuel false [.comma, .flowMappingEnd] o
            some ((key, value), o)
          else do
            let (key, o) ← node fuel false o
            some ((key, absent), o)
        if o.ahead [.comma] then flowEntries fuel (entry :: read) o.drop
        else if o.ahead [.flowMappingEnd] then some (mapping (entry :: read).reverse, o.drop)
        else none

end

/-- The handles that directives declare, each at most once, and what follows the directives. There
may be one version, which is 1.1 or 1.2. -/
def directives? (versioned : Bool) (declared : List (String × List UInt8)) :
    List Token → Option (List (String × List UInt8) × List Token)
  | .version major minor :: ts =>
      if versioned ∨ major ≠ 1 ∨ (minor ≠ 1 ∧ minor ≠ 2) then none
      else directives? true declared ts
  | .tagHandle handle leading :: ts =>
      if (declared.lookup handle).isSome then none
      else directives? versioned ((handle, leading) :: declared) ts
  | ts => some (declared, ts)

def commonHandles : List (String × List UInt8) :=
  [("!", [33]), ("!!", "tag:yaml.org,2002:".toUTF8.toList)]

def read? (text : String) : Option Document := do
  let ts ← tokens? text
  let (declared, behind) ← directives? false [] ts
  let fuel := 4 * ts.length + 8
  let o : Outline := ⟨behind, [], 0, [], declared ++ commonHandles⟩
  let (root, o) ←
    if ts.isEmpty then some (absent, o)
    else if o.ahead [.documentStart] then
      if o.drop.tokens.isEmpty ∨ o.drop.ahead [.documentStart, .documentEnd] then
        some (absent, o.drop)
      else node fuel false o.drop
    else if ts.length = behind.length then node fuel false o
    else none
  if (o.tokens.dropWhile (· == .documentEnd)).isEmpty then some ⟨root, o.anchored⟩ else none

end Yaml

end Terminology
