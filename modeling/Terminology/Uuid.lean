import Terminology.Sha1
import Terminology.Text.Character
import Terminology.Text.Decimal

/-!
Universally unique identifiers: their text forms and the ones derived from a name.
-/

namespace Terminology

structure Uuid where
  value : BitVec 128
  deriving DecidableEq

namespace Uuid

open Text

def groups : List Nat := [8, 4, 4, 4, 12]

/-- `digits` cut into groups of the given sizes with hyphens between them. -/
def hyphenate : List Nat → List Char → List Char
  | [], digits => digits
  | [size], digits => digits.take size
  | size :: sizes, digits => digits.take size ++ '-' :: hyphenate sizes (digits.drop size)

/-- The digits of a text in groups of the given sizes, if its hyphens stand between them. -/
def unhyphenate? : List Nat → List Char → Option (List Char)
  | [], cs => if cs.isEmpty then some [] else none
  | [size], cs => if cs.length = size then some cs else none
  | size :: sizes, cs =>
      match cs.drop size with
      | '-' :: rest => (unhyphenate? sizes rest).map (cs.take size ++ ·)
      | _ => none

def text (id : Uuid) : String := String.ofList (hyphenate groups (hexPadded 32 id.value.toNat))

def ofHex? (cs : List Char) : Option Uuid :=
  if cs.length = 32 then (cs.mapM digitValue?).map fun digits =>
    ⟨BitVec.ofNat 128 (digits.foldl (fun value d => value * 16 + d) 0)⟩
  else none

def ofHyphenated? (cs : List Char) : Option Uuid :=
  (unhyphenate? groups cs).bind ofHex?

/-- Reads the plain form, the hyphenated one, and the latter in braces or behind `urn:uuid:`.
The forms differ in length, so at most one applies. -/
def read? (s : String) : Option Uuid :=
  let cs := s.toList
  if cs.length = 32 then ofHex? cs
  else if cs.length = 36 then ofHyphenated? cs
  else if cs.length = 38 then
    if cs.head? = some '\x7b' ∧ cs.getLast? = some '\x7d' then
      ofHyphenated? ((cs.drop 1).take 36)
    else none
  else if cs.length = 45 then
    if (cs.take 9).map lowerCase = "urn:uuid:".toList then ofHyphenated? (cs.drop 9) else none
  else none

def bytes (id : Uuid) : List UInt8 := Sha1.bigEndian 16 id.value.toNat

/-- The identifier of `name` within `space`: the digest of both, cut to 128 bits, with the
version set to five and the variant to binary ten. -/
def ofName (space : Uuid) (name : List UInt8) : Uuid :=
  let digest := (Sha1.digest (space.bytes ++ name)).take 16
  let bits := BitVec.ofNat 128 (digest.foldl (fun value b => value * 256 + b.toNat) 0)
  let cleared := bits &&& ~~~(0xF#128 <<< 76 ||| 0x3#128 <<< 62)
  ⟨cleared ||| 5#128 <<< 76 ||| 2#128 <<< 62⟩

end Uuid

end Terminology
