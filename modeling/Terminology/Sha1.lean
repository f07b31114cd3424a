/-!
The SHA-1 digest of a list of bytes, by structural recursion so that digests of short names can
be evaluated inside proofs.
-/

namespace Terminology.Sha1

structure Chain where
  a : UInt32
  b : UInt32
  c : UInt32
  d : UInt32
  e : UInt32
  deriving DecidableEq

def Chain.initial : Chain :=
  ⟨0x67452301, 0xEFCDAB89, 0x98BADCFE, 0x10325476, 0xC3D2E1F0⟩

def Chain.add (x y : Chain) : Chain :=
  ⟨x.a + y.a, x.b + y.b, x.c + y.c, x.d + y.d, x.e + y.e⟩

/-- Rotation by `n` bits to the left, `n` below 32. -/
def rotate (n x : UInt32) : UInt32 := (x <<< n) ||| (x >>> (32 - n))

/-- The mixing function of round `t`, which changes every twenty rounds. -/
def mix (t : Nat) (b c d : UInt32) : UInt32 :=
  if t < 20 then (b &&& c) ||| (~~~b &&& d)
  else if t < 40 then b ^^^ c ^^^ d
  else if t < 60 then (b &&& c) ||| (b &&& d) ||| (c &&& d)
  else b ^^^ c ^^^ d

def roundConstant (t : Nat) : UInt32 :=
  if t < 20 then 0x5A827999 else if t < 40 then 0x6ED9EBA1
  else if t < 60 then 0x8F1BBCDC else 0xCA62C1D6

def round (x : Chain) (t : Nat) (word : UInt32) : Chain :=
  ⟨rotate 5 x.a + mix t x.b x.c x.d + x.e + roundConstant t + word,
    x.a, rotate 30 x.b, x.c, x.d⟩

/-- Adds `n` words to a schedule that lists its latest word first. -/
def extend : Nat → List UInt32 → List UInt32
  | 0, words => words
  | n + 1, words =>
      let next := rotate 1
        (words.getD 2 0 ^^^ words.getD 7 0 ^^^ words.getD 13 0 ^^^ words.getD 15 0)
      extend n (next :: words)

def rounds : Nat → Chain → List UInt32 → Chain
  | _, x, [] => x
  | t, x, word :: words => rounds (t + 1) (round x t word) words

def compress (x : Chain) (block : List UInt32) : Chain :=
  x.add (rounds 0 x (extend 64 block.reverse).reverse)

/-- Big-endian words of a byte list; up to three bytes at its end are left out. -/
def words : List UInt8 → List UInt32
  | a :: b :: c :: d :: bytes =>
      (a.toUInt32 <<< 24 ||| b.toUInt32 <<< 16 ||| c.toUInt32 <<< 8 ||| d.toUInt32) :: words bytes
  | _ => []

/-- The `width` low bytes of `n`, most significant first. -/
def bigEndian : Nat → Nat → List UInt8
  | 0, _ => []
  | width + 1, n => bigEndian width (n / 256) ++ [UInt8.ofNat (n % 256)]

/-- The message, a one bit, zeros up to eight bytes below a multiple of 64, its bit length. -/
def pad (message : List UInt8) : List UInt8 :=
  message ++ 0x80 :: List.replicate ((119 - message.length % 64) % 64) 0 ++
    bigEndian 8 (message.length * 8)

def compressAll : Nat → Chain → List UInt32 → Chain
  | 0, x, _ => x
  | blocks + 1, x, ws => compressAll blocks (compress x (ws.take 16)) (ws.drop 16)

def digest (message : List UInt8) : List UInt8 :=
  let ws := words (pad message)
  let x := compressAll (ws.length / 16) .initial ws
  [x.a, x.b, x.c, x.d, x.e].flatMap fun word => bigEndian 4 word.toNat

end Terminology.Sha1
