/-!
Classes of characters. White space has two senses: the four characters that separate markup, and
the Unicode property White_Space that decides whether a text is blank. Lengths of text are
counted in UTF-8 bytes.
-/

namespace Terminology.Text

def byteLength (cs : List Char) : Nat := cs.foldr (fun c n => c.utf8Size + n) 0

/-- White space between the parts of markup: space, tab, line feed and carriage return. -/
def isMarkupSpace (c : Char) : Bool :=
  c == ' ' || c == '\t' || c == '\n' || c == '\r'

/-- The characters with the Unicode property White_Space. -/
def isSpace (c : Char) : Bool :=
  let n := c.toNat
  (9 ≤ n && n ≤ 13) || n == 0x20 || n == 0x85 || n == 0xA0 || n == 0x1680 ||
    (0x2000 ≤ n && n ≤ 0x200A) || n == 0x2028 || n == 0x2029 || n == 0x202F || n == 0x205F ||
    n == 0x3000

def lowerCase (c : Char) : Char :=
  if 65 ≤ c.toNat ∧ c.toNat ≤ 90 then Char.ofNat (c.toNat + 32) else c

def isBlank (cs : List Char) : Bool := cs.all isSpace

def trimEnd (cs : List Char) : List Char := (cs.reverse.dropWhile isMarkupSpace).reverse

def trim (cs : List Char) : List Char := trimEnd (cs.dropWhile isMarkupSpace)

theorem byteLength_append (a b : List Char) :
    byteLength (a ++ b) = byteLength a + byteLength b := by
  induction a with
  | nil => simp [byteLength]
  | cons c cs ih =>
      simp only [byteLength, List.cons_append, List.foldr_cons] at ih ⊢
      rw [ih]
      exact (Nat.add_assoc _ _ _).symm

end Terminology.Text
