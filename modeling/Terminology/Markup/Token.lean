import Terminology.Text.Character

/-!
The pieces that a marked-up text consists of. A text is cut into tokens from left to right; where
no token can be cut the scan ends with a fault. Nothing is interpreted here: references stay as
they are written and tags are not matched.
-/

namespace Terminology.Markup

open Text

/-- A piece of markup. A tag, a comment or an instruction holds what stands between its
delimiters. -/
inductive Token where
  | text (raw : List Char)
  | opening (content : List Char)
  | empty (content : List Char)
  | closing (content : List Char)
  | comment (content : List Char)
  | verbatim (content : List Char)
  | declaration (content : List Char)
  | instruction (content : List Char)
  | doctype (word content : List Char)
  deriving DecidableEq

inductive Fault where
  | unknownMarkup
  | unclosedInstruction
  | unclosedComment
  | unclosedDoctype
  | unclosedVerbatim
  | unclosedTag
  | namelessDoctype (shift : Nat)
  deriving DecidableEq

namespace Fault

def message : Fault → String
  | unknownMarkup => "syntax error: unknown or missed symbol in markup"
  | unclosedInstruction =>
      "syntax error: processing instruction or xml declaration not closed: `?>` not found " ++
        "before end of input"
  | unclosedComment =>
      "syntax error: comment not closed: `-->` not found before end of input"
  | unclosedDoctype =>
      "syntax error: DOCTYPE not closed: `>` not found before end of input"
  | unclosedVerbatim =>
      "syntax error: CDATA not closed: `]]>` not found before end of input"
  | unclosedTag =>
      "syntax error: tag not closed: `>` not found before end of input"
  | namelessDoctype _ =>
      "ill-formed document: `<!DOCTYPE>` declaration does not contain a name of a document type"

/-- Bytes from the start of the faulty markup to the place that is reported. -/
def shift : Fault → Nat
  | namelessDoctype n => n
  | _ => 0

end Fault

namespace Token

def source : Token → List Char
  | text raw => raw
  | opening content => '<' :: content ++ ['>']
  | empty content => '<' :: content ++ ['/', '>']
  | closing content => '<' :: '/' :: content ++ ['>']
  | comment content => "<!--".toList ++ content ++ "-->".toList
  | verbatim content => "<![CDATA[".toList ++ content ++ "]]>".toList
  | declaration content | instruction content => '<' :: '?' :: content ++ ['?', '>']
  | doctype word content => '<' :: '!' :: word ++ content ++ ['>']

/-- Reads on until `step` stops: what was read before the character it stops at, and what follows
that character. `read` holds what was read so far, its last character first. -/
def cut {σ : Type} (step : σ → Char → Option σ) :
    σ → List Char → List Char → Option (List Char × List Char)
  | _, _, [] => none
  | state, read, c :: cs =>
      match step state c with
      | none => some (read.reverse, cs)
      | some state => cut step state (c :: read) cs

/-- Stops at a `>` outside quotes; the state is the quote that is open. -/
def outsideQuotes : Option Char → Char → Option (Option Char)
  | some quote, c => some (if c = quote then none else some quote)
  | none, c => if c = '>' then none else some (if c = '"' ∨ c = '\x27' then some c else none)

/-- Stops at a `>` behind at least `count` marks; the state is the number of marks just read. -/
def behindMarks (mark : Char) (count : Nat) (marks : Nat) (c : Char) : Option Nat :=
  if c = '>' ∧ count ≤ marks then none else some (if c = mark then marks + 1 else 0)

/-- Stops at a `>` that closes no `<`; the state is the number of open ones. -/
def balanced (level : Nat) (c : Char) : Option Nat :=
  if c = '>' then (if level = 0 then none else some (level - 1))
  else some (if c = '<' then level + 1 else level)

def readTag (make : List Char → Token) (cs : List Char) : Except Fault (Token × List Char) :=
  match cut outsideQuotes none [] cs with
  | some (content, rest) => .ok (make content, rest)
  | none => .error .unclosedTag

/-- The tag with the given inside: one without children if a slash ends it. -/
def ofTag (content : List Char) : Token :=
  if content.getLast? = some '/' then empty content.dropLast else opening content

def isDeclaration : List Char → Bool
  | 'x' :: 'm' :: 'l' :: rest => rest.head?.all isMarkupSpace
  | _ => false

/-- What follows `<?`, whose question mark may be the closing one too. -/
def readInstruction (cs : List Char) : Except Fault (Token × List Char) :=
  match cut (behindMarks '?' 1) 1 [] cs with
  | some (c :: read, rest) =>
      let content := (c :: read).dropLast
      .ok (if isDeclaration content then declaration content else instruction content, rest)
  | _ => .error .unclosedInstruction

def readBang (cs : List Char) : Except Fault (Token × List Char) :=
  match cs with
  | '[' :: _ =>
      if "[CDATA[".toList.isPrefixOf cs then
        match cut (behindMarks ']' 2) 0 [] (cs.drop 7) with
        | some (read, rest) => .ok (verbatim read.dropLast.dropLast, rest)
        | none => .error .unclosedVerbatim
      else .error .unclosedVerbatim
  | '-' :: _ =>
      if "--".toList.isPrefixOf cs then
        match cut (behindMarks '-' 2) 0 [] (cs.drop 2) with
        | some (read, rest) => .ok (comment read.dropLast.dropLast, rest)
        | none => .error .unclosedComment
      else .error .unclosedComment
  | c :: _ =>
      if c ≠ 'D' ∧ c ≠ 'd' then .error .unknownMarkup
      else if (cs.take 7).map lowerCase ≠ "doctype".toList then .error .unclosedDoctype
      else
        match cut balanced 0 [] (cs.drop 7) with
        | some (content, rest) =>
            if content.all isMarkupSpace then .error (.namelessDoctype (9 + content.length))
            else .ok (doctype (cs.take 7) content, rest)
        | none => .error .unclosedDoctype
  | [] => .error .unknownMarkup

def readMarkup (cs : List Char) : Except Fault (Token × List Char) :=
  match cs with
  | [] => .error .unclosedTag
  | '!' :: rest => readBang rest
  | '/' :: rest => readTag closing rest
  | '?' :: rest => readInstruction rest
  | _ => readTag ofTag cs

theorem length_of_cut {σ : Type} {step : σ → Char → Option σ} {state : σ}
    {read cs content rest : List Char} (h : cut step state read cs = some (content, rest)) :
    rest.length < cs.length := by
  induction cs generalizing state read with
  | nil => cases h
  | cons c cs ih =>
      unfold cut at h
      split at h
      · cases h
        simp
      · have shorter := ih h
        simp only [List.length_cons]
        omega

theorem length_of_readTag {make : List Char → Token} {cs rest : List Char} {t : Token}
    (h : readTag make cs = .ok (t, rest)) : rest.length < cs.length := by
  unfold readTag at h
  split at h
  · rename_i read
    cases h
    exact length_of_cut read
  · cases h

theorem length_of_readInstruction {cs rest : List Char} {t : Token}
    (h : readInstruction cs = .ok (t, rest)) : rest.length < cs.length := by
  unfold readInstruction at h
  split at h
  · rename_i read
    cases h
    exact length_of_cut read
  · cases h

theorem length_of_readBang {cs rest : List Char} {t : Token}
    (h : readBang cs = .ok (t, rest)) : rest.length < cs.length := by
  have behind (n : Nat) : (cs.drop n).length ≤ cs.length := by simp
  unfold readBang at h
  split at h
  · split at h
    · split at h
      · rename_i read
        cases h
        exact Nat.lt_of_lt_of_le (length_of_cut read) (behind 7)
      · cases h
    · cases h
  · split at h
    · split at h
      · rename_i read
        cases h
        exact Nat.lt_of_lt_of_le (length_of_cut read) (behind 2)
      · cases h
    · cases h
  · split at h
    · cases h
    · split at h
      · cases h
      · split at h
        · rename_i read
          split at h
          · cases h
          · cases h
            exact Nat.lt_of_lt_of_le (length_of_cut read) (behind 7)
        · cases h
  · cases h

theorem length_of_readMarkup {cs rest : List Char} {t : Token}
    (h : readMarkup cs = .ok (t, rest)) : rest.length < cs.length := by
  unfold readMarkup at h
  split at h
  · cases h
  · exact Nat.lt_succ_of_lt (length_of_readBang h)
  · exact Nat.lt_succ_of_lt (length_of_readTag h)
  · exact Nat.lt_succ_of_lt (length_of_readInstruction h)
  · exact length_of_readTag h

end Token

/-- The tokens of a text up to the first fault, and that fault if there is one. -/
structure Scan where
  tokens : List Token
  fault : Option Fault
  deriving DecidableEq

namespace Scan

/-- Cuts the rest of a text; `read` holds the tokens that were cut so far, the latest first. -/
def resume (read : List Token) (cs : List Char) : Scan :=
  match cs with
  | [] => ⟨read.reverse, none⟩
  | c :: rest =>
      if c = '<' then
        match _ : Token.readMarkup rest with
        | .ok (t, rest') => Scan.resume (t :: read) rest'
        | .error fault => ⟨read.reverse, some fault⟩
      else
        Scan.resume (.text (c :: rest.takeWhile (· != '<')) :: read) (rest.dropWhile (· != '<'))
termination_by cs.length
decreasing_by
  · exact Nat.lt_succ_of_lt (Token.length_of_readMarkup ‹_›)
  · exact Nat.lt_succ_of_le (List.dropWhile_suffix _).length_le

def ofText (cs : List Char) : Scan := Scan.resume [] cs

end Scan

end Terminology.Markup
