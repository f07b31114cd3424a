import Terminology.Document.Tag
import Terminology.Proofs.Markup.Reference
import Terminology.Proofs.Markup.Scan

/-!
Written tags read back: a tag is cut as one token, and the inside of that token has the name and
the attributes that the tag was written with, whatever characters the values hold.
-/

namespace Terminology

open Markup Text

/-- The characters of names: none that ends a name, a key or a tag, or that says what kind of
markup begins. -/
def Markup.isNameChar (c : Char) : Bool :=
  !isMarkupSpace c && !isSpecial c && c != '=' && c != '/' && c != '!' && c != '?'

def Markup.IsName (name : List Char) : Prop := name ≠ [] ∧ ∀ c ∈ name, isNameChar c = true

instance (name : List Char) : Decidable (Markup.IsName name) :=
  decidable_of_iff (name ≠ [] ∧ name.all isNameChar = true) (by rw [List.all_eq_true, IsName])

/-- Attributes that a tag can carry: their keys are names, and no key is there twice. -/
structure Markup.Named (attributes : List Attribute) : Prop where
  keys : ∀ a ∈ attributes, IsName a.key.toList
  distinct : attributes.Pairwise fun a b => a.key ≠ b.key

namespace Markup

theorem isKeyChar_of_isNameChar {c : Char} (h : isNameChar c = true) : isKeyChar c = true := by
  simp only [isNameChar, Bool.and_eq_true] at h
  simp only [isKeyChar, Bool.and_eq_true]
  exact ⟨h.1.1.1.2, h.1.1.1.1.1⟩

theorem not_isMarkupSpace_of_isNameChar {c : Char} (h : isNameChar c = true) :
    isMarkupSpace c = false := by
  simp only [isNameChar, Bool.and_eq_true, Bool.not_eq_true'] at h
  exact h.1.1.1.1.1

theorem not_quote_of_isNameChar {c : Char} (h : isNameChar c = true) :
    c ≠ '>' ∧ c ≠ '"' ∧ c ≠ '\x27' := by
  refine ⟨?_, ?_, ?_⟩
  all_goals
    intro same
    subst same
    revert h
    decide

theorem not_mark_of_isNameChar {c : Char} (h : isNameChar c = true) :
    c ≠ '!' ∧ c ≠ '/' ∧ c ≠ '?' := by
  refine ⟨?_, ?_, ?_⟩
  all_goals
    intro same
    subst same
    revert h
    decide

theorem readKey_name (size : Nat) (c : Char) {cs : List Char} (rest : List Char)
    (name : ∀ d ∈ cs, isNameChar d = true) :
    readKey size c (cs ++ '=' :: rest) = .ok (c :: cs, rest) := by
  have chars : ∀ d ∈ cs, isKeyChar d = true := fun d member =>
    isKeyChar_of_isNameChar (name d member)
  have stop : isKeyChar '=' = false := rfl
  have bare : isMarkupSpace '=' = false := rfl
  have taken := takeWhile_run chars stop rest
  have left : ((cs ++ '=' :: rest).dropWhile isKeyChar).dropWhile isMarkupSpace = '=' :: rest := by
    rw [dropWhile_run chars stop rest, List.dropWhile_cons, bare]
    rfl
  simp only [readKey, left, taken]

theorem readValue_quoted (size : Nat) {raw : List Char} (rest : List Char)
    (inside : ∀ c ∈ raw, c ≠ '"') :
    readValue size ('"' :: raw ++ '"' :: rest) = .ok (raw, rest) := by
  have chars : ∀ c ∈ raw, (c != '"') = true := fun c member =>
    bne_iff_ne.mpr (inside c member)
  have bare : isMarkupSpace '"' = false := rfl
  have start : ('"' :: raw ++ '"' :: rest).dropWhile isMarkupSpace =
      '"' :: (raw ++ '"' :: rest) := by
    rw [List.cons_append, List.dropWhile_cons, bare]
    simp
  have stop : ('"' != '"') = false := rfl
  have left := dropWhile_run chars stop rest
  have taken := takeWhile_run chars stop rest
  simp only [readValue, start, true_or, if_true, left, taken]

theorem attributesFrom_blank (size : Nat) (read : List (List Char × Attribute)) {cs : List Char}
    (blank : cs.dropWhile isMarkupSpace = []) :
    attributesFrom size read cs = .ok (read.reverse.map Prod.snd) := by
  rw [attributesFrom]
  split
  · rfl
  · rename_i start
    rw [blank] at start
    cases start

theorem attributesFrom_step {size : Nat} {read : List (List Char × Attribute)}
    {cs rest rest' chars raw after value : List Char} {c : Char}
    (start : cs.dropWhile isMarkupSpace = c :: rest)
    (key : readKey size c rest = .ok (chars, rest'))
    (fresh : ∀ earlier ∈ read, earlier.2.key ≠ String.ofList chars)
    (quoted : readValue size rest' = .ok (raw, after)) (plain : unescape raw = .ok value) :
    attributesFrom size read cs = attributesFrom size
      ((c :: rest, ⟨String.ofList chars, String.ofList value⟩) :: read) after := by
  have unused : (read.find? fun earlier => earlier.2.key == String.ofList chars) = none := by
    rw [List.find?_eq_none]
    intro earlier member
    simpa using fresh earlier member
  -- At each branch of the reader only the one that the facts above name is possible.
  rw [attributesFrom]
  split
  · rename_i none_left
    rw [start] at none_left
    cases none_left
  · rename_i first others found
    rw [start] at found
    cases found
    split
    · rename_i failed
      rw [key] at failed
      cases failed
    · rename_i found
      rw [key] at found
      cases found
      simp only [unused]
      split
      · rename_i failed
        rw [quoted] at failed
        cases failed
      · rename_i found
        rw [quoted] at found
        cases found
        simp only [plain]

theorem not_quote_of_escape (cs : List Char) : ∀ c ∈ escape cs, c ≠ '"' := by
  intro c member
  rcases mem_escape member with rfl | plain
  · decide
  · intro same
    subst same
    cases plain

end Markup

namespace Tag

theorem attributesFrom_attributeText {size : Nat} {read : List (List Char × Attribute)}
    {attributes : List Attribute} (named : Named attributes)
    (fresh : ∀ earlier ∈ read, ∀ a ∈ attributes, earlier.2.key ≠ a.key) :
    attributesFrom size read (attributes.flatMap attributeText) =
      .ok (read.reverse.map Prod.snd ++ attributes) := by
  induction attributes generalizing read with
  | nil => simpa using attributesFrom_blank size read List.dropWhile_nil
  | cons a others ih =>
      obtain ⟨keys, distinct⟩ := named
      obtain ⟨apart, distinct⟩ := List.pairwise_cons.mp distinct
      obtain ⟨some_char, chars⟩ := keys a List.mem_cons_self
      obtain ⟨first, name, spelled⟩ := List.exists_cons_of_ne_nil some_char
      rw [spelled] at chars
      have bare : isMarkupSpace first = false :=
        not_isMarkupSpace_of_isNameChar (chars first List.mem_cons_self)
      have start : ((a :: others).flatMap attributeText).dropWhile isMarkupSpace =
          first :: (name ++ '=' :: ('"' :: escape a.value.toList ++
            '"' :: others.flatMap attributeText)) := by
        simp [attributeText, spelled, bare,
          show isMarkupSpace ' ' = true from rfl]
      have key := readKey_name size first
        ('"' :: escape a.value.toList ++ '"' :: others.flatMap attributeText)
        fun d member => chars d (List.mem_cons_of_mem first member)
      have quoted := readValue_quoted size (others.flatMap attributeText)
        (not_quote_of_escape a.value.toList)
      have whole : String.ofList (first :: name) = a.key := by
        rw [← spelled, String.ofList_toList]
      rw [attributesFrom_step start key _ quoted (unescape_escape _)]
      · rw [ih ⟨fun b member => keys b (List.mem_cons_of_mem a member), distinct⟩]
        · simp [whole]
        · intro earlier member b later
          rcases List.mem_cons.mp member with rfl | member
          · rw [whole]
            exact apart b later
          · exact fresh earlier member b (List.mem_cons_of_mem a later)
      · intro earlier member
        rw [whole]
        exact fresh earlier member a List.mem_cons_self

/-- What stands between the delimiters of a tag with attributes. -/
def inside (name : String) (attributes : List Attribute) : List Char :=
  name.toList ++ attributes.flatMap attributeText

theorem attributes_start (attributes : List Attribute) :
    attributes.flatMap attributeText = [] ∨
      ∃ rest, attributes.flatMap attributeText = ' ' :: rest := by
  cases attributes with
  | nil => exact .inl rfl
  | cons a others => exact .inr ⟨_, rfl⟩

theorem takeWhile_name {name : String} {attributes : List Attribute}
    (valid : IsName name.toList) :
    (inside name attributes).takeWhile (!isMarkupSpace ·) = name.toList ∧
      (inside name attributes).dropWhile (!isMarkupSpace ·) = attributes.flatMap attributeText := by
  have chars : ∀ c ∈ name.toList, (!isMarkupSpace c) = true := by
    intro c member
    rw [not_isMarkupSpace_of_isNameChar (valid.2 c member)]
    rfl
  have space : (!isMarkupSpace ' ') = false := rfl
  rw [inside, List.takeWhile_append_of_pos chars, List.dropWhile_append_of_pos chars]
  rcases attributes_start attributes with none_left | ⟨rest, start⟩
  · simp [none_left]
  · simp [start, space]

theorem tagName_inside {name : String} {attributes : List Attribute}
    (valid : IsName name.toList) : tagName (inside name attributes) = name.toList :=
  (takeWhile_name valid).1

theorem tagAttributes_inside {name : String} {attributes : List Attribute}
    (valid : IsName name.toList) (named : Named attributes) :
    tagAttributes (inside name attributes) = .ok attributes := by
  rw [tagAttributes, (takeWhile_name valid).2, attributesFrom_attributeText named]
  · rfl
  · intro earlier member
    cases member

theorem outsideQuotes_attributeText {a : Attribute} (name : IsName a.key.toList) :
    (attributeText a).foldlM Token.outsideQuotes none = some none := by
  have key : (' ' :: a.key.toList ++ ['=']).foldlM Token.outsideQuotes none = some none := by
    apply Token.outsideQuotes_plain
    intro c member
    simp only [List.cons_append, List.mem_cons, List.mem_append, List.not_mem_nil,
      or_false] at member
    rcases member with rfl | member | rfl
    · decide
    · exact not_quote_of_isNameChar (name.2 c member)
    · decide
  have value : (escape a.value.toList).foldlM Token.outsideQuotes (some '"') = some (some '"') :=
    Token.outsideQuotes_quoted (not_quote_of_escape a.value.toList)
  have parts : attributeText a =
      (' ' :: a.key.toList ++ ['=']) ++ (['"'] ++ (escape a.value.toList ++ ['"'])) := by
    simp [attributeText]
  rw [parts, List.foldlM_append, key]
  have opened : ['"'].foldlM Token.outsideQuotes none = some (some '"') := rfl
  have closed : ['"'].foldlM Token.outsideQuotes (some '"') = some none := rfl
  simp only [Option.bind_eq_bind, Option.bind_some, List.foldlM_append, opened, value, closed]

theorem outsideQuotes_attributes {attributes : List Attribute}
    (keys : ∀ a ∈ attributes, IsName a.key.toList) :
    (attributes.flatMap attributeText).foldlM Token.outsideQuotes none = some none := by
  induction attributes with
  | nil => rfl
  | cons a others ih =>
      have rest := ih fun b member => keys b (List.mem_cons_of_mem a member)
      rw [List.flatMap_cons, List.foldlM_append,
        outsideQuotes_attributeText (keys a List.mem_cons_self)]
      exact rest

theorem outsideQuotes_inside {name : String} {attributes : List Attribute}
    (valid : IsName name.toList) (named : Named attributes) :
    (inside name attributes).foldlM Token.outsideQuotes none = some none := by
  have plain := Token.outsideQuotes_plain fun c member =>
    not_quote_of_isNameChar (valid.2 c member)
  rw [inside, List.foldlM_append, plain]
  exact outsideQuotes_attributes named.keys

theorem getLast_attributes {attributes : List Attribute} (some_attribute : attributes ≠ []) :
    (attributes.flatMap attributeText).getLast? = some '"' := by
  obtain ⟨before, last, rfl⟩ := (List.eq_nil_or_concat attributes).resolve_left some_attribute
  rw [List.concat_eq_append, List.flatMap_append, List.flatMap_singleton, attributeText,
    ← List.append_assoc, List.getLast?_concat]

/-- No slash ends the inside of a tag, so a slash behind it is the mark of an empty element. -/
theorem getLast_inside {name : String} {attributes : List Attribute}
    (valid : IsName name.toList) : (inside name attributes).getLast? ≠ some '/' := by
  by_cases some_attribute : attributes = []
  · intro slash
    rw [some_attribute, inside, List.flatMap_nil, List.append_nil] at slash
    exact (not_mark_of_isNameChar (valid.2 '/' (List.mem_of_getLast? slash))).2.1 rfl
  · rw [inside, List.getLast?_append, getLast_attributes some_attribute]
    simp

def token : Tag → Token
  | opening name attributes => .opening (inside name attributes)
  | empty name attributes => .empty (inside name attributes)
  | closing name => .closing name.toList

def Named : Tag → Prop
  | opening name attributes | empty name attributes =>
      IsName name.toList ∧ Markup.Named attributes
  | closing name => IsName name.toList

theorem readMarkup_name {name cs : List Char} (valid : IsName name) :
    Token.readMarkup (name ++ cs) = Token.readTag Token.ofTag (name ++ cs) := by
  obtain ⟨some_char, chars⟩ := valid
  obtain ⟨first, others, rfl⟩ := List.exists_cons_of_ne_nil some_char
  obtain ⟨bang, slash, question⟩ := not_mark_of_isNameChar (chars first List.mem_cons_self)
  rw [List.cons_append, Token.readMarkup.eq_def]
  split
  · rename_i shape
    cases shape
  · rename_i shape
    exact absurd (List.cons.inj shape).1 bang
  · rename_i shape
    exact absurd (List.cons.inj shape).1 slash
  · rename_i shape
    exact absurd (List.cons.inj shape).1 question
  · rfl

theorem ofText_text (tag : Tag) (named : tag.Named) (rest : List Char) :
    Scan.ofText (tag.text ++ rest) = (Scan.ofText rest).prepend tag.token := by
  cases tag with
  | opening name attributes =>
      have shape : (opening name attributes).text ++ rest =
          '<' :: (name.toList ++ (attributes.flatMap attributeText ++ '>' :: rest)) := by
        simp [text]
      have whole : name.toList ++ (attributes.flatMap attributeText ++ '>' :: rest) =
          inside name attributes ++ '>' :: rest := by
        simp [inside]
      rw [shape]
      apply Scan.ofText_token
      rw [readMarkup_name named.1, whole,
        Token.readTag_content (outsideQuotes_inside named.1 named.2), Token.ofTag,
        if_neg (getLast_inside named.1), token]
  | empty name attributes =>
      have shape : (empty name attributes).text ++ rest =
          '<' :: (name.toList ++ (attributes.flatMap attributeText ++ '/' :: '>' :: rest)) := by
        simp [text]
      have whole : name.toList ++ (attributes.flatMap attributeText ++ '/' :: '>' :: rest) =
          (inside name attributes ++ ['/']) ++ '>' :: rest := by
        simp [inside]
      have through : (inside name attributes ++ ['/']).foldlM Token.outsideQuotes none =
          some none := by
        rw [List.foldlM_append, outsideQuotes_inside named.1 named.2]
        rfl
      have slash : (inside name attributes ++ ['/']).getLast? = some '/' := by simp
      rw [shape]
      apply Scan.ofText_token
      rw [readMarkup_name named.1, whole, Token.readTag_content through, Token.ofTag,
        if_pos slash, List.dropLast_concat, token]
  | closing name =>
      have shape : (closing name).text ++ rest = '<' :: '/' :: (name.toList ++ '>' :: rest) := by
        simp [text]
      have plain := Token.outsideQuotes_plain fun c member =>
        not_quote_of_isNameChar (named.2 c member)
      rw [shape]
      apply Scan.ofText_token
      rw [Token.readMarkup, Token.readTag_content plain, token]

end Tag

end Terminology
