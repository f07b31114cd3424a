import Terminology.Proofs.Markup.Limits
import Terminology.Proofs.Document.Hardening
import Terminology.Proofs.Document.Layout
import Terminology.Proofs.Text.Range
import Terminology.Proofs.Text.Trim

/-!
Element trees written as text, with all the freedom there is about white space, comments, empty
tags and references, and reading them back.
-/

namespace Terminology.Markup

open Text

/-- The production `NameStartChar` of XML 1.0. -/
def nameStartRanges : List (Nat × Nat) :=
  [(0x3A, 0x3A), (0x41, 0x5A), (0x5F, 0x5F), (0x61, 0x7A), (0xC0, 0xD6), (0xD8, 0xF6),
    (0xF8, 0x2FF), (0x370, 0x37D), (0x37F, 0x1FFF), (0x200C, 0x200D), (0x2070, 0x218F),
    (0x2C00, 0x2FEF), (0x3001, 0xD7FF), (0xF900, 0xFDCF), (0xFDF0, 0xFFFD), (0x10000, 0xEFFFF)]

/-- The production `NameChar` of XML 1.0. -/
def nameRanges : List (Nat × Nat) :=
  nameStartRanges ++
    [(0x2D, 0x2E), (0x30, 0x39), (0xB7, 0xB7), (0x300, 0x36F), (0x203F, 0x2040)]

/-- The production `Name` of XML 1.0. -/
def IsXmlName (name : List Char) : Prop :=
  (∃ c ∈ name.head?, Within nameStartRanges c) ∧ ∀ c ∈ name, Within nameRanges c

instance (ranges : List (Nat × Nat)) (c : Char) : Decidable (Within ranges c) :=
  inferInstanceAs (Decidable (∃ range ∈ ranges, range.1 ≤ c.toNat ∧ c.toNat ≤ range.2))

instance (name : List Char) : Decidable (IsXmlName name) :=
  decidable_of_iff
    ((name.head?.any fun c => Within nameStartRanges c) = true ∧
      (name.all fun c => Within nameRanges c) = true)
    (by simp [IsXmlName, Option.any_eq_true])

/-- Trees of elements with proper names, no key twice in one element, and trimmed texts. Values
and texts may hold any characters. -/
inductive Element.Regular : Element → Prop
  | element {name text : String} {attributes : List Attribute} {children : List Element}
      (named : IsXmlName name.toList) (keys : ∀ a ∈ attributes, IsXmlName a.key.toList)
      (distinct : attributes.Pairwise fun a b => a.key ≠ b.key) (trimmed : Trimmed text.toList)
      (below : ∀ e ∈ children, Regular e) : Regular (.element name attributes children text)

theorem Element.Regular.parts {name text : String} {attributes : List Attribute}
    {children : List Element} (regular : (Element.element name attributes children text).Regular) :
    IsXmlName name.toList ∧ (∀ a ∈ attributes, IsXmlName a.key.toList) ∧
      (attributes.Pairwise fun a b => a.key ≠ b.key) ∧ Trimmed text.toList ∧
      ∀ e ∈ children, e.Regular := by
  cases regular with
  | element named keys distinct trimmed below => exact ⟨named, keys, distinct, trimmed, below⟩

theorem isNameChar_of_within {c : Char} (within : Within nameRanges c) : isNameChar c = true := by
  simp only [nameRanges, nameStartRanges, List.cons_append, List.nil_append, within_cons,
    within_nil, or_false] at within
  simp only [isNameChar, isMarkupSpace, isSpecial, Bool.and_eq_true, Bool.not_eq_true',
    Bool.or_eq_false_iff, beq_eq_false_iff_ne, bne_iff_ne, ne_eq]
  refine ⟨⟨⟨⟨⟨⟨⟨⟨?_, ?_⟩, ?_⟩, ?_⟩, ⟨⟨⟨?_, ?_⟩, ?_⟩, ?_⟩, ?_⟩, ?_⟩, ?_⟩, ?_⟩, ?_⟩
  all_goals
    intro same
    subst same
    revert within
    decide

theorem isName_of_isXmlName {name : List Char} (valid : IsXmlName name) : IsName name := by
  obtain ⟨⟨c, first, -⟩, chars⟩ := valid
  refine ⟨?_, fun d member => isNameChar_of_within (chars d member)⟩
  intro empty
  rw [empty] at first
  cases first

/-- Attributes as they may be written: each behind white space, its value between double quotes
with references for what must not stand there, and perhaps white space behind the last one. -/
inductive Listed : List Attribute → List Char → Prop
  | nil {space : List Char} (spaces : Spaces space) : Listed [] space
  | cons {a : Attribute} {others : List Attribute} {space raw rest : List Char}
      (some_space : space ≠ []) (spaces : Spaces space) (stands : Stands raw a.value.toList)
      (inside : ∀ c ∈ raw, c ≠ '"') (behind : Listed others rest) :
      Listed (a :: others) (space ++ a.key.toList ++ '=' :: '"' :: raw ++ '"' :: rest)

/-- What may be written for a text and elements behind it. The text is in one piece and has
references for what must not stand in it. An element is a pair of tags or an empty tag, and around
all of them there may be white space and comments. -/
inductive Renders : List Char → List Element → List Char → Prop
  | nil : Renders [] [] []
  | space {c : Char} {value cs : List Char} {es : List Element} (blank : isMarkupSpace c = true)
      (behind : Renders value es cs) : Renders value es (c :: cs)
  | comment {content value cs : List Char} {es : List Element}
      (open_ended : ¬ "-->".toList <:+: content) (behind : Renders value es cs) :
      Renders value es ("<!--".toList ++ content ++ "-->".toList ++ cs)
  | text {raw value cs : List Char} {es : List Element} (filled : value ≠ [])
      (stands : Stands raw value) (bare : ∀ c ∈ raw, c ≠ '<') (behind : Renders [] es cs) :
      Renders value es (raw ++ cs)
  | empty {name : String} {attributes : List Attribute} {listed cs : List Char}
      {es : List Element} (list : Listed attributes listed) (behind : Renders [] es cs) :
      Renders [] (.element name attributes [] "" :: es)
        ('<' :: name.toList ++ listed ++ '/' :: '>' :: cs)
  | pair {name : String} {attributes : List Attribute} {listed value inner space cs : List Char}
      {children es : List Element} (list : Listed attributes listed)
      (within : Renders value children inner) (spaces : Spaces space)
      (behind : Renders [] es cs) :
      Renders [] (.element name attributes children (String.ofList value) :: es)
        ('<' :: name.toList ++ listed ++ '>' :: inner ++
          '<' :: '/' :: name.toList ++ space ++ '>' :: cs)

theorem stands_escape (value : List Char) : Stands (escape value) value :=
  unescape_eq_ok_iff.mp (unescape_escape value)

theorem Renders.escaped {value cs : List Char} {es : List Element} (filled : value ≠ [])
    (behind : Renders [] es cs) : Renders value es (escape value ++ cs) := by
  refine .text filled (stands_escape value) (fun c member same => ?_) behind
  rcases mem_escape member with rfl | plain
  · cases same
  · rw [same] at plain
    cases plain

section

variable {attributes : List Attribute} {listed name : List Char}

theorem assigns_key {key raw value : List Char} (valid : IsName key) (stands : Stands raw value)
    (inside : ∀ c ∈ raw, c ≠ '"') :
    Assigns (key ++ '=' :: '"' :: raw ++ ['"']) ⟨String.ofList key, String.ofList value⟩ := by
  obtain ⟨some_char, chars⟩ := valid
  obtain ⟨first, others, rfl⟩ := List.exists_cons_of_ne_nil some_char
  obtain ⟨start, behind⟩ := List.forall_mem_cons.mp chars
  have plain : ∀ c ∈ others, c ≠ '=' ∧ isMarkupSpace c = false := fun c member =>
    isKeyChar_iff.mp (isKeyChar_of_isNameChar (behind c member))
  have assigns := @Assigns.assigns first '"' others [] [] raw value
    (not_isMarkupSpace_of_isNameChar start) plain (List.forall_mem_nil _) (List.forall_mem_nil _)
    (.inl rfl) inside stands
  simpa using assigns

theorem records_of_listed (list : Listed attributes listed)
    (keys : ∀ a ∈ attributes, IsName a.key.toList) : Records listed attributes := by
  induction list with
  | nil spaces => exact .nil spaces
  | @cons a others space raw rest _ spaces stands inside _ ih =>
      obtain ⟨here, others_named⟩ := List.forall_mem_cons.mp keys
      have assigns := assigns_key here stands inside
      rw [String.ofList_toList, String.ofList_toList] at assigns
      have records := Records.cons spaces assigns (ih others_named)
      simpa using records

theorem head_listed (list : Listed attributes listed) :
    ∀ c ∈ listed.head?, isMarkupSpace c = true := by
  cases list with
  | nil spaces => exact fun c first => spaces c (List.mem_of_head? first)
  | cons some_space spaces =>
      obtain ⟨d, space, rfl⟩ := List.exists_cons_of_ne_nil some_space
      intro c first
      rw [← Option.some.inj first]
      exact spaces d List.mem_cons_self

theorem tagged_of_listed (valid : IsName name) (list : Listed attributes listed)
    (keys : ∀ a ∈ attributes, IsName a.key.toList)
    (distinct : attributes.Pairwise fun a b => a.key ≠ b.key) :
    Tagged (name ++ listed) name attributes where
  split := ⟨listed, rfl, records_of_listed list keys, head_listed list⟩
  bare := fun c member => not_isMarkupSpace_of_isNameChar (valid.2 c member)
  distinct := distinct

namespace Token

theorem source_opening (content : List Char) :
    (opening content).source = '<' :: content ++ ['>'] := rfl

theorem source_empty (content : List Char) :
    (empty content).source = '<' :: content ++ ['/', '>'] := rfl

theorem source_closing (content : List Char) :
    (closing content).source = '<' :: '/' :: content ++ ['>'] := rfl

theorem quoted_run {cs rest : List Char} (plain : ∀ c ∈ cs, c ≠ '>' ∧ c ≠ '"' ∧ c ≠ '\x27')
    (behind : Quoted rest) : Quoted (cs ++ rest) := by
  induction cs with
  | nil => exact behind
  | cons c cs ih =>
      obtain ⟨here, others⟩ := List.forall_mem_cons.mp plain
      exact .plain here (ih others)

theorem not_quote_of_space {c : Char} (space : isMarkupSpace c = true) :
    c ≠ '>' ∧ c ≠ '"' ∧ c ≠ '\x27' := by
  refine ⟨?_, ?_, ?_⟩
  all_goals
    intro same
    subst same
    cases space

theorem quoted_spaces {space rest : List Char} (spaces : Spaces space) (behind : Quoted rest) :
    Quoted (space ++ rest) :=
  quoted_run (fun c member => not_quote_of_space (spaces c member)) behind

theorem quoted_name {rest : List Char} (valid : IsName name) (behind : Quoted rest) :
    Quoted (name ++ rest) :=
  quoted_run (fun c member => not_quote_of_isNameChar (valid.2 c member)) behind

theorem quoted_listed (list : Listed attributes listed)
    (keys : ∀ a ∈ attributes, IsName a.key.toList) {rest : List Char} (behind : Quoted rest) :
    Quoted (listed ++ rest) := by
  induction list with
  | nil spaces => exact quoted_spaces spaces behind
  | @cons a others space raw listed _ spaces _ inside _ ih =>
      obtain ⟨here, others_named⟩ := List.forall_mem_cons.mp keys
      have value : Quoted ('=' :: ('"' :: raw ++ '"' :: (listed ++ rest))) :=
        .plain (by decide) (.quoted (.inl rfl) inside (ih others_named))
      have whole := quoted_spaces spaces (quoted_name here value)
      simpa using whole

theorem getLast_listed (list : Listed attributes listed) : listed.getLast? ≠ some '/' := by
  induction list with
  | @nil space spaces =>
      intro slash
      have blank := spaces '/' (List.mem_of_getLast? slash)
      cases blank
  | @cons a others space raw rest _ _ _ _ _ ih =>
      rw [List.getLast?_append, List.getLast?_cons]
      cases last : rest.getLast? with
      | none => simp
      | some c =>
          rw [last] at ih
          simpa using ih

theorem begins_listed (valid : IsName name) (list : Listed attributes listed)
    (keys : ∀ a ∈ attributes, IsName a.key.toList) {rest : List Char} (behind : Quoted rest) :
    Begins (name ++ listed ++ rest) := by
  constructor
  · rw [List.append_assoc]
    exact quoted_name valid (quoted_listed list keys behind)
  · intro c first
    obtain ⟨some_char, chars⟩ := valid
    obtain ⟨d, others, rfl⟩ := List.exists_cons_of_ne_nil some_char
    rw [← Option.some.inj first]
    exact not_mark_of_isNameChar (chars d List.mem_cons_self)

theorem complete_opening (valid : IsName name) (list : Listed attributes listed)
    (keys : ∀ a ∈ attributes, IsName a.key.toList) : (opening (name ++ listed)).Complete := by
  constructor
  · have begins := begins_listed valid list keys .nil
    rwa [List.append_nil] at begins
  · intro slash
    rw [List.getLast?_append, Option.or_eq_some_iff] at slash
    rcases slash with last | ⟨-, last⟩
    · exact getLast_listed list last
    · exact (not_mark_of_isNameChar (valid.2 '/' (List.mem_of_getLast? last))).2.1 rfl

theorem complete_empty (valid : IsName name) (list : Listed attributes listed)
    (keys : ∀ a ∈ attributes, IsName a.key.toList) : (empty (name ++ listed)).Complete :=
  begins_listed valid list keys (.plain (by decide) .nil)

theorem complete_closing {space : List Char} (valid : IsName name) (spaces : Spaces space) :
    (closing (name ++ space)).Complete := by
  have quoted := quoted_name valid (quoted_spaces spaces .nil)
  rwa [List.append_nil] at quoted

end Token

theorem closingName_spaces {space : List Char} (valid : IsName name) (spaces : Spaces space) :
    Assembly.closingName (name ++ space) = name := by
  have alone : Assembly.closingName name = name := Element.closingName_name valid
  have bare : trimEnd name ≠ [] := by
    intro none_left
    obtain ⟨c, others, rfl⟩ := List.exists_cons_of_ne_nil valid.1
    have blank := trimEnd_eq_nil_iff.mp none_left c List.mem_cons_self
    rw [not_isMarkupSpace_of_isNameChar (valid.2 c List.mem_cons_self)] at blank
    cases blank
  have filled : ¬(trimEnd name).isEmpty = true := (not_congr List.isEmpty_iff).mpr bare
  rw [Assembly.closingName, if_neg filled] at alone
  rw [Assembly.closingName, trimEnd_spaces spaces, if_neg filled, alone]

end

/-- In front of `rest` a text is cut into tokens that hold some elements and some character
data. -/
def Yields (cs rest : List Char) (es : List Element) (value : List Char) : Prop :=
  ∃ ts pieces, Scan.ofText (cs ++ rest) =
      ⟨ts ++ (Scan.ofText rest).tokens, (Scan.ofText rest).fault⟩ ∧
    Holds ts es pieces ∧ pieces.flatten = value

section

variable {cs ds rest : List Char} {es fs : List Element} {value other : List Char}

theorem Yields.append (first : Yields cs (ds ++ rest) es value)
    (second : Yields ds rest fs other) : Yields (cs ++ ds) rest (es ++ fs) (value ++ other) := by
  obtain ⟨ts, pieces, cut, holds, rfl⟩ := first
  obtain ⟨us, others, cut_behind, holds_behind, rfl⟩ := second
  refine ⟨ts ++ us, pieces ++ others, ?_, holds.append holds_behind, List.flatten_append⟩
  rw [List.append_assoc, cut, cut_behind, List.append_assoc]

theorem yields_text (plain : ∀ c ∈ cs, c ≠ '<') (stands : Stands (trim cs) value)
    (stop : rest = [] ∨ rest.head? = some '<') : Yields cs rest [] value := by
  by_cases none_there : cs = []
  · subst none_there
    have nothing : value = [] := stands.unique .nil |>.symm
    exact ⟨[], [], rfl, .nil, nothing.symm⟩
  · have cut := Scan.ofText_run none_there plain stop
    by_cases blank : trim cs = []
    · rw [blank] at stands
      have nothing : value = [] := stands.unique .nil |>.symm
      exact ⟨[.text cs], [], cut, .ignored (List.isEmpty_iff.mpr blank) .nil, nothing.symm⟩
    · exact ⟨[.text cs], [value], cut, .text blank stands .nil, by simp⟩

theorem Yields.behind_text (plain : ∀ c ∈ cs, c ≠ '<') (stands : Stands (trim cs) value)
    (markup : (ds ++ rest).head? = some '<') (behind : Yields ds rest es other) :
    Yields (cs ++ ds) rest es (value ++ other) :=
  (yields_text plain stands (.inr markup)).append behind

theorem ofText_complete {t : Token} (complete : t.Complete) {markup : List Char}
    (shape : t.source = '<' :: markup) (rest : List Char) :
    Scan.ofText (t.source ++ rest) = (Scan.ofText rest).prepend t := by
  rw [shape]
  exact Scan.ofText_token (Token.readMarkup_of_complete complete shape rest)

theorem yields_comment {content : List Char} (open_ended : ¬ "-->".toList <:+: content)
    (rest : List Char) : Yields (Token.comment content).source rest [] [] :=
  ⟨[.comment content], [], @ofText_complete (.comment content) open_ended _ rfl rest,
    .ignored rfl .nil, rfl⟩

section

variable {name : String} {attributes : List Attribute} {listed : List Char}

theorem yields_empty (named : IsXmlName name.toList)
    (keys : ∀ a ∈ attributes, IsXmlName a.key.toList)
    (distinct : attributes.Pairwise fun a b => a.key ≠ b.key) (list : Listed attributes listed)
    (rest : List Char) :
    Yields (Token.empty (name.toList ++ listed)).source rest
      [.element name attributes [] ""] [] := by
  have valid := isName_of_isXmlName named
  have keys_valid := fun a member => isName_of_isXmlName (keys a member)
  have cut := ofText_complete (Token.complete_empty valid list keys_valid) rfl rest
  have tagged := tagged_of_listed valid list keys_valid distinct
  have leaf := Holds.leaf tagged .nil
  rw [String.ofList_toList] at leaf
  exact ⟨[.empty (name.toList ++ listed)], [], cut, leaf, rfl⟩

theorem yields_pair (named : IsXmlName name.toList)
    (keys : ∀ a ∈ attributes, IsXmlName a.key.toList)
    (distinct : attributes.Pairwise fun a b => a.key ≠ b.key) (list : Listed attributes listed)
    {space : List Char} (spaces : Spaces space)
    (within : Yields cs ((Token.closing (name.toList ++ space)).source ++ rest) es value) :
    Yields ((Token.opening (name.toList ++ listed)).source ++ cs ++
        (Token.closing (name.toList ++ space)).source) rest
      [.element name attributes es (String.ofList value)] [] := by
  obtain ⟨inner, inside, cut_inner, holds, rfl⟩ := within
  have valid := isName_of_isXmlName named
  have keys_valid := fun a member => isName_of_isXmlName (keys a member)
  have tagged := tagged_of_listed valid list keys_valid distinct
  have node := Holds.node tagged holds (closingName_spaces valid spaces).symm .nil
  rw [String.ofList_toList] at node
  refine ⟨_, [], ?_, node, rfl⟩
  rw [List.append_assoc, List.append_assoc,
    ofText_complete (Token.complete_opening valid list keys_valid) rfl, cut_inner,
    ofText_complete (Token.complete_closing valid spaces) rfl]
  simp [Scan.prepend]

end

theorem eq_nil_of_stands {raw : List Char} (stands : Stands raw []) : raw = [] := by
  cases stands
  rfl

theorem getLast_of_stands {raw value : List Char} (stands : Stands raw value) :
    ∀ c ∈ raw.getLast?, c = ';' ∨ value.getLast? = some c := by
  have longer {raw value : List Char} (d : Char)
      (ends : ∀ c ∈ raw.getLast?, c = ';' ∨ value.getLast? = some c) :
      ∀ c ∈ raw.getLast?, c = ';' ∨ (d :: value).getLast? = some c := by
    intro c last
    apply (ends c last).imp_right
    intro same
    rw [List.getLast?_cons, same]
    rfl
  induction stands with
  | nil => exact nofun
  | @plain d raw value _ stands ih =>
      intro c last
      cases raw with
      | nil =>
          have nothing : value = [] := stands.unique .nil |>.symm
          rw [nothing]
          exact .inr last
      | cons e raw =>
          rw [List.getLast?_cons_cons] at last
          exact longer d ih c last
  | @reference name raw value d _ _ ih =>
      intro c last
      rw [List.getLast?_append_of_ne_nil _ (List.cons_ne_nil ';' raw)] at last
      cases raw with
      | nil => exact .inl (Option.some.inj last).symm
      | cons e raw =>
          rw [List.getLast?_cons_cons] at last
          exact longer d ih c last

/-- References do not hide white space at the ends: what stands for trimmed text is trimmed. -/
theorem trimmed_of_stands {raw value : List Char} (stands : Stands raw value)
    (trimmed : Trimmed value) : Trimmed raw := by
  constructor
  · cases stands with
    | nil => exact trimmed.1
    | plain _ _ => exact trimmed.1
    | reference _ _ =>
        intro c first
        rw [← Option.some.inj first]
        rfl
  · intro c last
    rcases getLast_of_stands stands c last with rfl | same
    · rfl
    · exact trimmed.2 c same

/-- A rendering is read as what it is a rendering of. Text that was met before it may go on in it:
it is white space, or there is no more text to come. -/
theorem yields_of_renders (renders : Renders value es cs) (regular : ∀ e ∈ es, e.Regular)
    (trimmed : Trimmed value) {lead shed : List Char} (plain : ∀ c ∈ lead, c ≠ '<')
    (stands : Stands (trim lead) shed) (once : shed = [] ∨ value = [])
    (stop : rest = [] ∨ rest.head? = some '<') : Yields (lead ++ cs) rest es (shed ++ value) := by
  induction renders generalizing lead shed rest with
  | nil =>
      rw [List.append_nil, List.append_nil]
      exact yields_text plain stands stop
  | @space c value cs es blank _ ih =>
      have other : c ≠ '<' := by
        rintro rfl
        cases blank
      have plain_too : ∀ d ∈ lead ++ [c], d ≠ '<' :=
        List.forall_mem_append.mpr ⟨plain, List.forall_mem_singleton.mpr other⟩
      have same : trim (lead ++ [c]) = trim lead := trim_trail (List.forall_mem_singleton.mpr blank)
      have longer := ih regular trimmed plain_too (same ▸ stands) once stop
      rwa [List.append_assoc] at longer
  | @comment content value cs es open_ended _ ih =>
      have behind := ih regular trimmed (List.forall_mem_nil _) .nil (.inl rfl) stop
      exact ((yields_comment open_ended _).append behind).behind_text plain stands rfl
  | @text raw value cs es filled stands_too bare _ ih =>
      have nothing : shed = [] := once.resolve_right filled
      rw [nothing] at stands ⊢
      have blank : Spaces lead := trim_eq_nil_iff.mp (eq_nil_of_stands stands)
      have same : trim (lead ++ raw) = raw := by
        rw [trim_lead blank]
        exact (trimmed_of_stands stands_too trimmed).trim_eq
      have plain_too : ∀ d ∈ lead ++ raw, d ≠ '<' := List.forall_mem_append.mpr ⟨plain, bare⟩
      have longer := @ih rest regular trimmed_nil (lead ++ raw) value plain_too
        (by rwa [same]) (.inr rfl) stop
      rwa [List.append_assoc, List.append_nil] at longer
  | @empty name attributes listed cs es list _ ih =>
      obtain ⟨first, others⟩ := List.forall_mem_cons.mp regular
      obtain ⟨named, keys, distinct, -⟩ := first.parts
      have behind := ih others trimmed (List.forall_mem_nil _) .nil (.inl rfl) stop
      have element := (yields_empty named keys distinct list _).append behind
      have all := element.behind_text plain stands rfl
      rw [Token.source_empty] at all
      simpa using all
  | @pair name attributes listed value inner space cs children es list _ spaces _ ih_inner ih =>
      obtain ⟨first, others⟩ := List.forall_mem_cons.mp regular
      obtain ⟨named, keys, distinct, inside_trimmed, below⟩ := first.parts
      rw [String.toList_ofList] at inside_trimmed
      have within := @ih_inner ((Token.closing (name.toList ++ space)).source ++ (cs ++ rest))
        below inside_trimmed [] [] (List.forall_mem_nil _) .nil (.inl rfl) (.inr rfl)
      have behind := ih others trimmed (List.forall_mem_nil _) .nil (.inl rfl) stop
      have element := (yields_pair named keys distinct list spaces within).append behind
      have all := element.behind_text plain stands rfl
      rw [Token.source_opening, Token.source_closing] at all
      simpa using all

end

theorem withoutMark_of_renders {cs : List Char} {es : List Element} (renders : Renders [] es cs) :
    Element.withoutMark cs = cs := by
  cases renders with
  | nil => rfl
  | @space c _ cs _ blank _ =>
      have other : c ≠ '\ufeff' := by
        rintro rfl
        cases blank
      exact withoutMark_of_ne other cs
  | comment _ _ => rfl
  | text filled _ _ _ => exact absurd rfl filled
  | empty _ _ => rfl
  | pair _ _ _ _ => rfl

namespace Element

/-- Every tree of regular elements is read back from every text that it is rendered as, if the
text and its nesting are within the limits. -/
theorem parse_of_renders {limits : Limits} {text : String} {e : Element} (regular : e.Regular)
    (renders : Renders [] [e] text.toList) (small : text.utf8ByteSize ≤ limits.maxBytes)
    (shallow : e.depth ≤ limits.maxDepth) : parse limits text = .ok e := by
  obtain ⟨ts, pieces, cut, holds, nothing⟩ := @yields_of_renders text.toList [] [e] [] renders
    (List.forall_mem_singleton.mpr regular) trimmed_nil [] [] (List.forall_mem_nil _) .nil
    (.inl rfl) (.inl rfl)
  have unmarked := withoutMark_of_renders renders
  have blank : ∀ piece ∈ pieces, isBlank piece = true := by
    intro piece member
    rw [List.flatten_eq_nil_iff.mp nothing piece member]
    rfl
  rw [List.nil_append, List.append_nil, Scan.ofText_nil, List.append_nil] at cut
  apply parse_eq_ok_iff.mpr
  rw [unmarked, cut]
  exact ⟨small, shallow, rfl, pieces, holds, blank⟩

/-- A tree with text in front of its elements, of which one is a pair of tags and one an empty
tag, among white space and comments. -/
theorem parse_of_renders_mixed :
    let limits : Limits := { maxDepth := 2, maxBytes := 79 }
    let text := "\n<a:é x=\"1 &lt; &#50;\"\ty=\"\" > <!-- <t> -->t &amp; <b></b >\n<c/><!---->\t</a:é>"
    let e := element "a:é" [⟨"x", "1 < 2"⟩, ⟨"y", ""⟩]
      [element "b" [] [] "", element "c" [] [] ""] "t &"
    e.Regular ∧ Renders [] [e] text.toList ∧ text.utf8ByteSize ≤ limits.maxBytes ∧
      e.depth ≤ limits.maxDepth ∧ parse limits text = .ok e := by
  intro limits text e
  have leaf (name : String) (named : IsXmlName name.toList) : (element name [] [] "").Regular :=
    .element named (List.forall_mem_nil _) .nil trimmed_nil (List.forall_mem_nil _)
  have regular : e.Regular := by
    refine .element (by decide +kernel) (by decide +kernel) (by decide +kernel) ?_ ?_
    · constructor
      · rintro _ ⟨⟩
        rfl
      · rintro _ ⟨⟩
        rfl
    · exact List.forall_mem_cons.mpr ⟨leaf "b" (by decide +kernel),
        List.forall_mem_singleton.mpr (leaf "c" (by decide +kernel))⟩
  have stands {raw value : List Char} (known : unescape raw = .ok value) : Stands raw value :=
    unescape_eq_ok_iff.mp known
  have spaces {space : List Char} (known : space.all isMarkupSpace = true) : Spaces space :=
    List.all_eq_true.mp known
  have inside {raw : List Char} (known : raw.all (· != '"') = true) : ∀ c ∈ raw, c ≠ '"' :=
    fun c member => bne_iff_ne.mp (List.all_eq_true.mp known c member)
  have listed : Listed [⟨"x", "1 < 2"⟩, ⟨"y", ""⟩] " x=\"1 &lt; &#50;\"\ty=\"\" ".toList :=
    @Listed.cons ⟨"x", "1 < 2"⟩ _ [' '] "1 &lt; &#50;".toList _ (List.cons_ne_nil _ _) (spaces rfl)
      (stands (by decide +kernel)) (inside rfl)
      (@Listed.cons ⟨"y", ""⟩ _ ['\t'] [] _ (List.cons_ne_nil _ _) (spaces rfl) .nil (inside rfl)
        (.nil (spaces rfl)))
  have bare : Listed [] [] := .nil (List.forall_mem_nil _)
  have last : Renders [] [element "c" [] [] ""] "\n<c/><!---->\t".toList :=
    .space rfl (@Renders.empty "c" [] [] _ [] bare
      (@Renders.comment [] _ _ _ (by decide) (.space rfl .nil)))
  have both : Renders [] [element "b" [] [] "", element "c" [] [] ""]
      " <b></b >\n<c/><!---->\t".toList :=
    .space rfl (@Renders.pair "b" [] [] [] [] [' '] _ [] _ bare .nil (spaces rfl) last)
  have inner : Renders "t &".toList [element "b" [] [] "", element "c" [] [] ""]
      " <!-- <t> -->t &amp; <b></b >\n<c/><!---->\t".toList :=
    .space rfl (@Renders.comment " <t> ".toList _ _ _ (by decide)
      (Renders.escaped (by decide) both))
  have whole := @Renders.space '\n' _ _ _ rfl
    (@Renders.pair "a:é" _ _ _ _ [] _ _ _ listed inner (spaces rfl) .nil)
  have renders : Renders [] [e] text.toList := by
    rw [String.ofList_toList] at whole
    apply cast (congrArg (Renders [] [e]) _) whole
    decide +kernel
  exact ⟨regular, renders, by decide +kernel, by decide +kernel,
    parse_of_renders regular renders (by decide +kernel) (by decide +kernel)⟩

end Element

end Terminology.Markup
