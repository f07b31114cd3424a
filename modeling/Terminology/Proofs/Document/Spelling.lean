import Terminology.Proofs.Document.Description
import Terminology.Proofs.Markup.Order
import Terminology.Proofs.Markup.Substitution

/-!
The two spellings of a literal. A value may be given as an attribute or as the text of its element,
and wherever the element stands, the document is read as the same tree or refused in both cases. A
value that is given in both ways is refused.
-/

namespace Terminology

open Text Markup

namespace Expression

variable {x y : Element}

theorem name_of_alike {e e' : Element} (names : x.name = y.name) (alike : Element.Alike x y e e') :
    e.name = e'.name := by
  cases alike with
  | same => rfl
  | exchanged => exact names
  | within _ => rfl

mutual

theorem ofElementAt_of_alike (names : x.name = y.name)
    (agree : ∀ path, ofElementAt path x = ofElementAt path y) {path : Path} {e e' : Element}
    (alike : Element.Alike x y e e') : ofElementAt path e = ofElementAt path e' := by
  obtain ⟨name, attributes, children, text⟩ := e
  cases alike with
  | same => rfl
  | exchanged => exact agree path
  | @within _ _ _ _ others below =>
      have alone : ofElementAlone (.element name attributes children text) =
          ofElementAlone (.element name attributes others text) := rfl
      rw [ofElementAt, ofElementAt, alone]
      split
      · rfl
      · rw [ofElementsAt_of_alike names agree below]

theorem ofElementsAt_of_alike (names : x.name = y.name)
    (agree : ∀ path, ofElementAt path x = ofElementAt path y) {path : Path} {index : Nat}
    {es es' : List Element} (alike : List.Forall₂ (Element.Alike x y) es es') :
    ofElementsAt path index es = ofElementsAt path index es' := by
  cases es with
  | nil =>
      cases alike
      rfl
  | cons e es =>
      rcases List.forall₂_cons_left_iff.mp alike with ⟨e', others, first, behind, rfl⟩
      rw [ofElementsAt, ofElementsAt, name_of_alike names first,
        ofElementAt_of_alike names agree first]
      split
      · rfl
      · rw [ofElementsAt_of_alike names agree behind]

end

theorem ofElement_of_alike (names : x.name = y.name)
    (agree : ∀ path, ofElementAt path x = ofElementAt path y) {e e' : Element}
    (alike : Element.Alike x y e e') : ofElement e = ofElement e' := by
  rw [ofElement, ofElement, name_of_alike names alike, ofElementAt_of_alike names agree alike]

theorem payload_spellings {kind : Kind} {v : String} (literal : kind.category = .literal)
    (filled : v ≠ "") :
    Payload.ofElement kind (.element kind.tag [⟨"value", v⟩] [] "") =
      Payload.ofElement kind (.element kind.tag [] [] v) := by
  have checked {attributes : List Attribute} {text : String}
      (keys : ∀ a ∈ attributes, a.key = "value") :
      Payload.checkKeys (.element kind.tag attributes [] text) ["value"] = .ok () :=
    Payload.checkKeys_ok fun a member => List.mem_singleton.mpr (keys a member)
  have chosen : Payload.literalText (.element kind.tag [⟨"value", v⟩] [] "") = .ok v := rfl
  have chosen' : Payload.literalText (.element kind.tag [] [] v) = .ok v :=
    Payload.literalText_eq_ok_iff.mpr (.inr ⟨rfl, rfl, filled⟩)
  simp only [Payload.ofElement, literal, Payload.literalOf]
  rw [checked (List.forall_mem_singleton.mpr rfl), checked (List.forall_mem_nil _), chosen, chosen']

theorem ofElementAt_spellings {kind : Kind} {v : String} (literal : kind.category = .literal)
    (filled : v ≠ "") (path : Path) :
    ofElementAt path (.element kind.tag [⟨"value", v⟩] [] "") =
      ofElementAt path (.element kind.tag [] [] v) := by
  have alone : ofElementAlone (.element kind.tag [⟨"value", v⟩] [] "") =
      ofElementAlone (.element kind.tag [] [] v) := by
    simp only [ofElementAlone, Element.name, kind.ofTag_tag, payload_spellings literal filled,
      literal, ne_eq, not_true_eq_false, false_and, if_false]
  rw [ofElementAt, ofElementAt, alone]

mutual

theorem described_of_mem_listing {root : Element} {tree : Expression} {level : Nat}
    {entry : Nat × Element} (described : Describes root tree) (legal : tree.Legal)
    (member : entry ∈ root.listing level) : ∃ n, Describes entry.2 n ∧ n.Legal := by
  obtain ⟨name, attributes, children, text⟩ := root
  rw [Element.listing, List.mem_cons] at member
  rcases member with rfl | below
  · exact ⟨tree, described, legal⟩
  · cases described with
    | node tag recorded under =>
        exact described_of_mem_listingAll under (legal_node_iff.mp legal).2 below

theorem described_of_mem_listingAll {es : List Element} {trees : List Expression} {level : Nat}
    {entry : Nat × Element} (described : List.Forall₂ Describes es trees)
    (legal : ∀ tree ∈ trees, tree.Legal) (member : entry ∈ Element.listingAll level es) :
    ∃ n, Describes entry.2 n ∧ n.Legal := by
  cases es with
  | nil => cases member
  | cons e es =>
      rcases List.forall₂_cons_left_iff.mp described with ⟨tree, others, first, behind, rfl⟩
      rcases List.forall_mem_cons.mp legal with ⟨legal_first, legal_others⟩
      rw [Element.listingAll, List.mem_append] at member
      rcases member with here | there
      · exact described_of_mem_listing first legal_first here
      · exact described_of_mem_listingAll behind legal_others there

end

variable {kind : Kind} {payload : Payload}

theorem Legal.childless_literal {children : List Expression} (literal : kind.category = .literal)
    (legal : Legal (node kind payload children)) : children = [] := by
  cases legal with
  | connective operator _ _ => cases literal.symm.trans operator
  | role quantifier _ _ => rcases quantifier with rfl | rfl <;> cases literal
  | feature _ _ _ _ => cases literal
  | _ => rfl

theorem attributes_of_literal {record : List Attribute} {text : String}
    (literal : kind.category = .literal) (given : Payload.Given kind payload record text) :
    (∃ raw, record = [⟨"value", raw⟩]) ∧ text = "" ∨ record = [] := by
  cases given with
  | empty _ => exact .inr rfl
  | role quantifier _ => rcases quantifier with rfl | rfl <;> cases literal
  | @value _ raw _ _ _ => exact .inl ⟨⟨raw, rfl⟩, rfl⟩
  | text _ _ _ => exact .inr rfl
  | pending substitution =>
      cases literal.symm.trans (category_of_isPlaceholder substitution)
  | placeholder substitution _ =>
      cases literal.symm.trans (category_of_isPlaceholder substitution)
  | _ => cases literal

/-- An element that is read as a literal has nothing in it and no attribute but the value, which is
not given as text besides. -/
theorem literal_of_describes {e : Element} {n : Expression} (literal : kind.category = .literal)
    (named : e.name = kind.tag) (described : Describes e n) (legal : n.Legal) :
    e.children = [] ∧ (∀ a ∈ e.attributes, a.key = "value") ∧
      ((e.attribute? "value").isSome → e.text = "") := by
  cases described with
  | @node _ found payload children tag recorded below =>
      have same : found = kind := by
        have both := (found.ofTag_tag).symm.trans (by rw [tag, named, kind.ofTag_tag])
        exact Option.some.inj both
      subst same
      rcases recorded with ⟨record, listed, given⟩
      rw [legal.childless_literal literal] at below
      refine ⟨List.forall₂_nil_right_iff.mp below, ?_⟩
      rcases attributes_of_literal literal given with ⟨⟨raw, rfl⟩, silent⟩ | rfl
      · refine ⟨fun a member => ?_, fun _ => silent⟩
        rw [List.mem_singleton.mp (listed.mem_iff.mp member)]
      · have bare : e.attributes = [] := List.perm_nil.mp listed
        rw [Element.attribute?, bare]
        refine ⟨List.forall_mem_nil _, ?_⟩
        intro given
        cases given

end Expression

namespace Markup

variable {kind : Kind} {v : String} {quote : Char}

/-- The inside of a start tag that gives a value as an attribute. -/
def valued (kind : Kind) (quote : Char) (v : String) : List Char :=
  kind.tag.toList ++ ' ' :: "value".toList ++ '=' :: quote :: escape v.toList ++ [quote]

def asAttribute (kind : Kind) (quote : Char) (v : String) : List Char :=
  '<' :: valued kind quote v ++ ['/', '>']

def asAttributePair (kind : Kind) (quote : Char) (v : String) : List Char :=
  '<' :: valued kind quote v ++ '>' :: '<' :: '/' :: kind.tag.toList ++ ['>']

def asText (kind : Kind) (v : String) : List Char :=
  '<' :: kind.tag.toList ++ '>' :: escape v.toList ++ '<' :: '/' :: kind.tag.toList ++ ['>']

theorem not_mark_of_escape (v : String) (mark : quote = '"' ∨ quote = '\x27') :
    ∀ c ∈ escape v.toList, c ≠ quote := by
  intro c member same
  subst same
  rcases mem_escape member with rfl | plain
  · rcases mark with other | other <;> cases other
  · rcases mark with rfl | rfl <;> cases plain

theorem tagged_valued (mark : quote = '"' ∨ quote = '\x27') :
    Tagged (valued kind quote v) kind.tag.toList [⟨"value", v⟩] := by
  have key : "alue".toList.all isKeyChar = true := by decide
  have assigns := @Assigns.assigns 'v' quote "alue".toList [] [] (escape v.toList) v.toList rfl
    (fun c member => isKeyChar_iff.mp (List.all_eq_true.mp key c member)) (List.forall_mem_nil _)
    (List.forall_mem_nil _) mark (not_mark_of_escape v mark) (stands_escape v.toList)
  rw [String.ofList_toList] at assigns
  have space : Spaces [' '] := List.forall_mem_singleton.mpr rfl
  have records := Records.cons space assigns (.nil (List.forall_mem_nil _))
  refine ⟨⟨_, ?_, records, ?_⟩, ?_, List.pairwise_singleton _ _⟩
  · simp [valued]
  · intro c first
    rw [← Option.some.inj first]
    rfl
  · intro c member
    exact not_isMarkupSpace_of_isNameChar (kind.isName_tag.2 c member)

theorem begins_tag {rest : List Char} (quoted : Token.Quoted rest) :
    Token.Begins (kind.tag.toList ++ rest) := by
  rcases kind.isName_tag with ⟨some_char, chars⟩
  refine ⟨Token.quoted_name ⟨some_char, chars⟩ quoted, ?_⟩
  intro c first
  rcases List.exists_cons_of_ne_nil some_char with ⟨d, others, shape⟩
  rw [shape] at first chars
  rw [← Option.some.inj first]
  exact not_mark_of_isNameChar (chars d List.mem_cons_self)

theorem quoted_value {rest : List Char} (v : String) (mark : quote = '"' ∨ quote = '\x27')
    (behind : Token.Quoted rest) :
    Token.Quoted (' ' :: "value".toList ++ '=' :: quote :: escape v.toList ++ quote :: rest) := by
  have value := Token.Quoted.quoted mark (not_mark_of_escape v mark) behind
  have space : Spaces [' '] := List.forall_mem_singleton.mpr rfl
  have key : IsName "value".toList := by decide
  have assigned : Token.Quoted ('=' :: (quote :: escape v.toList ++ quote :: rest)) :=
    .plain (by decide) value
  have whole := Token.quoted_spaces space (Token.quoted_name key assigned)
  simpa using whole

theorem begins_valued {rest : List Char} (mark : quote = '"' ∨ quote = '\x27')
    (behind : Token.Quoted rest) : Token.Begins (valued kind quote v ++ rest) := by
  have begins := @begins_tag kind _ (quoted_value v mark behind)
  simpa [valued] using begins

theorem closed_tag : (Token.closing kind.tag.toList).Complete ∧
    kind.tag.toList = Assembly.closingName kind.tag.toList := by
  have complete :=
    @Token.complete_closing kind.tag.toList [] kind.isName_tag (List.forall_mem_nil _)
  rw [List.append_nil] at complete
  exact ⟨complete, (Element.closingName_name kind.isName_tag).symm⟩

theorem writes_asAttribute (mark : quote = '"' ∨ quote = '\x27') :
    Writes (.element kind.tag [⟨"value", v⟩] [] "") (asAttribute kind quote v) ∧
      Writes (.element kind.tag [⟨"value", v⟩] [] "") (asAttributePair kind quote v) := by
  constructor
  · have complete : (Token.empty (valued kind quote v)).Complete :=
      begins_valued mark (.plain (by decide) .nil)
    have writes := Writes.empty complete (tagged_valued mark)
    rwa [String.ofList_toList] at writes
  · have complete : (Token.opening (valued kind quote v)).Complete := by
      have begins := @begins_valued kind v quote [] mark .nil
      rw [List.append_nil] at begins
      refine ⟨begins, ?_⟩
      rw [valued, List.getLast?_concat]
      rcases mark with rfl | rfl <;> simp
    rcases @closed_tag kind with ⟨closed, same⟩
    have writes := Writes.pair complete (tagged_valued mark) closed same trimmed_nil .nil
    rw [String.ofList_toList] at writes
    rw [Token.source_opening, Token.source_closing] at writes
    simpa [asAttributePair] using writes

theorem writes_asText (filled : v ≠ "") (trimmed : Trimmed v.toList) :
    Writes (.element kind.tag [] [] v) (asText kind v) := by
  have bare : Listed [] [] := .nil (List.forall_mem_nil _)
  have complete := Token.complete_opening kind.isName_tag bare (List.forall_mem_nil _)
  have tagged := tagged_of_listed kind.isName_tag bare (List.forall_mem_nil _) .nil
  rcases @closed_tag kind with ⟨closed, same⟩
  have some_char : v.toList ≠ [] := fun empty => filled (String.toList_injective (empty.trans rfl))
  have writes := Writes.pair complete tagged closed same trimmed (.escaped some_char .nil)
  rw [String.ofList_toList, String.ofList_toList, Token.source_opening,
    Token.source_closing] at writes
  simpa [asText] using writes

end Markup

namespace Document

variable {settings : Settings} {kind : Kind} {v : String} {front cs ds after : List Char}
  {text other : String}

/-- Wherever a literal stands, both spellings of its value give the same tree or the same fault of
the content, unless both texts are no markup that can be read. -/
theorem deserialize_exchange (literal : kind.category = .literal) (filled : v ≠ "")
    (whole : (Scan.ofText front).fault = none)
    (writes : Writes (.element kind.tag [⟨"value", v⟩] [] "") cs)
    (writes' : Writes (.element kind.tag [] [] v) ds) (shape : text.toList = front ++ cs ++ after)
    (shape' : other.toList = front ++ ds ++ after) (small : text.utf8ByteSize ≤ settings.maxBytes)
    (small' : other.utf8ByteSize ≤ settings.maxBytes) :
    deserialize settings text = deserialize settings other ∨
      ∃ m m', deserialize settings text = .error (.markup m) ∧
        deserialize settings other = .error (.markup m') := by
  cases parsed : Element.parse settings.toLimits text with
  | ok e =>
      rcases Element.parse_exchange whole writes writes' shape shape' small' parsed with
        ⟨e', parsed', alike⟩
      have agree := Expression.ofElementAt_spellings literal filled
      have same : Expression.ofElement e = Expression.ofElement e' :=
        Expression.ofElement_of_alike (by rfl) agree alike
      left
      calc deserialize settings text
          = (Expression.ofElement e).mapError .content := deserialize_of_parse parsed
        _ = (Expression.ofElement e').mapError .content := by rw [same]
        _ = deserialize settings other := (deserialize_of_parse parsed').symm
  | error m =>
      cases parsed' : Element.parse settings.toLimits other with
      | ok e' =>
          rcases Element.parse_exchange whole writes' writes shape' shape small parsed' with
            ⟨e, back, -⟩
          cases parsed.symm.trans back
      | error m' =>
          right
          exact ⟨m, m', deserialize_of_parse_error parsed, deserialize_of_parse_error parsed'⟩

/-- A document is refused if an element in it that is named for a literal has a value in both
spellings, or has other attributes or elements in it. -/
theorem refuses_literal {root e : Element} {level : Nat} (literal : kind.category = .literal)
    (parsed : Element.parse settings.toLimits text = .ok root)
    (member : (level, e) ∈ root.listing 1) (named : e.name = kind.tag)
    (fault : (e.attribute? "value").isSome ∧ e.text ≠ "" ∨ e.children ≠ [] ∨
      ∃ a ∈ e.attributes, a.key ≠ "value") :
    ∃ m, deserialize settings text = .error (.content m) := by
  rw [deserialize_of_parse parsed]
  cases read : Expression.ofElement root with
  | error m => exact ⟨m, rfl⟩
  | ok tree =>
      have keyed := Element.keyed_of_parse parsed
      rcases (Expression.ofElement_eq_ok_iff_describes keyed).mp read with ⟨described, legal⟩
      rcases Expression.described_of_mem_listing described legal member with ⟨n, here, legal_here⟩
      rcases Expression.literal_of_describes literal named here legal_here with
        ⟨childless, keys, silent⟩
      rcases fault with ⟨given, twice⟩ | children | ⟨a, listed, foreign⟩
      · exact absurd (silent given) twice
      · exact absurd childless children
      · exact absurd (keys a listed) foreign

/-- Both spellings of a literal mean the same. In any document that an element for a literal stands
in, its value may be given as an attribute or as text: the trees that are read are equal, or both
texts are refused. References make these spellings out of every value that has no white space at
its ends, which is where text would lose it. A value in both spellings is always refused, and so is
anything else in such an element. -/
theorem deserialize_spellings :
    (∀ (settings : Settings) (kind : Kind) (v : String) (front cs ds after : List Char)
        (text other : String),
      kind.category = .literal → v ≠ "" → (Scan.ofText front).fault = none →
      Writes (.element kind.tag [⟨"value", v⟩] [] "") cs → Writes (.element kind.tag [] [] v) ds →
      text.toList = front ++ cs ++ after → other.toList = front ++ ds ++ after →
      text.utf8ByteSize ≤ settings.maxBytes → other.utf8ByteSize ≤ settings.maxBytes →
      deserialize settings text = deserialize settings other ∨
        ∃ m m', deserialize settings text = .error (.markup m) ∧
          deserialize settings other = .error (.markup m')) ∧
    (∀ (kind : Kind) (v : String) (quote : Char), quote = '"' ∨ quote = '\x27' → v ≠ "" →
      Trimmed v.toList →
      Writes (.element kind.tag [⟨"value", v⟩] [] "") (asAttribute kind quote v) ∧
        Writes (.element kind.tag [⟨"value", v⟩] [] "") (asAttributePair kind quote v) ∧
        Writes (.element kind.tag [] [] v) (asText kind v)) ∧
    ∀ (settings : Settings) (kind : Kind) (text : String) (root e : Element) (level : Nat),
      kind.category = .literal → Element.parse settings.toLimits text = .ok root →
      (level, e) ∈ root.listing 1 → e.name = kind.tag →
      ((e.attribute? "value").isSome ∧ e.text ≠ "" ∨ e.children ≠ [] ∨
        ∃ a ∈ e.attributes, a.key ≠ "value") →
      ∃ m, deserialize settings text = .error (.content m) := by
  refine ⟨?_, ?_, ?_⟩
  · intro settings kind v front cs ds after text other literal filled whole writes writes'
    exact deserialize_exchange literal filled whole writes writes'
  · intro kind v quote mark filled trimmed
    rcases @writes_asAttribute kind v quote mark with ⟨empty, pair⟩
    exact ⟨empty, pair, writes_asText filled trimmed⟩
  · intro settings kind text root e level literal parsed member named
    exact refuses_literal literal parsed member named

/-- A value with line breaks, both quotes, what ends verbatim text and white space at its ends that
is none to markup, behind a byte order mark, a declaration and a comment with a tag in it; and a
literal with a value in both spellings. -/
theorem deserialize_spellings_hard :
    let settings : Settings := {}
    let v := "\u3000a\r\n\"'<&amp;]]>\u00a0"
    let front := "\ufeff<?xml version='1.0'?><and><!-- <literal-string> -->\n".toList
    let after := " <literal-boolean>true</literal-boolean></and>\n".toList
    let text := String.ofList (front ++ asAttribute .string '\x27' v ++ after)
    let other := String.ofList (front ++ asText .string v ++ after)
    let tree := Expression.connective .and
      [Expression.literal (.string v), Expression.literal (.boolean true)]
    let both := "<or><literal-string value=''>a</literal-string></or>"
    deserialize settings text = .ok tree ∧ deserialize settings other = .ok tree ∧
      ∃ m, deserialize settings both = .error (.content m) := by
  intro settings v front after text other tree both
  have first : v.toList.head? = some '\u3000' := by decide +kernel
  have last : v.toList.getLast? = some '\u00a0' := by decide +kernel
  have trimmed : Trimmed v.toList := by
    constructor
    · intro c found
      rw [← Option.some.inj (first.symm.trans found)]
      rfl
    · intro c found
      rw [← Option.some.inj (last.symm.trans found)]
      rfl
  have whole : (Scan.ofText front).fault = none := by decide +kernel
  rcases deserialize_spellings.2.1 .string v '\x27' (.inr rfl) (by decide) trimmed with
    ⟨writes, -, writes'⟩
  have known : (deserialize settings text).toOption = some tree := by decide +kernel
  have read : deserialize settings text = .ok tree := by
    cases found : deserialize settings text with
    | error m =>
        rw [found] at known
        cases known
    | ok e =>
        rw [found] at known
        exact congrArg Except.ok (Option.some.inj known)
  have shape (cs : List Char) :
      (String.ofList (front ++ cs ++ after)).toList = front ++ cs ++ after :=
    String.toList_ofList
  have alike := deserialize_spellings.1 settings .string v front _ _ after text other rfl
    (by decide) whole writes writes' (shape _) (shape _) (by decide +kernel) (by decide +kernel)
  have read' : deserialize settings other = .ok tree := by
    rcases alike with same | ⟨m, m', refused, -⟩
    · rw [← same, read]
    · cases read.symm.trans refused
  have second : (Element.parse settings.toLimits both).toOption.map (fun root =>
      (root.listing 1)[1]?.map fun entry =>
        (entry.2.name, entry.2.attribute? "value", entry.2.text)) =
      some (some ("literal-string", some "", "a")) := by decide +kernel
  rcases Element.exists_of_view second with ⟨root, parsed, view⟩
  rcases Option.map_eq_some_iff.mp view with ⟨⟨level, e⟩, listed, parts⟩
  rcases Prod.mk.inj parts with ⟨named, others⟩
  rcases Prod.mk.inj others with ⟨given, given_too⟩
  have twice : (e.attribute? "value").isSome ∧ e.text ≠ "" := by
    rw [given, given_too]
    exact ⟨rfl, by decide⟩
  exact ⟨read, read', deserialize_spellings.2.2 settings .string both root e level rfl parsed
    (List.mem_of_getElem? listed) named (.inl twice)⟩

end Document

end Terminology
