import Terminology.Proofs.Document.Exchange
import Terminology.Proofs.Markup.Content

/-!
What is refused wherever it stands, and what is replaced in what is accepted. Markup that could
declare or include anything is refused behind any complete tokens, whatever follows it. Every
ampersand that means anything begins a reference to a character.
-/

namespace Terminology

open Text Markup

namespace Markup

/-- The target of a processing instruction: all before white space or the closing mark. -/
def target : List Char → List Char
  | [] => []
  | '?' :: '>' :: _ => []
  | c :: cs => if isMarkupSpace c then [] else c :: target cs

/-- Markup that no document may hold, with whatever stands behind it: a document type declaration
in letters of either case, or a processing instruction for another target than `xml`. -/
inductive Forbidden : List Char → Prop
  | doctype {word rest : List Char} (named : word.map lowerCase = "doctype".toList) :
      Forbidden ('<' :: '!' :: (word ++ rest))
  | instruction {rest : List Char} (other : target rest ≠ "xml".toList) :
      Forbidden ('<' :: '?' :: rest)

theorem target_space {c : Char} (space : isMarkupSpace c = true) (cs : List Char) :
    target (c :: cs) = [] := by
  unfold target
  split
  · rfl
  · rfl
  · rename_i shape
    rw [← (List.cons.inj shape).1, if_pos space]

theorem target_declares {content : List Char} (declares : Token.Declares content)
    (rest : List Char) : target (content ++ '?' :: '>' :: rest) = "xml".toList := by
  obtain ⟨behind, rfl, spaced⟩ := declares
  cases behind with
  | nil => rfl
  | cons c behind =>
      have none_left : target (c :: (behind ++ '?' :: '>' :: rest)) = [] :=
        target_space (spaced c rfl) _
      simp [target, isMarkupSpace, none_left]

theorem isRefused_instruction {cs rest : List Char} {t : Token}
    (other : target cs ≠ "xml".toList) (read : Token.readInstruction cs = .ok (t, rest)) :
    t.isRefused = true := by
  obtain ⟨content, rfl, -, rfl⟩ := Token.readInstruction_eq_ok_iff.mp read
  cases declared : Token.isDeclaration content with
  | false => rfl
  | true => exact absurd (target_declares (Token.isDeclaration_iff.mp declared) rest) other

theorem isRefused_doctype {word cs rest : List Char} {t : Token}
    (named : word.map lowerCase = "doctype".toList)
    (read : Token.readBang (word ++ cs) = .ok (t, rest)) : t.isRefused = true := by
  cases word with
  | nil => cases named
  | cons d others =>
      have letter : lowerCase d = 'd' := (List.cons.inj named).1
      -- Neither of the marks of a comment and of verbatim text is a letter.
      rcases Token.split_of_readBang read with ⟨content, -, shape, -⟩ | ⟨content, -, shape, -⟩ |
        ⟨found, content, rfl, -⟩
      · rw [show d = '-' from (List.cons.inj shape).1] at letter
        cases letter
      · rw [show d = '[' from (List.cons.inj shape).1] at letter
        cases letter
      · rfl

theorem isRefused_of_forbidden {cs rest : List Char} {t : Token} (forbidden : Forbidden ('<' :: cs))
    (read : Token.readMarkup cs = .ok (t, rest)) : t.isRefused = true := by
  cases forbidden with
  | doctype named => exact isRefused_doctype named read
  | instruction other => exact isRefused_instruction other read

/-- What every token of an accepted text is like: character data stands for something, the inside
of a start tag is a name and attributes, whose values stand for something, and none is refused. -/
def Token.Legible : Token → Prop
  | .text raw => ∃ value, Stands raw value
  | .opening content | .empty content => ∃ name attributes, Tagged content name attributes
  | .closing _ | .comment _ | .verbatim _ | .declaration _ => True
  | .instruction _ | .doctype .. => False

theorem legible_of_ignored {t : Token} (none_read : t.isIgnored = true) : t.Legible := by
  cases t with
  | text raw =>
      have blank : trim raw = [] := List.isEmpty_iff.mp none_read
      exact stands_of_trim (by rw [blank]; exact .nil)
  | comment content => trivial
  | declaration content => trivial
  | _ => cases none_read

theorem Holds.legible {ts : List Token} {es : List Element} {pieces : List (List Char)}
    (holds : Holds ts es pieces) : ∀ t ∈ ts, t.Legible := by
  induction holds with
  | nil => exact List.forall_mem_nil _
  | ignored none_read _ ih => exact List.forall_mem_cons.mpr ⟨legible_of_ignored none_read, ih⟩
  | text _ stands _ ih => exact List.forall_mem_cons.mpr ⟨stands_of_trim stands, ih⟩
  | verbatim _ ih => exact List.forall_mem_cons.mpr ⟨trivial, ih⟩
  | leaf tagged _ ih => exact List.forall_mem_cons.mpr ⟨⟨_, _, tagged⟩, ih⟩
  | node tagged _ _ _ ih_inner ih =>
      exact List.forall_mem_cons.mpr ⟨⟨_, _, tagged⟩,
        List.forall_mem_append.mpr ⟨ih_inner, List.forall_mem_cons.mpr ⟨trivial, ih⟩⟩⟩

theorem Token.Legible.permitted {t : Token} (legible : t.Legible) : t.isRefused = false := by
  cases t with
  | instruction content => exact legible.elim
  | doctype word content => exact legible.elim
  | _ => rfl

theorem withoutMark_of_ne {c : Char} (other : c ≠ '\ufeff') (cs : List Char) :
    Element.withoutMark (c :: cs) = c :: cs := by
  unfold Element.withoutMark
  split
  · rename_i shape
    exact absurd (List.cons.inj shape).1 other
  · rfl

theorem withoutMark_complete {ts : List Token} (complete : ∀ t ∈ ts, t.Complete)
    (rest : List Char) :
    ∃ us : List Token, (∀ t ∈ us, t.Complete) ∧
      Element.withoutMark (ts.flatMap Token.source ++ '<' :: rest) =
        us.flatMap Token.source ++ '<' :: rest := by
  induction ts with
  | nil => exact ⟨[], List.forall_mem_nil _, rfl⟩
  | cons t ts ih =>
      obtain ⟨here, others⟩ := List.forall_mem_cons.mp complete
      rcases t.text_or_markup here with ⟨raw, rfl⟩ | ⟨markup, shape⟩
      · cases raw with
        | nil => exact ih others
        | cons c raw =>
            by_cases mark : c = '\ufeff'
            · have plain : (Token.text raw).Complete := (List.forall_mem_cons.mp here).2
              rw [mark]
              exact ⟨.text raw :: ts, List.forall_mem_cons.mpr ⟨plain, others⟩, rfl⟩
            · exact ⟨_, complete, withoutMark_of_ne mark _⟩
      · refine ⟨_, complete, ?_⟩
        rw [List.flatMap_cons, shape]
        rfl

/-- Behind complete tokens forbidden markup is cut off as a token that is refused, or it is not
cut off at all. -/
theorem not_parsed {limits : Limits} {ts : List Token} {markup : List Char} {text : String}
    (complete : ∀ t ∈ ts, t.Complete) (forbidden : Forbidden markup)
    (shape : text.toList = ts.flatMap Token.source ++ markup) (e : Element) :
    Element.parse limits text ≠ .ok e := by
  intro read
  obtain ⟨cs, rfl⟩ : ∃ cs, markup = '<' :: cs := by cases forbidden <;> exact ⟨_, rfl⟩
  obtain ⟨-, -, whole, pieces, holds, -⟩ := Element.parse_eq_ok_iff.mp read
  obtain ⟨us, unmarked, same⟩ := withoutMark_complete complete cs
  obtain ⟨before, cut⟩ := Scan.endsIn_complete unmarked cs
  rw [shape, same, cut] at whole holds
  cases found : Token.readMarkup cs with
  | error fault =>
      rw [Scan.ofText_fault found] at whole
      cases whole
  | ok next =>
      obtain ⟨t, rest⟩ := next
      have member : t ∈ before ++ (Scan.ofText ('<' :: cs)).tokens := by
        rw [Scan.ofText_token found]
        exact List.mem_append_right before List.mem_cons_self
      have permitted := (holds.legible t member).permitted
      rw [isRefused_of_forbidden forbidden found] at permitted
      cases permitted

/-- What is accepted is complete tokens from the first character to the last, that hold the
element that was read. -/
theorem written_of_parse {limits : Limits} {text : String} {e : Element}
    (read : Element.parse limits text = .ok e) :
    ∃ ts pieces, Element.withoutMark text.toList = ts.flatMap Token.source ∧
      (∀ t ∈ ts, t.Complete ∧ t.Legible) ∧ Holds ts [e] pieces ∧
        ∀ piece ∈ pieces, isBlank piece = true := by
  obtain ⟨-, -, whole, pieces, holds, blank⟩ := Element.parse_eq_ok_iff.mp read
  obtain ⟨source, complete⟩ := Scan.written_of_ofText whole
  refine ⟨_, pieces, source.symm, fun t member => ?_, holds, blank⟩
  have legible := holds.legible t member
  exact ⟨complete t member legible.permitted, legible⟩

end Markup

namespace Document

/-- Forbidden markup is refused behind any complete tokens, whatever follows it. What is accepted
is complete tokens that hold the element that was read; in its character data and attribute values
every ampersand begins a reference, and each text stands for one text, in which what a reference
stands for is not looked at again. -/
theorem refuses_forbidden_replaces_references :
    (∀ (settings : Settings) (ts : List Token) (markup : List Char) (text : String),
      (∀ t ∈ ts, t.Complete) → Forbidden markup →
      text.toList = ts.flatMap Token.source ++ markup →
        ∃ m, Element.parse settings.toLimits text = .error m ∧
          deserialize settings text = .error (.markup m)) ∧
    (∀ (limits : Limits) (text : String) (e : Element), Element.parse limits text = .ok e →
      ∃ ts pieces, Element.withoutMark text.toList = ts.flatMap Token.source ∧
        (∀ t ∈ ts, t.Complete ∧ t.Legible) ∧ Holds ts [e] pieces ∧
          ∀ piece ∈ pieces, isBlank piece = true) ∧
    ∀ raw value : List Char, Stands raw value →
      (∀ before after, raw = before ++ '&' :: after →
        ∃ name c rest, after = name ++ ';' :: rest ∧ Refers name c) ∧
      ∀ other, Stands raw other → other = value := by
  refine ⟨?_, fun limits text e read => written_of_parse read, ?_⟩
  · intro settings ts markup text complete forbidden shape
    cases parsed : Element.parse settings.toLimits text with
    | error m => exact ⟨m, rfl, deserialize_of_parse_error parsed⟩
    | ok e => exact absurd parsed (not_parsed complete forbidden shape e)
  · intro raw value stands
    exact ⟨fun before after place => stands.reference_at place, fun other => stands.unique⟩

/-- What looks like forbidden markup in quotes, in a comment or in verbatim text is passed, and
behind it the real one is refused. -/
theorem refuses_forbidden_replaces_references_disguised :
    let settings : Settings := {}
    let before : List Token := [.declaration "xml version='1.0'".toList,
      .opening "a b='<!DOCTYPE a>'".toList, .comment "<!DOCTYPE a>".toList,
      .verbatim "<?b?>".toList, .text " &amp; ".toList]
    let doctype := "<?xml version='1.0'?><a b='<!DOCTYPE a>'><!--<!DOCTYPE a>-->" ++
      "<![CDATA[<?b?>]]> &amp; <!dOcType a [<!ENTITY b 'c'>]>&b;</a>"
    let accepted := "<a b='&#x41;'>&lt;&amp;lt;</a>"
    (∀ t ∈ before, t.Complete) ∧
    Forbidden "<!dOcType a [<!ENTITY b 'c'>]>&b;</a>".toList ∧
    (∃ m, Element.parse settings.toLimits doctype = .error m ∧
      deserialize settings doctype = .error (.markup m)) ∧
    (∃ e, Element.parse settings.toLimits accepted = .ok e ∧ e.text = "<&lt;" ∧
      e.attributes = [⟨"b", "A"⟩] ∧
      ∃ ts pieces, Element.withoutMark accepted.toList = ts.flatMap Token.source ∧
        (∀ t ∈ ts, t.Complete ∧ t.Legible) ∧ Holds ts [e] pieces ∧
          ∀ piece ∈ pieces, isBlank piece = true) ∧
    Stands "&#38;lt;".toList "&lt;".toList ∧
    (∀ before after, "&#38;lt;".toList = before ++ '&' :: after →
      ∃ name c rest, after = name ++ ';' :: rest ∧ Refers name c) := by
  intro settings before doctype accepted
  have declaration : (Token.declaration "xml version='1.0'".toList).Complete :=
    ⟨Token.isDeclaration_iff.mp (by decide +kernel), by decide +kernel⟩
  have opening : (Token.opening "a b='<!DOCTYPE a>'".toList).Complete := by
    refine ⟨⟨(Token.quoted_of_outsideQuotes _).1 (by decide +kernel), fun c head => ?_⟩,
      by decide +kernel⟩
    obtain rfl : 'a' = c := Option.some.inj head
    decide
  have comment : (Token.comment "<!DOCTYPE a>".toList).Complete := by
    show ¬ _ <:+: _
    decide +kernel
  have verbatim : (Token.verbatim "<?b?>".toList).Complete := by
    show ¬ _ <:+: _
    decide +kernel
  have text : (Token.text " &amp; ".toList).Complete := by
    have none_there : '<' ∉ " &amp; ".toList := by decide +kernel
    exact fun c member same => none_there (same ▸ member)
  have complete : ∀ t ∈ before, t.Complete := by
    simp only [before, List.forall_mem_cons]
    exact ⟨declaration, opening, comment, verbatim, text, List.forall_mem_nil _⟩
  have forbidden : Forbidden "<!dOcType a [<!ENTITY b 'c'>]>&b;</a>".toList :=
    @Forbidden.doctype "dOcType".toList " a [<!ENTITY b 'c'>]>&b;</a>".toList rfl
  have refused := refuses_forbidden_replaces_references.1 settings before _ doctype complete
    forbidden (by decide +kernel)
  have known : (Element.parse settings.toLimits accepted).toOption.map
      (fun e => (e.text, e.attributes)) = some ("<&lt;", [⟨"b", "A"⟩]) := by decide +kernel
  obtain ⟨e, parsed, view⟩ := Element.exists_of_view known
  obtain ⟨text, attributes⟩ := Prod.mk.inj view
  have stands : Stands "&#38;lt;".toList "&lt;".toList :=
    unescape_eq_ok_iff.mp (by decide +kernel)
  have written := refuses_forbidden_replaces_references.2.1 settings.toLimits accepted e parsed
  have references := (refuses_forbidden_replaces_references.2.2 _ _ stands).1
  exact ⟨complete, forbidden, refused, ⟨e, parsed, text, attributes, written⟩, stands, references⟩

end Document

end Terminology
