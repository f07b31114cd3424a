import Terminology.Proofs.Markup.Order
import Terminology.Proofs.Markup.Place
import Terminology.Proofs.Markup.Size

/-!
Where an XML declaration may stand: wherever a comment may. A text with a declaration behind any
whole tokens has the outcome, element or fault, of the text with a comment of the same size in its
place. All other markup that begins like a declaration is refused.
-/

namespace Terminology.Markup

open Text

namespace Assembly

variable {maxDepth : Nat} {a : Assembly} {t u : Token}

theorem step_of_isIgnored (ignored : t.isIgnored = true) (ignored' : u.isIgnored = true)
    (size : byteLength t.source = byteLength u.source) : step maxDepth a t = step maxDepth a u := by
  rw [step, step, interpret_of_ignored ignored, interpret_of_ignored ignored', size]

end Assembly

namespace Element

variable {t u : Token}

section

variable (ignored : t.isIgnored = true) (ignored' : u.isIgnored = true)
  (size : byteLength t.source = byteLength u.source)

include ignored ignored' size

theorem ofScan_exchange (maxDepth : Nat) (before after : List Token) (fault : Option Fault) :
    ofScan maxDepth ⟨before ++ t :: after, fault⟩ =
      ofScan maxDepth ⟨before ++ u :: after, fault⟩ := by
  have run : (before ++ t :: after).foldlM (Assembly.step maxDepth) .start =
      (before ++ u :: after).foldlM (Assembly.step maxDepth) .start := by
    rw [List.foldlM_append, List.foldlM_append]
    apply congrArg
    funext a
    rw [List.foldlM_cons, List.foldlM_cons, Assembly.step_of_isIgnored ignored ignored' size]
  rw [ofScan, ofScan, run]

/-- Markup that is ignored may be exchanged for other markup of its size that is. -/
theorem parse_exchange_ignored {limits : Limits} {front markup markup' after : List Char}
    {text other : String} (whole : (Scan.ofText front).fault = none) (complete : t.Complete)
    (complete' : u.Complete) (begins : t.source = '<' :: markup)
    (begins' : u.source = '<' :: markup') (shape : text.toList = front ++ t.source ++ after)
    (shape' : other.toList = front ++ u.source ++ after) :
    parse limits text = parse limits other := by
  have bytes : text.utf8ByteSize = other.utf8ByteSize := by
    rw [← byteLength_toList, ← byteLength_toList, shape, shape']
    simp only [byteLength_append, size]
  have tokens {v : Token} {inner : List Char} (complete : v.Complete)
      (begins : v.source = '<' :: inner) :
      Scan.ofText (withoutMark (front ++ v.source ++ after)) =
        ⟨(Scan.ofText (withoutMark front)).tokens ++ v :: (Scan.ofText after).tokens,
          (Scan.ofText after).fault⟩ := by
    have cut := ofText_complete complete begins after
    rw [begins, List.cons_append] at cut
    rw [begins, List.append_assoc, List.cons_append, ofText_behind whole, cut]
    rfl
  rw [parse, parse, bytes, shape, shape', tokens complete begins, tokens complete' begins',
    ofScan_exchange ignored ignored' size]

end

theorem declares_of_parse {limits : Limits} {text : String} {e : Element} {rest : List Char}
    (read : parse limits text = .ok e) (member : t ∈ tokens text)
    (begins : t.source = '<' :: '?' :: rest) :
    ∃ content, t = .declaration content ∧ Token.Declares content := by
  rcases parse_eq_ok_iff.mp read with ⟨-, -, whole, pieces, holds, -⟩
  have permitted := (holds.legible t member).permitted
  have complete := (Scan.written_of_ofText whole).2 t member permitted
  have cut := Token.readMarkup_of_complete complete begins []
  rcases Token.readInstruction_eq_ok_iff.mp cut with ⟨content, -, -, rfl⟩
  cases declared : Token.isDeclaration content with
  | true => exact ⟨content, rfl, Token.isDeclaration_iff.mp declared⟩
  | false =>
      rw [declared] at permitted
      cases permitted

/-- A declaration is passed over wherever it stands, any number of times: behind any whole tokens
it may be exchanged for a comment of the same size, with three bytes less inside since its marks
have three more, and the outcome is the same, whatever follows. Other markup that begins like a
declaration is in no text that is accepted. -/
theorem parse_declaration_eq_comment (limits : Limits) :
    (∀ (front content remark after : List Char) (text other : String),
      (Scan.ofText front).fault = none → (Token.declaration content).Complete →
      (Token.comment remark).Complete → byteLength content = byteLength remark + 3 →
      text.toList = front ++ (Token.declaration content).source ++ after →
      other.toList = front ++ (Token.comment remark).source ++ after →
        parse limits text = parse limits other) ∧
    ∀ text e, parse limits text = .ok e → ∀ t ∈ tokens text, ∀ rest,
      t.source = '<' :: '?' :: rest → ∃ content, t = .declaration content ∧
        Token.Declares content := by
  constructor
  · intro front content remark after text other whole complete complete' size shape shape'
    have bytes : byteLength (Token.declaration content).source =
        byteLength (Token.comment remark).source := by
      have opening : byteLength "<!--".toList = 4 := rfl
      have ending : byteLength "-->".toList = 3 := rfl
      have marks : byteLength ['<', '?'] = 2 := rfl
      have marks_behind : byteLength ['?', '>'] = 2 := rfl
      have declaration : (Token.declaration content).source =
          ['<', '?'] ++ content ++ ['?', '>'] := rfl
      have comment : (Token.comment remark).source =
          "<!--".toList ++ remark ++ "-->".toList := rfl
      rw [declaration, comment]
      simp only [byteLength_append, opening, ending, marks, marks_behind]
      omega
    exact parse_exchange_ignored rfl rfl bytes whole complete complete' rfl rfl shape shape'
  · intro text e read t member rest begins
    exact declares_of_parse read member begins

/-- A second declaration, behind text in an element, and a third one behind the root. -/
theorem parse_declaration_eq_comment_inside :
    let front := "<?xml version='1.0'?><a> b "
    let content := "xml version='9'"
    let remark := " version='9'"
    let after := " c</a> <?xml?>"
    let text := "<?xml version='1.0'?><a> b <?xml version='9'?> c</a> <?xml?>"
    let other := "<?xml version='1.0'?><a> b <!-- version='9'--> c</a> <?xml?>"
    ((Scan.ofText front.toList).fault = none ∧ (Token.declaration content.toList).Complete ∧
      (Token.comment remark.toList).Complete ∧
      byteLength content.toList = byteLength remark.toList + 3 ∧
      text.toList = front.toList ++ (Token.declaration content.toList).source ++ after.toList ∧
      other.toList = front.toList ++ (Token.comment remark.toList).source ++ after.toList) ∧
    parse {} text = parse {} other ∧
    ∃ e, parse {} text = .ok e ∧ e.text = "bc" ∧
      .declaration content.toList ∈ tokens text ∧ Token.Declares content.toList := by
  intro front content remark after text other
  have whole : (Scan.ofText front.toList).fault = none := by decide +kernel
  have complete : (Token.declaration content.toList).Complete :=
    ⟨Token.isDeclaration_iff.mp (by decide +kernel), by decide +kernel⟩
  have complete' : (Token.comment remark.toList).Complete := by
    show ¬ _ <:+: _
    decide +kernel
  have size : byteLength content.toList = byteLength remark.toList + 3 := by decide +kernel
  have shape : text.toList =
      front.toList ++ (Token.declaration content.toList).source ++ after.toList := by decide +kernel
  have shape' : other.toList =
      front.toList ++ (Token.comment remark.toList).source ++ after.toList := by decide +kernel
  have known : (parse {} text).toOption.map Element.text = some "bc" := by decide +kernel
  have member : .declaration content.toList ∈ tokens text := by decide +kernel
  rcases exists_of_view known with ⟨e, parsed, data⟩
  rcases parse_declaration_eq_comment {} with ⟨exchanged, declares⟩
  have same := exchanged _ _ _ _ text other whole complete complete' size shape shape'
  rcases declares text e parsed _ member _ rfl with ⟨_, shared, declared⟩
  cases shared
  exact ⟨⟨whole, complete, complete', size, shape, shape'⟩, same, e, parsed, data, member, declared⟩

/-- Declarations behind white space, inside the root and behind it, in a text that is accepted:
neither is there only one nor is the first at the very beginning. -/
theorem declarations_out_of_place :
    let text := " <?xml?><a><?xml?></a><?xml?>"
    let declaration : Token := .declaration "xml".toList
    (∃ e, parse {} text = .ok e) ∧
    tokens text = [.text [' '], declaration, .opening ['a'], declaration, .closing ['a'],
      declaration] ∧
    ¬ ∀ (limits : Limits) (text : String) (e : Element), parse limits text = .ok e →
      ∀ before content after, tokens text = before ++ .declaration content :: after →
        before = [] := by
  intro text declaration
  have known : (parse {} text).toOption.map name = some "a" := by decide +kernel
  rcases exists_of_view known with ⟨e, parsed, -⟩
  have cut : tokens text = [.text [' '], declaration, .opening ['a'], declaration,
      .closing ['a'], declaration] := by decide +kernel
  refine ⟨⟨e, parsed⟩, cut, ?_⟩
  intro first_only
  cases first_only {} text e parsed [.text [' ']] _ _ cut

end Element

end Terminology.Markup
