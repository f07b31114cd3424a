import Terminology.Proofs.Document.Tag
import Terminology.Proofs.Markup.Assembly
import Terminology.Proofs.Text.Trim

/-!
The tags of an element tree, printed one to a line behind the declaration, read back as that
tree.
-/

namespace Terminology

open Markup Text

namespace Markup.Element

mutual

/-- The tags that an element is written as; it has no character data. -/
def tags : Element → List Tag
  | element name attributes children _ =>
      match children with
      | [] => [.empty name attributes]
      | e :: es => .opening name attributes :: tags e ++ tagsAll es ++ [.closing name]

def tagsAll : List Element → List Tag
  | [] => []
  | e :: es => tags e ++ tagsAll es

end

inductive Writable : Element → Prop
  | element {name : String} {attributes : List Attribute} {children : List Element}
      (valid : IsName name.toList) (named : Named attributes)
      (below : ∀ e ∈ children, Writable e) : Writable (.element name attributes children "")

theorem closingName_name {name : List Char} (valid : IsName name) :
    Assembly.closingName name = name := by
  obtain ⟨some_char, chars⟩ := valid
  have last : name.reverse.dropWhile isMarkupSpace = name.reverse := by
    obtain ⟨c, others, shape⟩ :=
      List.exists_cons_of_ne_nil (l := name.reverse) (by simpa using some_char)
    have bare : isMarkupSpace c = false :=
      not_isMarkupSpace_of_isNameChar (chars c (List.mem_reverse.mp (by rw [shape]; simp)))
    rw [shape, List.dropWhile_cons, bare]
    rfl
  have trimmed : trimEnd name = name := by rw [trimEnd, last, List.reverse_reverse]
  rw [Assembly.closingName, trimmed]
  split <;> rfl

theorem ofTag_inside {name : String} {attributes : List Attribute} (valid : IsName name.toList)
    (named : Named attributes) :
    Frame.ofTag (Tag.inside name attributes) = .ok ⟨name.toList, attributes, [], []⟩ := by
  rw [Frame.ofTag, Tag.tagAttributes_inside valid named]
  simp only [Tag.tagName_inside valid]

mutual

/-- Reading the tags of an element gives it to the element that is open around it. -/
theorem reads_tags (maxDepth : Nat) (a : Assembly) (e : Element) (writable : e.Writable)
    (ready : a.Ready) (fits : a.stack.length + e.depth ≤ maxDepth) :
    Assembly.Reads maxDepth a (e.tags.map Tag.token) (a.receive e) := by
  obtain ⟨name, attributes, children, text⟩ := e
  obtain ⟨valid, named, below⟩ := writable
  have tag := ofTag_inside valid named
  cases children with
  | nil =>
      have closed : (⟨name.toList, attributes, [], []⟩ : Frame).close =
          .element name attributes [] "" := by simp [Frame.close]
      simp only [depth, depthAll] at fits
      rw [tags, List.map_singleton, Tag.token, ← closed]
      exact .single (.empty (by omega) ready tag)
  | cons e es =>
      simp only [depth, depthAll] at fits
      have opened : Assembly.Reads maxDepth a [(Tag.opening name attributes).token]
          { a with stack := ⟨name.toList, attributes, [], []⟩ :: a.stack } :=
        .single (.opening (by omega) ready tag)
      -- The children are read while the element is open, the first one before the others.
      have first := reads_tags maxDepth
        { a with stack := ⟨name.toList, attributes, [], []⟩ :: a.stack } e
        (below e List.mem_cons_self) nofun (by simp only [List.length_cons]; omega)
      have others := reads_tagsAll maxDepth
        { a with stack := ⟨name.toList, attributes, [e], []⟩ :: a.stack } es
        (fun other member => below other (List.mem_cons_of_mem e member)) rfl
        (by simp only [List.length_cons]; omega)
      have closed : (⟨name.toList, attributes, es.reverse ++ [e], []⟩ : Frame).close =
          .element name attributes (e :: es) "" := by simp [Frame.close]
      have ended : Assembly.Reads maxDepth
          { a with stack := ⟨name.toList, attributes, es.reverse ++ [e], []⟩ :: a.stack }
          [(Tag.closing name).token] (a.receive (.element name attributes (e :: es) "")) := by
        rw [← closed]
        exact .single (.closing rfl (closingName_name valid).symm ready)
      rw [tags, List.map_append, List.map_append, List.map_cons]
      exact ((opened.append first).append others).append ended

theorem reads_tagsAll (maxDepth : Nat) (a : Assembly) {f : Frame} {fs : List Frame}
    (es : List Element) (writable : ∀ e ∈ es, e.Writable) (stack : a.stack = f :: fs)
    (fits : a.stack.length + depthAll es ≤ maxDepth) :
    Assembly.Reads maxDepth a ((tagsAll es).map Tag.token)
      { a with stack := { f with children := es.reverse ++ f.children } :: fs } := by
  obtain ⟨offset, _, root⟩ := a
  cases stack
  cases es with
  | nil => exact .nil
  | cons e es =>
      simp only [depthAll, List.length_cons] at fits
      have first := reads_tags maxDepth ⟨offset, f :: fs, root⟩ e
        (writable e List.mem_cons_self) nofun (by simp only [List.length_cons]; omega)
      have others := reads_tagsAll maxDepth
        ⟨offset, { f with children := e :: f.children } :: fs, root⟩ es
        (fun other member => writable other (List.mem_cons_of_mem e member)) rfl
        (by simp only [List.length_cons]; omega)
      rw [tagsAll, List.map_append, List.reverse_cons, List.append_assoc]
      exact first.append others

end

end Markup.Element

theorem isIgnored_spaces {cs : List Char} (spaces : ∀ c ∈ cs, isMarkupSpace c = true) :
    (Token.text cs).isIgnored = true := by
  rw [Token.isIgnored, trim_eq_nil_iff.mpr spaces]
  rfl

namespace Printer

def margin (indent level : Nat) : List Char := '\n' :: List.replicate (indent * level) ' '

theorem margin_spaces (indent level : Nat) :
    ∀ c ∈ margin indent level, isMarkupSpace c = true := by
  intro c member
  rcases List.mem_cons.mp member with rfl | member
  · rfl
  · rw [(List.mem_replicate.mp member).2]
    rfl

theorem lines_put (indent : Nat) (p : Printer) (tag : Tag) :
    ∃ level, (p.put indent tag).lines = (margin indent level ++ tag.text) :: p.lines := by
  cases tag with
  | opening name attributes => exact ⟨p.level, rfl⟩
  | empty name attributes => exact ⟨p.level, rfl⟩
  | closing name => exact ⟨p.level - 1, rfl⟩

theorem text_head (tag : Tag) : tag.text.head? = some '<' := by
  cases tag <;> rfl

theorem ofText_line (indent level : Nat) (tag : Tag) (named : tag.Named) (rest : List Char) :
    Scan.ofText (margin indent level ++ (tag.text ++ rest)) =
      ((Scan.ofText rest).prepend tag.token).prepend (.text (margin indent level)) := by
  rw [Scan.ofText_run, Tag.ofText_text tag named rest]
  · exact List.cons_ne_nil _ _
  · intro c member
    have space := margin_spaces indent level c member
    intro same
    subst same
    cases space
  · right
    rw [List.head?_append, text_head]
    rfl

theorem isIgnored_token (tag : Tag) : tag.token.isIgnored = false := by
  cases tag <;> rfl

theorem ofText_lines (indent : Nat) (tags : List Tag) (named : ∀ tag ∈ tags, tag.Named)
    (p : Printer) (rest : List Char) :
    ∃ body, (tags.foldl (put indent) p).lines.reverse.flatten = p.lines.reverse.flatten ++ body ∧
      (Scan.ofText (body ++ rest)).fault = (Scan.ofText rest).fault ∧
      (Scan.ofText (body ++ rest)).tokens.filter (!·.isIgnored) =
        tags.map Tag.token ++ (Scan.ofText rest).tokens.filter (!·.isIgnored) := by
  induction tags generalizing p with
  | nil => exact ⟨[], by simp, rfl, rfl⟩
  | cons tag tags ih =>
      obtain ⟨body, printed, fault, tokens⟩ :=
        ih (fun other member => named other (List.mem_cons_of_mem tag member)) (p.put indent tag)
      obtain ⟨level, line⟩ := lines_put indent p tag
      have cut := ofText_line indent level tag (named tag List.mem_cons_self) (body ++ rest)
      have blank := isIgnored_spaces (margin_spaces indent level)
      refine ⟨margin indent level ++ tag.text ++ body, ?_, ?_, ?_⟩
      · rw [List.foldl_cons, printed, line]
        simp
      · rw [List.append_assoc, List.append_assoc, cut]
        exact fault
      · rw [List.append_assoc, List.append_assoc, cut, Scan.prepend, Scan.prepend,
          List.filter_cons_of_neg (by simp [blank]),
          List.filter_cons_of_pos (by simp [isIgnored_token]), tokens]
        rfl

end Printer

namespace Markup.Element

theorem ofText_declaration (rest : List Char) :
    ∃ content, Scan.ofText (Expression.declaration ++ rest) =
      (Scan.ofText rest).prepend (.declaration content) := by
  let content := "xml version=\"1.0\" encoding=\"UTF-8\"".toList
  have shape : Expression.declaration ++ rest =
      '<' :: '?' :: ((content ++ ['?']) ++ '>' :: rest) := rfl
  have through : (content ++ ['?']).foldlM (Token.behindMarks '?' 1) 1 = some 1 := by decide
  have cut : Token.cut (Token.behindMarks '?' 1) 1 [] ((content ++ ['?']) ++ '>' :: rest) =
      some (content ++ ['?'], rest) := Token.cut_stop through rfl
  refine ⟨content, ?_⟩
  rw [shape]
  apply Scan.ofText_token
  rw [Token.readMarkup, Token.readInstruction, cut]
  rfl

mutual

theorem named_tags (e : Element) (writable : e.Writable) : ∀ tag ∈ e.tags, tag.Named := by
  obtain ⟨name, attributes, children, text⟩ := e
  obtain ⟨valid, named, below⟩ := writable
  cases children with
  | nil =>
      intro tag member
      rw [tags, List.mem_singleton] at member
      rw [member]
      exact ⟨valid, named⟩
  | cons e es =>
      have first := named_tags e (below e List.mem_cons_self)
      have others := named_tagsAll es fun other member =>
        below other (List.mem_cons_of_mem e member)
      intro tag member
      rw [tags, List.mem_append, List.mem_append, List.mem_cons, List.mem_singleton] at member
      rcases member with ((rfl | member) | member) | rfl
      · exact ⟨valid, named⟩
      · exact first tag member
      · exact others tag member
      · exact valid

theorem named_tagsAll (es : List Element) (writable : ∀ e ∈ es, e.Writable) :
    ∀ tag ∈ tagsAll es, tag.Named := by
  cases es with
  | nil =>
      intro tag member
      cases member
  | cons e es =>
      have first := named_tags e (writable e List.mem_cons_self)
      have others := named_tagsAll es fun other member =>
        writable other (List.mem_cons_of_mem e member)
      intro tag member
      rcases List.mem_append.mp member with member | member
      · exact first tag member
      · exact others tag member

end

def printed (indent : Nat) (e : Element) : String :=
  String.ofList (Expression.declaration ++
    (e.tags.foldl (Printer.put indent) .start).lines.reverse.flatten ++ ['\n'])

theorem parse_printed {limits : Limits} {indent : Nat} {e : Element} (writable : e.Writable)
    (shallow : e.depth ≤ limits.maxDepth)
    (small : (e.printed indent).utf8ByteSize ≤ limits.maxBytes) :
    parse limits (e.printed indent) = .ok e := by
  obtain ⟨body, lines, fault, tokens⟩ :=
    Printer.ofText_lines indent e.tags (named_tags e writable) .start ['\n']
  obtain ⟨content, cut⟩ := ofText_declaration (body ++ ['\n'])
  have last : Scan.ofText ['\n'] = ⟨[.text ['\n']], none⟩ := by
    have run : Scan.ofText (['\n'] ++ []) = (Scan.ofText []).prepend (.text ['\n']) :=
      Scan.ofText_run (by simp) (by simp) (.inl rfl)
    rwa [Scan.ofText_nil] at run
  have chars : (e.printed indent).toList = Expression.declaration ++ (body ++ ['\n']) := by
    rw [printed, String.toList_ofList, lines, List.append_assoc]
    rfl
  have unmarked : withoutMark (e.printed indent).toList = (e.printed indent).toList := by
    rw [chars]
    rfl
  -- What is left besides the tags are the declaration, the margins and the line feed at the end.
  rw [last] at fault tokens
  have blank : (Token.text ['\n']).isIgnored = true := rfl
  have significant : ((Scan.ofText (body ++ ['\n'])).prepend (.declaration content)).tokens.filter
      (!·.isIgnored) = e.tags.map Tag.token := by
    rw [Scan.prepend, List.filter_cons_of_neg (by simp [Token.isIgnored]), tokens,
      List.filter_cons_of_neg (by simp [blank]), List.filter_nil, List.append_nil]
  have reads := reads_tags limits.maxDepth .start e writable
    (fun _ => rfl) (by simpa [Assembly.start] using shallow)
  rw [← significant] at reads
  refine parse_eq_ok_iff_reads.mpr ⟨small, ?_⟩
  rw [unmarked, chars, cut]
  exact ⟨fault, reads.of_filter⟩

end Markup.Element

end Terminology
