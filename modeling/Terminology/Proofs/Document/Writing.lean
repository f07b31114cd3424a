import Terminology.Proofs.Document.Exchange

/-!
What a written document looks like. Documents come from a writer that knows whether a line has to
be ended and how wide the margin is; it leaves both as they were when it is through with a tree, so
the document is the declaration and then the lines of the tree, each at the margin of its level.
-/

namespace Terminology

open Markup

/-- What documents record of a payload: keys and values in their order. -/
def Payload.record : Payload → List (String × String)
  | .empty | .literal none => []
  | .concept c => [("concept", c.text)]
  | .role r => [("role", r.text)]
  | .feature f comparison => [("feature", f.text), ("operator", comparison.text)]
  | .literal (some value) => [("value", value.text)]
  | .template t assemblage => [("template", t.text), ("assemblage", assemblage.text)]
  | .placeholder field false => [("field", field)]
  | .placeholder field true => [("field", field), ("deferred", "true")]

namespace Expression

def spelling : Char → List Char
  | '<' => "&lt;".toList
  | '>' => "&gt;".toList
  | '&' => "&amp;".toList
  | '\x27' => "&apos;".toList
  | '"' => "&quot;".toList
  | c => [c]

def attributeLine (recorded : String × String) : List Char :=
  ' ' :: recorded.1.toList ++ "=\"".toList ++ recorded.2.toList.flatMap spelling ++ ['"']

def tagLine (kind : Kind) (payload : Payload) : List Char :=
  kind.tag.toList ++ payload.record.flatMap attributeLine

def spaces (indent level : Nat) : List Char := List.replicate (indent * level) ' '

mutual

/-- The lines of a tree whose root is `level` levels below the root of the document. -/
def lines (indent level : Nat) : Expression → List (List Char)
  | node kind payload children =>
      match children with
      | [] => [spaces indent level ++ ['<'] ++ tagLine kind payload ++ ['/', '>']]
      | e :: es =>
          [spaces indent level ++ ['<'] ++ tagLine kind payload ++ ['>']] ++
            (lines indent (level + 1) e ++ linesAll indent (level + 1) es) ++
            [spaces indent level ++ ['<', '/'] ++ kind.tag.toList ++ ['>']]

def linesAll (indent level : Nat) : List Expression → List (List Char)
  | [] => []
  | e :: es => lines indent level e ++ linesAll indent level es

end

/-- The declaration and the lines of the tree, each with a line feed behind it. -/
def written (indent : Nat) (e : Expression) : String :=
  String.ofList ((declaration :: lines indent 0 e).flatMap fun line => line ++ ['\n'])

end Expression

/-- What has been written, whether the last line has to be ended before more is, and the width of
the margin. -/
structure Writer where
  output : List Char
  ending : Bool
  margin : Nat

namespace Writer

def start : Writer := ⟨[], false, 0⟩

def emit (w : Writer) (markup : List Char) : Writer :=
  let ended := if w.ending then '\n' :: List.replicate w.margin ' ' else []
  ⟨w.output ++ ended ++ markup, true, w.margin⟩

/-- Writes a tag; the margin grows behind an opening tag and shrinks in front of a closing one. -/
def put (indent : Nat) (w : Writer) (tag : Tag) : Writer :=
  match tag with
  | .opening .. => { w.emit tag.text with margin := w.margin + indent }
  | .empty .. => w.emit tag.text
  | .closing _ => { w with margin := w.margin - indent }.emit tag.text

mutual

/-- Writes a tree. The error is the kind of a literal without a value, with the tags in front of it
already written. -/
def write (indent : Nat) (w : Writer) : Expression → Except Kind Writer
  | .node kind payload children =>
      match payload.attributes? with
      | none => .error kind
      | some attributes =>
          match children with
          | [] => .ok (w.put indent (.empty kind.tag attributes))
          | e :: es =>
              match write indent (w.put indent (.opening kind.tag attributes)) e with
              | .error unset => .error unset
              | .ok first =>
                  (writeAll indent first es).map (·.put indent (.closing kind.tag))

def writeAll (indent : Nat) (w : Writer) : List Expression → Except Kind Writer
  | [] => .ok w
  | e :: es =>
      match write indent w e with
      | .error unset => .error unset
      | .ok first => writeAll indent first es

end

theorem emit_start (markup : List Char) : start.emit markup = ⟨markup, true, 0⟩ := rfl

mutual

/-- The writer is given the tags of the tree one after the other, and stops where there is none. -/
theorem write_eq (indent : Nat) (w : Writer) (e : Expression) :
    w.write indent e = e.tags.map fun tags => tags.foldl (put indent) w := by
  obtain ⟨kind, payload, children⟩ := e
  rw [write, Expression.tags]
  cases payload.attributes? with
  | none => rfl
  | some attributes =>
      cases children with
      | nil => rfl
      | cons e es =>
          simp only [write_eq indent _ e]
          cases e.tags with
          | error unset => rfl
          | ok first =>
              simp only [Except.map, writeAll_eq indent _ es]
              cases Expression.tagsAll es with
              | error unset => rfl
              | ok others => simp [List.foldl_append]

theorem writeAll_eq (indent : Nat) (w : Writer) (es : List Expression) :
    w.writeAll indent es = (Expression.tagsAll es).map fun tags => tags.foldl (put indent) w := by
  cases es with
  | nil => rfl
  | cons e es =>
      rw [writeAll, Expression.tagsAll, write_eq indent w e]
      cases e.tags with
      | error unset => rfl
      | ok first =>
          simp only [Except.map, writeAll_eq indent _ es]
          cases Expression.tagsAll es with
          | error unset => rfl
          | ok others => simp [List.foldl_append]

end

/-- The writer is where a printer of lines is that began behind `front`. -/
structure Follows (indent : Nat) (front : List Char) (p : Printer) (w : Writer) : Prop where
  output : w.output = front ++ p.lines.reverse.flatten
  ending : w.ending = true
  margin : w.margin = indent * p.level

variable {indent level : Nat} {front : List Char} {p : Printer} {w : Writer}

theorem Follows.put (follows : Follows indent front p w) (tag : Tag) :
    Follows indent front (p.put indent tag) (w.put indent tag) := by
  obtain ⟨output, ending, margin⟩ := follows
  cases tag with
  | opening name attributes =>
      constructor
      · simp [Writer.put, Printer.put, Printer.line, emit, output, ending, margin]
      · rfl
      · simp [Writer.put, Printer.put, emit, margin, Nat.mul_add]
  | empty name attributes =>
      constructor
      · simp [Writer.put, Printer.put, Printer.line, emit, output, ending, margin]
      · rfl
      · exact margin
  | closing name =>
      have outer : w.margin - indent = indent * (p.level - 1) := by
        rw [margin, Nat.mul_sub_one]
      constructor
      · simp [Writer.put, Printer.put, Printer.line, emit, output, ending, outer]
      · rfl
      · exact outer

theorem Follows.foldl_put (follows : Follows indent front p w) (tags : List Tag) :
    Follows indent front (tags.foldl (Printer.put indent) p)
      (tags.foldl (Writer.put indent) w) := by
  induction tags generalizing p w with
  | nil => exact follows
  | cons tag tags ih => exact ih (follows.put tag)

theorem document_eq (indent : Nat) (e : Expression) :
    e.document indent = ((start.emit Expression.declaration).write indent e).map fun w =>
      String.ofList (w.output ++ ['\n']) := by
  have began : Follows indent Expression.declaration .start (start.emit Expression.declaration) :=
    ⟨rfl, rfl, rfl⟩
  rw [Expression.document, write_eq]
  cases e.tags with
  | error unset => rfl
  | ok tags =>
      have ended := (began.foldl_put tags).output
      simp only [Except.map, ended]

end Writer

theorem escape_eq (cs : List Char) : escape cs = cs.flatMap Expression.spelling := by
  have each (c : Char) : escapeChar c = Expression.spelling c := by
    fun_cases Expression.spelling c with
    | case6 c less greater ampersand apostrophe quote =>
        rw [escapeChar, if_neg less, if_neg greater, if_neg ampersand, if_neg apostrophe,
          if_neg quote]
    | _ => rfl
  rw [escape, funext each]

theorem Payload.attributes_text (p : Payload) :
    p.attributes.flatMap Tag.attributeText = p.record.flatMap Expression.attributeLine := by
  have each (key value : String) :
      Tag.attributeText ⟨key, value⟩ = Expression.attributeLine (key, value) := by
    simp [Tag.attributeText, Expression.attributeLine, escape_eq]
  cases p with
  | empty => rfl
  | concept _ | role _ => simp [attributes, attributes?, record, each]
  | feature _ _ | template _ _ => simp [attributes, attributes?, record, each]
  | literal value => cases value <;> simp [attributes, attributes?, record, each]
  | placeholder field deferred => cases deferred <;> simp [attributes, attributes?, record, each]

theorem Tag.text_inside (kind : Kind) (payload : Payload) :
    '<' :: kind.tag.toList ++ payload.attributes.flatMap attributeText =
      ['<'] ++ Expression.tagLine kind payload := by
  rw [Expression.tagLine, payload.attributes_text]
  rfl

namespace Writer

variable {indent level : Nat} {w : Writer}

/-- The writer with some more lines written, wherever its margin is. -/
def append (w : Writer) (lines : List (List Char)) : Writer :=
  { w with output := w.output ++ lines.flatMap fun line => '\n' :: line }

theorem append_append (w : Writer) (lines others : List (List Char)) :
    (w.append lines).append others = w.append (lines ++ others) := by
  simp [append]

theorem emit_eq (ready : w.ending = true) (at_level : w.margin = indent * level)
    (markup : List Char) : w.emit markup = w.append [Expression.spaces indent level ++ markup] := by
  simp [emit, append, Expression.spaces, ready, at_level]

theorem put_around (ready : w.ending = true) (at_level : w.margin = indent * level) (name : String)
    (attributes : List Attribute) (inner : List (List Char)) :
    ((w.put indent (.opening name attributes)).append inner).put indent (.closing name) =
      w.append ([Expression.spaces indent level ++ (Tag.opening name attributes).text] ++ inner ++
        [Expression.spaces indent level ++ (Tag.closing name).text]) := by
  simp [put, append, emit, Expression.spaces, ready, at_level]

mutual

/-- Writing a legal tree adds its lines. The last line is to be ended and the margin is as wide as
before, so that what comes next is written at the same level. -/
theorem write_legal {e : Expression} (legal : e.Legal) (w : Writer) {level : Nat}
    (ready : w.ending = true) (at_level : w.margin = indent * level) :
    w.write indent e = .ok (w.append (e.lines indent level)) := by
  obtain ⟨kind, payload, children⟩ := e
  have below := (Expression.legal_node_iff.mp legal).2
  have inside := Tag.text_inside kind payload
  rw [write, legal.attributes]
  cases children with
  | nil =>
      have line : (Tag.empty kind.tag payload.attributes).text =
          ['<'] ++ Expression.tagLine kind payload ++ ['/', '>'] := by rw [Tag.text, inside]
      simp only [put, emit_eq ready at_level, line, List.append_assoc, Expression.lines]
  | cons e es =>
      have line : (Tag.opening kind.tag payload.attributes).text =
          ['<'] ++ Expression.tagLine kind payload ++ ['>'] := by rw [Tag.text, inside]
      have deeper : (w.put indent (.opening kind.tag payload.attributes)).margin =
          indent * (level + 1) := by
        rw [put, Nat.mul_succ, ← at_level]
      have first := write_legal (below e List.mem_cons_self)
        (w.put indent (.opening kind.tag payload.attributes)) rfl deeper
      have legal_behind : ∀ other ∈ es, other.Legal := by
        intro other member
        exact below other (List.mem_cons_of_mem e member)
      have others := writeAll_legal legal_behind
        ((w.put indent (.opening kind.tag payload.attributes)).append
          (e.lines indent (level + 1))) rfl deeper
      simp only [first, others, Except.map, append_append, put_around ready at_level, line,
        Expression.lines]
      simp [Tag.text]

theorem writeAll_legal {es : List Expression} (legal : ∀ e ∈ es, e.Legal) (w : Writer)
    {level : Nat} (ready : w.ending = true) (at_level : w.margin = indent * level) :
    w.writeAll indent es = .ok (w.append (Expression.linesAll indent level es)) := by
  cases es with
  | nil => simp [writeAll, append, Expression.linesAll]
  | cons e es =>
      have first := write_legal (legal e List.mem_cons_self) w ready at_level
      have legal_behind : ∀ other ∈ es, other.Legal := by
        intro other member
        exact legal other (List.mem_cons_of_mem e member)
      have others := writeAll_legal legal_behind (w.append (e.lines indent level)) ready at_level
      simp only [writeAll, first, others, append_append, Expression.linesAll]

end

end Writer

theorem flatMap_lines (first : List Char) (lines : List (List Char)) :
    (first ++ lines.flatMap fun line => '\n' :: line) ++ ['\n'] =
      (first :: lines).flatMap fun line => line ++ ['\n'] := by
  induction lines generalizing first with
  | nil => simp
  | cons second lines ih =>
      calc
        (first ++ (second :: lines).flatMap fun line => '\n' :: line) ++ ['\n']
          = first ++ ['\n'] ++ ((second ++ lines.flatMap fun line => '\n' :: line) ++ ['\n']) := by
              simp
        _ = first ++ ['\n'] ++ (second :: lines).flatMap fun line => line ++ ['\n'] := by rw [ih]
        _ = (first :: second :: lines).flatMap fun line => line ++ ['\n'] := rfl

theorem Expression.document_of_valid {e : Expression} (valid : e.validate = .ok ())
    (indent : Nat) : e.document indent = .ok (e.written indent) := by
  have legal : e.Legal := (validateAt_eq_ok_iff _ e).mp valid
  have wrote := Writer.write_legal legal ⟨declaration, true, 0⟩ rfl (Nat.mul_zero indent).symm
  rw [Writer.document_eq, Writer.emit_start, wrote, written, ← flatMap_lines]
  rfl

namespace Document

/-- Writing in terms of the lines of a tree: the writer, which may be stopped, has gone. -/
theorem serialize_eq (settings : Settings) (e : Expression) :
    serialize settings e =
      if settings.maxDepth < e.depth then
        .error (.invalid ⟨.root e.kind.tag, .tooDeep e.depth settings.maxDepth⟩)
      else
        match e.validate with
        | .error refused => .error (.invalid refused)
        | .ok () =>
            let text := e.written settings.indent
            if settings.maxBytes < text.utf8ByteSize then
              .error (.invalid ⟨.root e.kind.tag, .tooLarge text.utf8ByteSize settings.maxBytes⟩)
            else .ok text := by
  by_cases deep : settings.maxDepth < e.depth
  · simp only [serialize, checkWritable, if_pos deep]
  · cases valid : e.validate with
    | error refused => simp only [serialize, checkWritable, if_neg deep, valid]
    | ok _ =>
        simp only [serialize, checkWritable, if_neg deep, valid,
          Expression.document_of_valid valid]

variable {settings : Settings} {e : Expression} {text : String} {result : Except Unwritten String}

/-- What is written of a valid tree, at every indentation, is the declaration and the lines of the
tree; it is written within the limits and not beyond them. -/
theorem serialize_eq_ok_iff_lines : serialize settings e = .ok text ↔
    e.validate = .ok () ∧ e.depth ≤ settings.maxDepth ∧
      (e.written settings.indent).utf8ByteSize ≤ settings.maxBytes ∧
      text = e.written settings.indent := by
  rw [serialize_eq]
  by_cases deep : settings.maxDepth < e.depth
  · simp [deep, Nat.not_le.mpr deep]
  · cases valid : e.validate with
    | error refused => simp [deep]
    | ok _ =>
        by_cases large : settings.maxBytes < (e.written settings.indent).utf8ByteSize
        · simp [deep, large, Nat.not_le.mpr large]
        · simp [deep, large, Nat.not_lt.mp deep, Nat.not_lt.mp large, eq_comm]

example :
    (Expression.connective .and [.literal (.string "<"),
      .roleAll ⟨⟨7⟩⟩ (.connective .or [])]).written 2 =
    "<?xml version=\"1.0\" encoding=\"UTF-8\"?>\n" ++
    "<and>\n" ++
    "  <literal-string value=\"&lt;\"/>\n" ++
    "  <role-all role=\"00000000-0000-0000-0000-000000000007\">\n" ++
    "    <or/>\n" ++
    "  </role-all>\n" ++
    "</and>\n" := by
  decide +kernel

/-- What writing a tree comes to. A tree that is too deep is refused for that, whatever else is
wrong with it; an invalid one for the first rule that it breaks; and a valid one for the size of
its document, or else the whole document is the answer. -/
inductive Outcome (settings : Settings) (e : Expression) : Except Unwritten String → Prop
  | tooDeep (deep : settings.maxDepth < e.depth) : Outcome settings e
      (.error (.invalid ⟨.root e.kind.tag, .tooDeep e.depth settings.maxDepth⟩))
  | invalid {refused : InvalidExpression} (shallow : e.depth ≤ settings.maxDepth)
      (rejected : e.validate = .error refused) : Outcome settings e (.error (.invalid refused))
  | tooLarge {document : String} (shallow : e.depth ≤ settings.maxDepth)
      (valid : e.validate = .ok ()) (complete : e.document settings.indent = .ok document)
      (large : settings.maxBytes < document.utf8ByteSize) : Outcome settings e
      (.error (.invalid ⟨.root e.kind.tag, .tooLarge document.utf8ByteSize settings.maxBytes⟩))
  | whole {document : String} (shallow : e.depth ≤ settings.maxDepth)
      (valid : e.validate = .ok ()) (complete : e.document settings.indent = .ok document)
      (small : document.utf8ByteSize ≤ settings.maxBytes) : Outcome settings e (.ok document)

end Document

end Terminology
