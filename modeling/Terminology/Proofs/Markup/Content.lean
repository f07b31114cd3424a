import Terminology.Proofs.Markup.Assembly
import Terminology.Proofs.Markup.Attribute
import Terminology.Proofs.Markup.Token

/-!
The grammar of content: which elements and which character data a sequence of tokens holds, each
start tag with the end tag that belongs to it. A text is parsed exactly if the sequence of its
tokens holds one element, nothing else but white space, and no more than the limits allow.
-/

namespace Terminology.Markup

open Text

/-- The elements in a sequence of tokens, and the pieces of character data between them. -/
inductive Holds : List Token → List Element → List (List Char) → Prop
  | nil : Holds [] [] []
  | ignored {t : Token} {ts : List Token} {es : List Element} {pieces : List (List Char)}
      (none_read : t.isIgnored = true) (behind : Holds ts es pieces) : Holds (t :: ts) es pieces
  | text {raw piece : List Char} {ts : List Token} {es : List Element}
      {pieces : List (List Char)} (filled : trim raw ≠ []) (stands : Stands (trim raw) piece)
      (behind : Holds ts es pieces) : Holds (.text raw :: ts) es (piece :: pieces)
  | verbatim {content : List Char} {ts : List Token} {es : List Element}
      {pieces : List (List Char)} (behind : Holds ts es pieces) :
      Holds (.verbatim content :: ts) es (content :: pieces)
  | leaf {content name : List Char} {attributes : List Attribute} {ts : List Token}
      {es : List Element} {pieces : List (List Char)} (tagged : Tagged content name attributes)
      (behind : Holds ts es pieces) :
      Holds (.empty content :: ts) (.element (String.ofList name) attributes [] "" :: es) pieces
  | node {content name close : List Char} {attributes : List Attribute} {inner ts : List Token}
      {children es : List Element} {inside pieces : List (List Char)}
      (tagged : Tagged content name attributes) (within : Holds inner children inside)
      (same : name = Assembly.closingName close) (behind : Holds ts es pieces) :
      Holds (.opening content :: inner ++ .closing close :: ts)
        (.element (String.ofList name) attributes children (String.ofList inside.flatten) :: es)
        pieces

theorem Holds.append {ts us : List Token} {es fs : List Element} {pieces others : List (List Char)}
    (first : Holds ts es pieces) (second : Holds us fs others) :
    Holds (ts ++ us) (es ++ fs) (pieces ++ others) := by
  induction first with
  | nil => exact second
  | ignored none_read _ ih => exact .ignored none_read ih
  | text filled stands _ ih => exact .text filled stands ih
  | verbatim _ ih => exact .verbatim ih
  | leaf tagged _ ih => exact .leaf tagged ih
  | node tagged within same _ _ ih =>
      rw [List.append_assoc]
      exact .node tagged within same ih

theorem Holds.of_data {t : Token} {piece : List Char} (data : t.data? = some piece) :
    Holds [t] [] [piece] := by
  rcases Token.data?_eq_some_iff.mp data with ⟨raw, rfl, filled, read⟩ | rfl
  · exact .text filled (unescape_eq_ok_iff.mp read) .nil
  · exact .verbatim .nil

theorem ofTag_eq_ok_iff {content : List Char} {f : Frame} :
    Frame.ofTag content = .ok f ↔
      Tagged content f.name f.attributes ∧ f.children = [] ∧ f.pieces = [] := by
  obtain ⟨name, attributes, children, pieces⟩ := f
  rw [← tagged_iff, Frame.ofTag]
  cases tagAttributes content <;> simp [and_assoc, eq_comm]

namespace Assembly

variable {maxDepth : Nat}

/-- The assembly with more elements and more character data in the place it has come to. -/
def extend (es : List Element) (pieces : List (List Char)) (a : Assembly) : Assembly :=
  match a.stack with
  | f :: fs =>
      { a with
        stack := { f with
          children := es.reverse ++ f.children
          pieces := pieces.reverse ++ f.pieces } :: fs }
  | [] => { a with root := (a.root.toList ++ es).head? }

/-- Whether elements and character data may stand in the place that an assembly has come to:
outside all elements there is room for one root and for white space. -/
def Admits (es : List Element) (pieces : List (List Char)) (a : Assembly) : Prop :=
  a.stack = [] →
    (a.root.toList ++ es).length ≤ 1 ∧ ∀ piece ∈ pieces, isBlank piece = true

theorem toList_head? {es : List Element} (single : es.length ≤ 1) : es.head?.toList = es := by
  rcases es with _ | ⟨e, _ | ⟨other, es⟩⟩
  · rfl
  · rfl
  · simp at single

theorem extend_nil (a : Assembly) : a.extend [] [] = a := by
  obtain ⟨offset, stack, root⟩ := a
  cases stack with
  | nil => cases root <;> rfl
  | cons f fs => rfl

theorem extend_append {a : Assembly} (es fs : List Element) (pieces others : List (List Char)) :
    (a.extend es pieces).extend fs others = a.extend (es ++ fs) (pieces ++ others) := by
  obtain ⟨offset, stack, root⟩ := a
  cases stack with
  | nil =>
      cases root with
      | some e => simp [extend]
      | none => cases es <;> simp [extend]
  | cons f rest => simp [extend]

theorem receive_eq_extend {a : Assembly} (ready : a.Ready) (e : Element) :
    a.receive e = a.extend [e] [] := by
  obtain ⟨offset, stack, root⟩ := a
  cases stack with
  | nil =>
      have free : root = none := ready rfl
      rw [free]
      rfl
  | cons f fs => rfl

theorem extend_outside {a : Assembly} (outside : a.stack = []) (pieces : List (List Char)) :
    a.extend [] pieces = a := by
  obtain ⟨offset, stack, root⟩ := a
  cases outside
  cases root <;> rfl

theorem admits_pieces {a : Assembly} {pieces : List (List Char)}
    (blank : a.stack = [] → ∀ piece ∈ pieces, isBlank piece = true) : a.Admits [] pieces := by
  intro outside
  refine ⟨?_, blank outside⟩
  cases a.root <;> simp

theorem admits_of_ready {a : Assembly} (ready : a.Ready) (e : Element) : a.Admits [e] [] := by
  intro outside
  rw [ready outside]
  exact ⟨Nat.le_refl 1, List.forall_mem_nil _⟩

/-- The tokens read so far, seen from the elements that are open: in each of them stands what it
holds by now, and outside all of them the root, if it is closed, and white space. -/
def Opened : List Token → List Frame → Option Element → Prop
  | ts, [], root => ∃ pieces, Holds ts root.toList pieces ∧ ∀ piece ∈ pieces, isBlank piece = true
  | ts, f :: fs, root => ∃ before content inner, ts = before ++ .opening content :: inner ∧
      Tagged content f.name f.attributes ∧ Holds inner f.children.reverse f.pieces.reverse ∧
      (fs = [] → root = none) ∧ Opened before fs root

theorem Opened.extend {ts more : List Token} {es : List Element} {pieces : List (List Char)}
    {a : Assembly} (opened : Opened ts a.stack a.root) (held : Holds more es pieces)
    (admits : a.Admits es pieces) :
    Opened (ts ++ more) (a.extend es pieces).stack (a.extend es pieces).root := by
  obtain ⟨offset, stack, root⟩ := a
  cases stack with
  | nil =>
      obtain ⟨before, holds, blank⟩ := opened
      obtain ⟨single, blank_too⟩ := admits rfl
      have whole : (root.toList ++ es).head?.toList = root.toList ++ es := toList_head? single
      have held_all : Holds (ts ++ more) (root.toList ++ es).head?.toList (before ++ pieces) := by
        rw [whole]
        exact holds.append held
      exact ⟨before ++ pieces, held_all, List.forall_mem_append.mpr ⟨blank, blank_too⟩⟩
  | cons f fs =>
      obtain ⟨before, content, inner, rfl, tagged, holds, free, others⟩ := opened
      refine ⟨before, content, inner ++ more, by simp, tagged, ?_, free, others⟩
      simpa [Assembly.extend] using holds.append held

theorem opened_of_moves {a b : Assembly} {t : Token} {ts : List Token}
    (moves : Moves maxDepth a t b) (opened : Opened ts a.stack a.root) :
    Opened (ts ++ [t]) b.stack b.root := by
  cases moves with
  | ignored none_read =>
      have same := opened.extend (.ignored none_read .nil)
        (admits_pieces fun _ => List.forall_mem_nil _)
      rwa [extend_nil] at same
  | @inside _ piece f fs data stack =>
      have more := opened.extend (.of_data data)
        (admits_pieces fun outside => by rw [stack] at outside; cases outside)
      simpa [extend, stack] using more
  | outside data stack blank =>
      have more := opened.extend (.of_data data)
        (admits_pieces fun _ => List.forall_mem_singleton.mpr blank)
      rwa [extend_outside stack] at more
  | @opening content f room ready tag =>
      obtain ⟨tagged, children, pieces⟩ := ofTag_eq_ok_iff.mp tag
      refine ⟨ts, content, [], rfl, tagged, ?_, ready, opened⟩
      rw [children, pieces]
      exact .nil
  | @empty content f room ready tag =>
      obtain ⟨tagged, children, pieces⟩ := ofTag_eq_ok_iff.mp tag
      rw [receive_eq_extend ready, Frame.close, children, pieces]
      exact opened.extend (.leaf tagged .nil) (admits_of_ready ready _)
  | @closing content f fs stack same ready =>
      rw [stack] at opened
      obtain ⟨before, start, inner, rfl, tagged, holds, free, around⟩ := opened
      -- The element is closed where its start tag stood, among what the element around it holds.
      have outer : ({ a with stack := fs } : Assembly).Ready := ready
      have more := Opened.extend (a := { a with stack := fs }) around
        (.node tagged holds same .nil) (admits_of_ready outer _)
      rw [receive_eq_extend outer, Frame.close, List.append_assoc]
      exact more

theorem opened_of_reads {a b : Assembly} {ts us : List Token} (reads : Reads maxDepth a us b)
    (opened : Opened ts a.stack a.root) : Opened (ts ++ us) b.stack b.root := by
  induction reads generalizing ts with
  | nil => rwa [List.append_nil]
  | cons first _ ih =>
      have next := ih (opened_of_moves first opened)
      rwa [List.append_assoc] at next

theorem length_extend (es : List Element) (pieces : List (List Char)) (a : Assembly) :
    (a.extend es pieces).stack.length = a.stack.length := by
  obtain ⟨offset, stack, root⟩ := a
  cases stack <;> rfl

theorem admits_append {a : Assembly} {es fs : List Element} {pieces others : List (List Char)}
    (admits : a.Admits (es ++ fs) (pieces ++ others)) :
    a.Admits es pieces ∧ (a.extend es pieces).Admits fs others := by
  obtain ⟨offset, stack, root⟩ := a
  cases stack with
  | cons f fs => exact ⟨nofun, nofun⟩
  | nil =>
      obtain ⟨single, blank⟩ := admits rfl
      obtain ⟨blank_here, blank_behind⟩ := List.forall_mem_append.mp blank
      have first : (root.toList ++ es).length ≤ 1 := by
        simp only [List.length_append] at single ⊢
        omega
      have same : (root.toList ++ es).head?.toList = root.toList ++ es := toList_head? first
      refine ⟨fun _ => ⟨first, blank_here⟩, fun _ => ⟨?_, blank_behind⟩⟩
      show ((root.toList ++ es).head?.toList ++ fs).length ≤ 1
      rwa [same, List.append_assoc]

theorem ready_of_admits {a : Assembly} {e : Element} {es : List Element}
    {pieces : List (List Char)} (admits : a.Admits (e :: es) pieces) : a.Ready := by
  intro outside
  obtain ⟨single, -⟩ := admits outside
  cases root : a.root with
  | none => rfl
  | some other =>
      rw [root] at single
      simp at single

theorem moves_of_data {a : Assembly} {t : Token} {piece : List Char} {es : List Element}
    {pieces : List (List Char)} (data : t.data? = some piece)
    (admits : a.Admits es (piece :: pieces)) : Moves maxDepth a t (a.extend [] [piece]) := by
  cases stack : a.stack with
  | nil =>
      rw [extend_outside stack]
      exact .outside data stack ((admits stack).2 piece List.mem_cons_self)
  | cons f fs =>
      have inside : Moves maxDepth a t _ := .inside data stack
      simpa [extend, stack] using inside

theorem reads_both {a : Assembly} {first second : List Token} {es fs : List Element}
    {pieces others : List (List Char)} (read : Reads maxDepth a first (a.extend es pieces))
    (admits : a.Admits (es ++ fs) (pieces ++ others))
    (behind : (a.extend es pieces).Admits fs others →
      Reads maxDepth (a.extend es pieces) second ((a.extend es pieces).extend fs others)) :
    Reads maxDepth a (first ++ second) (a.extend (es ++ fs) (pieces ++ others)) := by
  rw [← extend_append]
  exact read.append (behind (admits_append admits).2)

theorem reads_leaf {a : Assembly} {content name : List Char} {attributes : List Attribute}
    (tagged : Tagged content name attributes) (ready : a.Ready)
    (room : a.stack.length < maxDepth) :
    Reads maxDepth a [.empty content]
      (a.extend [.element (String.ofList name) attributes [] ""] []) := by
  have tag : Frame.ofTag content = .ok ⟨name, attributes, [], []⟩ :=
    ofTag_eq_ok_iff.mpr ⟨tagged, rfl, rfl⟩
  rw [← receive_eq_extend ready]
  exact .single (.empty room ready tag)

def enter (name : List Char) (attributes : List Attribute) (a : Assembly) : Assembly :=
  { a with stack := ⟨name, attributes, [], []⟩ :: a.stack }

theorem admits_enter (a : Assembly) (name : List Char) (attributes : List Attribute)
    (es : List Element) (pieces : List (List Char)) :
    (a.enter name attributes).Admits es pieces := by
  intro outside
  cases outside

theorem reads_node {a : Assembly} {content name close : List Char} {attributes : List Attribute}
    {inner : List Token} {children : List Element} {inside : List (List Char)}
    (tagged : Tagged content name attributes) (same : name = closingName close)
    (ready : a.Ready) (room : a.stack.length < maxDepth)
    (within : Reads maxDepth (a.enter name attributes) inner
      ((a.enter name attributes).extend children inside)) :
    Reads maxDepth a (.opening content :: (inner ++ [.closing close]))
      (a.extend [.element (String.ofList name) attributes children
        (String.ofList inside.flatten)] []) := by
  have tag : Frame.ofTag content = .ok ⟨name, attributes, [], []⟩ :=
    ofTag_eq_ok_iff.mpr ⟨tagged, rfl, rfl⟩
  have opening : Moves maxDepth a (.opening content) (a.enter name attributes) :=
    .opening room ready tag
  let filled : Frame := ⟨name, attributes, children.reverse ++ [], inside.reverse ++ []⟩
  have closed : filled.close =
      .element (String.ofList name) attributes children (String.ofList inside.flatten) := by
    simp [filled, Frame.close]
  have closing : Moves maxDepth ((a.enter name attributes).extend children inside)
      (.closing close) (a.receive filled.close) :=
    Moves.closing (a := (a.enter name attributes).extend children inside) (f := filled)
      rfl same ready
  rw [receive_eq_extend ready, closed] at closing
  exact .cons opening (within.append (.single closing))

/-- Content is read as what it holds wherever that may stand and is not nested too deeply. -/
theorem reads_of_holds {ts : List Token} {es : List Element} {pieces : List (List Char)}
    (holds : Holds ts es pieces) {a : Assembly} (admits : a.Admits es pieces)
    (room : a.stack.length + Element.depthAll es ≤ maxDepth) :
    Reads maxDepth a ts (a.extend es pieces) := by
  induction holds generalizing a with
  | nil =>
      rw [extend_nil]
      exact .nil
  | ignored none_read _ ih => exact .cons (.ignored none_read) (ih admits room)
  | @text raw _ _ _ _ filled stands _ ih =>
      have data := Token.data?_eq_some_iff.mpr
        (.inl ⟨raw, rfl, filled, unescape_eq_ok_iff.mpr stands⟩)
      have first : Moves maxDepth a (.text raw) _ := moves_of_data data admits
      exact reads_both (.single first) admits fun behind => ih behind (by rwa [length_extend])
  | @verbatim content _ _ _ _ ih =>
      have first : Moves maxDepth a (.verbatim content) _ := moves_of_data rfl admits
      exact reads_both (.single first) admits fun behind => ih behind (by rwa [length_extend])
  | leaf tagged _ ih =>
      rw [Element.depthAll, ← Nat.add_max_add_left, Nat.max_le, Element.depth] at room
      have here : a.stack.length < maxDepth := by omega
      have leaf := reads_leaf tagged (ready_of_admits admits) here
      exact reads_both leaf admits fun behind => ih behind (by rw [length_extend]; exact room.2)
  | @node content name close attributes inner ts children es inside pieces tagged _ same _
      ih_inner ih =>
      rw [Element.depthAll, ← Nat.add_max_add_left, Nat.max_le, Element.depth] at room
      -- Inside the element there is room for anything, one level further down.
      have below :
          (a.enter name attributes).stack.length + Element.depthAll children ≤ maxDepth := by
        rw [enter, List.length_cons]
        omega
      have within := ih_inner (admits_enter a name attributes _ _) below
      have node := reads_node tagged same (ready_of_admits admits) (by omega) within
      have all := reads_both node admits
        fun behind => ih behind (by rw [length_extend]; exact room.2)
      simpa using all

end Assembly

/-- A text is parsed as an element exactly if it is cut into tokens without a fault, and that
element is what they hold, with nothing around it but white space, within the limits. -/
theorem Element.parse_eq_ok_iff {limits : Limits} {text : String} {e : Element} :
    parse limits text = .ok e ↔
      text.utf8ByteSize ≤ limits.maxBytes ∧ e.depth ≤ limits.maxDepth ∧
        (Scan.ofText (withoutMark text.toList)).fault = none ∧
          ∃ pieces, Holds (Scan.ofText (withoutMark text.toList)).tokens [e] pieces ∧
            ∀ piece ∈ pieces, isBlank piece = true := by
  constructor
  · intro read
    obtain ⟨small, fault, reads⟩ := parse_eq_ok_iff_reads.mp read
    have nothing : Assembly.Opened [] [] none := ⟨[], .nil, List.forall_mem_nil _⟩
    have opened := Assembly.opened_of_reads reads nothing
    exact ⟨small, depth_of_parse read, fault, opened⟩
  · rintro ⟨small, shallow, fault, pieces, holds, blank⟩
    have room : Assembly.start.stack.length + depthAll [e] ≤ limits.maxDepth := by
      simpa [Assembly.start, depthAll] using shallow
    have admits : Assembly.start.Admits [e] pieces := fun _ => ⟨Nat.le_refl 1, blank⟩
    have reads := Assembly.reads_of_holds holds admits room
    exact parse_eq_ok_iff_reads.mpr ⟨small, fault, reads⟩

theorem Element.exists_of_view {α : Type} {limits : Limits} {text : String} {view : Element → α}
    {a : α} (known : (parse limits text).toOption.map view = some a) :
    ∃ e, parse limits text = .ok e ∧ view e = a := by
  cases parsed : parse limits text with
  | error m =>
      rw [parsed] at known
      cases known
  | ok e =>
      rw [parsed] at known
      exact ⟨e, rfl, Option.some.inj known⟩

end Terminology.Markup
