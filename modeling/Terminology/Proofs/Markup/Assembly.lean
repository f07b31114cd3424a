import Terminology.Markup.Assembly

/-!
What a token does to the open elements, said once as a relation, and what follows from it for
whole sequences of tokens: offsets only matter to error texts, tokens without meaning may stand
anywhere, and no element lies deeper than the limit allows.
-/

namespace Terminology.Markup

open Text

namespace Token

/-- A token that leaves the open elements and the root as they are. -/
def isIgnored : Token → Bool
  | text raw => (trim raw).isEmpty
  | comment _ | declaration _ => true
  | _ => false

/-- The character data that a token stands for. -/
def data? : Token → Option (List Char)
  | text raw => if (trim raw).isEmpty then none else (unescape (trim raw)).toOption
  | verbatim content => some content
  | _ => none

theorem data?_eq_some_iff {t : Token} {piece : List Char} :
    t.data? = some piece ↔
      (∃ raw, t = text raw ∧ trim raw ≠ [] ∧ unescape (trim raw) = .ok piece) ∨
        t = verbatim piece := by
  cases t with
  | text raw =>
      by_cases blank : trim raw = []
      · simp [data?, blank]
      · cases read : unescape (trim raw) <;> simp [data?, blank, read, Except.toOption]
  | verbatim content => simp [data?]
  | _ => simp [data?]

end Token

namespace Assembly

/-- Whether an element that ends here has a place. -/
def Ready (a : Assembly) : Prop := a.stack = [] → a.root = none

/-- The assembly with one more closed element: a child of the innermost open one, or the root. -/
def receive (e : Element) (a : Assembly) : Assembly :=
  match a.stack with
  | f :: fs => { a with stack := { f with children := e :: f.children } :: fs }
  | [] => { a with root := some e }

/-- What a token does, apart from the offset. -/
inductive Moves (maxDepth : Nat) (a : Assembly) : Token → Assembly → Prop
  | ignored {t : Token} (none_read : t.isIgnored = true) : Moves maxDepth a t a
  | inside {t : Token} {piece : List Char} {f : Frame} {fs : List Frame}
      (data : t.data? = some piece) (stack : a.stack = f :: fs) :
      Moves maxDepth a t { a with stack := { f with pieces := piece :: f.pieces } :: fs }
  | outside {t : Token} {piece : List Char} (data : t.data? = some piece) (stack : a.stack = [])
      (blank : isBlank piece = true) : Moves maxDepth a t a
  | opening {content : List Char} {f : Frame} (room : a.stack.length < maxDepth) (ready : a.Ready)
      (tag : Frame.ofTag content = .ok f) :
      Moves maxDepth a (.opening content) { a with stack := f :: a.stack }
  | empty {content : List Char} {f : Frame} (room : a.stack.length < maxDepth) (ready : a.Ready)
      (tag : Frame.ofTag content = .ok f) : Moves maxDepth a (.empty content) (a.receive f.close)
  | closing {content : List Char} {f : Frame} {fs : List Frame} (stack : a.stack = f :: fs)
      (same : f.name = closingName content) (ready : fs = [] → a.root = none) :
      Moves maxDepth a (.closing content) (receive f.close { a with stack := fs })

theorem attach_iff {e : Element} {a b : Assembly} :
    a.attach e = .ok b ↔ a.Ready ∧ b = a.receive e := by
  obtain ⟨offset, stack, root⟩ := a
  cases stack with
  | nil => cases root <;> simp [attach, receive, Ready, eq_comm]
  | cons f fs => simp [attach, receive, Ready, eq_comm]

theorem checkOpen_iff {maxDepth : Nat} {a : Assembly} :
    a.checkOpen maxDepth = .ok () ↔ a.Ready ∧ a.stack.length < maxDepth := by
  obtain ⟨offset, stack, root⟩ := a
  simp only [checkOpen, Ready]
  cases stack <;> cases root <;> simp [Nat.pos_iff_ne_zero]

theorem addText_iff {piece : List Char} {a b : Assembly} :
    a.addText piece = .ok b ↔
      (∃ f fs, a.stack = f :: fs ∧
        b = { a with stack := { f with pieces := piece :: f.pieces } :: fs }) ∨
      (a.stack = [] ∧ isBlank piece = true ∧ b = a) := by
  obtain ⟨offset, stack, root⟩ := a
  cases stack with
  | nil =>
      cases blank : isBlank piece with
      | false => simp [addText, blank]
      | true => simpa [addText, blank] using eq_comm
  | cons f fs =>
      simp only [addText, Except.ok.injEq, List.cons.injEq, reduceCtorEq, false_and, or_false]
      constructor
      · intro added
        exact ⟨f, fs, ⟨rfl, rfl⟩, added.symm⟩
      · intro added
        obtain ⟨_, _, ⟨rfl, rfl⟩, shape⟩ := added
        exact shape.symm

theorem openElement_iff {maxDepth : Nat} {content : List Char} {a b : Assembly} :
    a.openElement maxDepth content = .ok b ↔
      (a.Ready ∧ a.stack.length < maxDepth) ∧
        ∃ f, Frame.ofTag content = .ok f ∧ b = { a with stack := f :: a.stack } := by
  rw [← checkOpen_iff, openElement]
  cases a.checkOpen maxDepth with
  | error e => simp [bind, Except.bind]
  | ok _ => cases Frame.ofTag content <;> simp [bind, Except.bind, pure, Except.pure, eq_comm]

theorem emptyElement_iff {maxDepth : Nat} {content : List Char} {a b : Assembly} :
    a.emptyElement maxDepth content = .ok b ↔
      (a.Ready ∧ a.stack.length < maxDepth) ∧
        ∃ f, Frame.ofTag content = .ok f ∧ b = a.receive f.close := by
  rw [← checkOpen_iff, emptyElement]
  cases check : a.checkOpen maxDepth with
  | error e => simp [bind, Except.bind]
  | ok _ =>
      have ready := (checkOpen_iff.mp check).1
      cases Frame.ofTag content with
      | error e => simp [bind, Except.bind]
      | ok f => simp [bind, Except.bind, attach_iff, ready]

theorem closeElement_iff {content : List Char} {a b : Assembly} :
    a.closeElement content = .ok b ↔
      ∃ f fs, a.stack = f :: fs ∧ f.name = closingName content ∧ (fs = [] → a.root = none) ∧
        b = receive f.close { a with stack := fs } := by
  obtain ⟨offset, stack, root⟩ := a
  cases stack with
  | nil => simp [closeElement]
  | cons f fs =>
      by_cases same : f.name = closingName content
      · simp only [closeElement, same, if_true, attach_iff, Ready]
        constructor
        · intro attached
          exact ⟨f, fs, rfl, same, attached.1, attached.2⟩
        · intro closed
          obtain ⟨_, _, shape, _, ready, received⟩ := closed
          cases shape
          exact ⟨ready, received⟩
      · simp only [closeElement, same, if_false, reduceCtorEq, false_iff]
        intro closed
        obtain ⟨_, _, shape, named, _⟩ := closed
        cases shape
        exact same named

theorem interpret_of_data {maxDepth : Nat} {a : Assembly} {t : Token} {piece : List Char}
    (data : t.data? = some piece) : interpret maxDepth a t = a.addText piece := by
  rcases Token.data?_eq_some_iff.mp data with ⟨raw, rfl, filled, read⟩ | rfl
  · rw [interpret, if_neg ((not_congr List.isEmpty_iff).mpr filled), read]
  · rfl

theorem moves_of_addText {maxDepth : Nat} {a b : Assembly} {t : Token} {piece : List Char}
    (data : t.data? = some piece) (added : a.addText piece = .ok b) : Moves maxDepth a t b := by
  rcases addText_iff.mp added with ⟨f, fs, stack, rfl⟩ | ⟨stack, blank, rfl⟩
  · exact .inside data stack
  · exact .outside data stack blank

theorem moves_of_text {maxDepth : Nat} {a b : Assembly} {raw : List Char}
    (taken : interpret maxDepth a (.text raw) = .ok b) : Moves maxDepth a (.text raw) b := by
  simp only [interpret] at taken
  split at taken
  · rename_i blank
    cases taken
    exact .ignored blank
  · rename_i filled
    cases read : unescape (trim raw) with
    | error e =>
        rw [read] at taken
        cases taken
    | ok piece =>
        rw [read] at taken
        have some_char : trim raw ≠ [] := (not_congr List.isEmpty_iff).mp filled
        have data : (Token.text raw).data? = some piece :=
          Token.data?_eq_some_iff.mpr (.inl ⟨raw, rfl, some_char, read⟩)
        exact moves_of_addText data taken

theorem moves_of_interpret {maxDepth : Nat} {a b : Assembly} {t : Token}
    (taken : interpret maxDepth a t = .ok b) : Moves maxDepth a t b := by
  cases t with
  | text raw => exact moves_of_text taken
  | opening content =>
      obtain ⟨⟨ready, room⟩, f, tag, rfl⟩ := openElement_iff.mp taken
      exact .opening room ready tag
  | empty content =>
      obtain ⟨⟨ready, room⟩, f, tag, rfl⟩ := emptyElement_iff.mp taken
      exact .empty room ready tag
  | closing content =>
      obtain ⟨f, fs, stack, same, ready, rfl⟩ := closeElement_iff.mp taken
      exact .closing stack same ready
  | verbatim content => exact moves_of_addText rfl taken
  | comment content =>
      cases taken
      exact .ignored rfl
  | declaration content =>
      cases taken
      exact .ignored rfl
  | instruction content => cases taken
  | doctype word content => cases taken

theorem interpret_of_ignored {maxDepth : Nat} {a : Assembly} {t : Token}
    (none_read : t.isIgnored = true) : interpret maxDepth a t = .ok a := by
  cases t with
  | text raw => exact if_pos none_read
  | comment content => rfl
  | declaration content => rfl
  | _ => cases none_read

theorem interpret_iff {maxDepth : Nat} {a b : Assembly} {t : Token} :
    interpret maxDepth a t = .ok b ↔ Moves maxDepth a t b := by
  constructor
  · exact moves_of_interpret
  · intro moves
    cases moves with
    | ignored none_read => exact interpret_of_ignored none_read
    | inside data stack =>
        rw [interpret_of_data data]
        exact addText_iff.mpr (.inl ⟨_, _, stack, rfl⟩)
    | outside data stack blank =>
        rw [interpret_of_data data]
        exact addText_iff.mpr (.inr ⟨stack, blank, rfl⟩)
    | opening room ready tag => exact openElement_iff.mpr ⟨⟨ready, room⟩, _, tag, rfl⟩
    | empty room ready tag => exact emptyElement_iff.mpr ⟨⟨ready, room⟩, _, tag, rfl⟩
    | closing stack same ready => exact closeElement_iff.mpr ⟨_, _, stack, same, ready, rfl⟩

theorem Moves.at_offset {maxDepth : Nat} {a b : Assembly} {t : Token}
    (moves : Moves maxDepth a t b) (n : Nat) :
    Moves maxDepth { a with offset := n } t { b with offset := n } := by
  have received (e : Element) (a : Assembly) :
      { a.receive e with offset := n } = receive e { a with offset := n } := by
    obtain ⟨offset, stack, root⟩ := a
    cases stack <;> rfl
  cases moves with
  | ignored none_read => exact .ignored none_read
  | inside data stack => exact .inside data stack
  | outside data stack blank => exact .outside data stack blank
  | opening room ready tag => exact .opening room ready tag
  | empty room ready tag =>
      rw [received]
      exact .empty room ready tag
  | closing stack same ready =>
      rw [received]
      exact .closing stack same ready

/-- The open elements and the root that a sequence of tokens leads to, from any offset. -/
inductive Reads (maxDepth : Nat) : Assembly → List Token → Assembly → Prop
  | nil {a : Assembly} : Reads maxDepth a [] a
  | cons {a b c : Assembly} {t : Token} {ts : List Token} (first : Moves maxDepth a t b)
      (others : Reads maxDepth b ts c) : Reads maxDepth a (t :: ts) c

theorem Reads.append {maxDepth : Nat} {a b c : Assembly} {ts us : List Token}
    (first : Reads maxDepth a ts b) (second : Reads maxDepth b us c) :
    Reads maxDepth a (ts ++ us) c := by
  induction first with
  | nil => exact second
  | cons moves _ ih => exact .cons moves (ih second)

theorem Reads.single {maxDepth : Nat} {a b : Assembly} {t : Token}
    (moves : Moves maxDepth a t b) : Reads maxDepth a [t] b :=
  .cons moves .nil

theorem Reads.of_filter {maxDepth : Nat} {a b : Assembly} {ts : List Token}
    (reads : Reads maxDepth a (ts.filter (!·.isIgnored)) b) : Reads maxDepth a ts b := by
  induction ts generalizing a with
  | nil => exact reads
  | cons t ts ih =>
      cases ignored : t.isIgnored with
      | true =>
          rw [List.filter_cons_of_neg (by simp [ignored])] at reads
          exact .cons (.ignored ignored) (ih reads)
      | false =>
          rw [List.filter_cons_of_pos (by simp [ignored])] at reads
          cases reads with
          | cons first others => exact .cons first (ih others)

theorem step_iff {maxDepth : Nat} {a b : Assembly} {t : Token} :
    step maxDepth a t = .ok b ↔
      ∃ c, Moves maxDepth a t c ∧ b = { c with offset := a.offset + byteLength t.source } := by
  simp only [← interpret_iff, step]
  cases interpret maxDepth a t with
  | error m => simp [Except.map]
  | ok c => simp [Except.map, eq_comm]

theorem foldlM_of_reads {maxDepth : Nat} {a b : Assembly} {ts : List Token}
    (reads : Reads maxDepth a ts b) (n : Nat) :
    ∃ m, ts.foldlM (step maxDepth) { a with offset := n } = .ok { b with offset := m } := by
  induction reads generalizing n with
  | nil => exact ⟨n, rfl⟩
  | @cons a b c t ts first others ih =>
      obtain ⟨m, rest⟩ := ih (n + byteLength t.source)
      refine ⟨m, ?_⟩
      rw [List.foldlM_cons, step_iff.mpr ⟨_, first.at_offset n, rfl⟩]
      exact rest

theorem reads_of_foldlM {maxDepth : Nat} {a b : Assembly} {ts : List Token}
    (run : ts.foldlM (step maxDepth) a = .ok b) (n : Nat) :
    Reads maxDepth { a with offset := n } ts { b with offset := n } := by
  induction ts generalizing a with
  | nil =>
      cases run
      exact .nil
  | cons t ts ih =>
      rw [List.foldlM_cons] at run
      cases taken : step maxDepth a t with
      | error m =>
          rw [taken] at run
          cases run
      | ok next =>
          rw [taken] at run
          obtain ⟨c, moves, rfl⟩ := step_iff.mp taken
          have others := ih (a := { c with offset := a.offset + byteLength t.source }) run
          exact .cons (moves.at_offset n) others

theorem finish_eq_ok_iff {a : Assembly} {e : Element} :
    a.finish = .ok e ↔ a.stack = [] ∧ a.root = some e := by
  obtain ⟨offset, stack, root⟩ := a
  cases stack <;> cases root <;> simp [finish]

/-- Every open element lies within the limit, and its children with all below them do. -/
def Fits (maxDepth : Nat) : List Frame → Prop
  | [] => True
  | f :: fs => fs.length + 1 ≤ maxDepth ∧
      (∀ e ∈ f.children, fs.length + 1 + e.depth ≤ maxDepth) ∧ Fits maxDepth fs

def Bounded (maxDepth : Nat) (a : Assembly) : Prop :=
  Fits maxDepth a.stack ∧ ∀ e ∈ a.root, e.depth ≤ maxDepth

theorem bounded_receive {maxDepth : Nat} {e : Element} {a : Assembly}
    (room : a.stack.length + e.depth ≤ maxDepth) (bounded : Bounded maxDepth a) :
    Bounded maxDepth (a.receive e) := by
  obtain ⟨offset, stack, root⟩ := a
  cases stack with
  | nil =>
      refine ⟨trivial, ?_⟩
      intro found same
      cases same
      simpa using room
  | cons f fs =>
      obtain ⟨⟨here, children, others⟩, top⟩ := bounded
      refine ⟨⟨here, ?_, others⟩, top⟩
      intro child member
      rcases List.mem_cons.mp member with rfl | member
      · simpa using room
      · exact children child member

theorem depthAll_le {limit : Nat} {es : List Element} (all : ∀ e ∈ es, e.depth ≤ limit) :
    Element.depthAll es ≤ limit := by
  induction es with
  | nil => exact Nat.zero_le limit
  | cons e es ih =>
      exact Nat.max_le.mpr ⟨all e List.mem_cons_self,
        ih fun other member => all other (List.mem_cons_of_mem e member)⟩

theorem depth_close {limit : Nat} {f : Frame} (all : ∀ e ∈ f.children, e.depth ≤ limit) :
    f.close.depth ≤ limit + 1 := by
  have children : Element.depthAll f.children.reverse ≤ limit :=
    depthAll_le fun e member => all e (List.mem_reverse.mp member)
  rw [Frame.close, Element.depth]
  omega

theorem children_ofTag {content : List Char} {f : Frame} (tag : Frame.ofTag content = .ok f) :
    f.children = [] ∧ f.pieces = [] := by
  rw [Frame.ofTag] at tag
  split at tag
  · cases tag
    exact ⟨rfl, rfl⟩
  · cases tag

theorem bounded_moves {maxDepth : Nat} {a b : Assembly} {t : Token}
    (moves : Moves maxDepth a t b) (bounded : Bounded maxDepth a) : Bounded maxDepth b := by
  cases moves with
  | ignored none_read => exact bounded
  | @inside _ piece f fs data stack =>
      obtain ⟨fits, top⟩ := bounded
      rw [stack] at fits
      exact ⟨fits, top⟩
  | outside data stack blank => exact bounded
  | @opening content f room ready tag =>
      obtain ⟨fits, top⟩ := bounded
      refine ⟨⟨room, ?_, fits⟩, top⟩
      intro e member
      rw [(children_ofTag tag).1] at member
      cases member
  | @empty content f room ready tag =>
      have leaf : f.close.depth ≤ 0 + 1 := depth_close fun e member => by
        rw [(children_ofTag tag).1] at member
        cases member
      exact bounded_receive (by omega) bounded
  | @closing content f fs stack same ready =>
      obtain ⟨fits, top⟩ := bounded
      rw [stack] at fits
      obtain ⟨here, children, others⟩ := fits
      -- The element moves one level up when it is closed, which is the level it gains.
      have closed : f.close.depth ≤ maxDepth - (fs.length + 1) + 1 :=
        depth_close fun e member => by
          have := children e member
          omega
      exact bounded_receive (a := { a with stack := fs }) (by simp only; omega) ⟨others, top⟩

theorem bounded_reads {maxDepth : Nat} {a b : Assembly} {ts : List Token}
    (reads : Reads maxDepth a ts b) (bounded : Bounded maxDepth a) : Bounded maxDepth b := by
  induction reads with
  | nil => exact bounded
  | cons first _ ih => exact ih (bounded_moves first bounded)

end Assembly

namespace Element

theorem ofScan_eq_ok_iff {maxDepth : Nat} {s : Scan} {e : Element} :
    ofScan maxDepth s = .ok e ↔
      s.fault = none ∧ Assembly.Reads maxDepth .start s.tokens ⟨0, [], some e⟩ := by
  constructor
  · intro read
    rw [ofScan] at read
    cases run : s.tokens.foldlM (Assembly.step maxDepth) .start with
    | error m =>
        rw [run] at read
        cases read
    | ok a =>
        rw [run] at read
        cases fault : s.fault with
        | some f =>
            rw [fault] at read
            cases read
        | none =>
            rw [fault] at read
            have reads := Assembly.reads_of_foldlM run 0
            obtain ⟨stack, root⟩ := Assembly.finish_eq_ok_iff.mp read
            rw [stack, root] at reads
            exact ⟨rfl, reads⟩
  · rintro ⟨fault, reads⟩
    obtain ⟨n, run⟩ := Assembly.foldlM_of_reads reads 0
    have start : s.tokens.foldlM (Assembly.step maxDepth) .start = .ok ⟨n, [], some e⟩ := run
    rw [ofScan, start, fault]
    rfl

/-- Parsing is a run over all tokens of a text within the limits that leaves no element open. -/
theorem parse_eq_ok_iff_reads {limits : Limits} {text : String} {e : Element} :
    parse limits text = .ok e ↔
      text.utf8ByteSize ≤ limits.maxBytes ∧
        (Scan.ofText (withoutMark text.toList)).fault = none ∧
          Assembly.Reads limits.maxDepth .start
            (Scan.ofText (withoutMark text.toList)).tokens ⟨0, [], some e⟩ := by
  rw [parse, ← ofScan_eq_ok_iff]
  by_cases large : limits.maxBytes < text.utf8ByteSize
  · simp [large, Nat.not_le.mpr large]
  · simp [large, Nat.not_lt.mp large]

theorem depth_of_parse {limits : Limits} {text : String} {e : Element}
    (read : parse limits text = .ok e) : e.depth ≤ limits.maxDepth := by
  obtain ⟨-, -, reads⟩ := parse_eq_ok_iff_reads.mp read
  have bounded := Assembly.bounded_reads reads ⟨trivial, by simp [Assembly.start]⟩
  exact bounded.2 e rfl

end Element

end Terminology.Markup
