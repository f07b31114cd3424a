import Terminology.Proofs.Markup.Place

/-!
Exchanging one element of a text for another. If neither has elements in it, the text can be read
with the one exactly if it can be read with the other, and the trees that are read are alike: the
one has the other element where it stood.
-/

namespace Terminology.Markup

variable {x y : Element}

/-- The second tree is the first one, but may have `y` in places where that has `x`. -/
inductive Element.Alike (x y : Element) : Element → Element → Prop
  | same (e : Element) : Alike x y e e
  | exchanged : Alike x y x y
  | within {name text : String} {attributes : List Attribute} {children others : List Element}
      (below : List.Forall₂ (Alike x y) children others) :
      Alike x y (.element name attributes children text) (.element name attributes others text)

/-- Open elements that differ in what is in them at most. -/
structure Frame.Alike (x y : Element) (f g : Frame) : Prop where
  name : f.name = g.name
  attributes : f.attributes = g.attributes
  children : List.Forall₂ (Element.Alike x y) f.children g.children
  pieces : f.pieces = g.pieces

theorem Frame.Alike.refl (f : Frame) : Frame.Alike x y f f :=
  ⟨rfl, rfl, List.forall₂_same.mpr fun e _ => .same e, rfl⟩

theorem Frame.Alike.close {f g : Frame} (alike : Frame.Alike x y f g) :
    Element.Alike x y f.close g.close := by
  rw [Frame.close, Frame.close, alike.name, alike.attributes, alike.pieces]
  exact .within (List.forall₂_reverse_iff.mpr alike.children)

namespace Assembly

/-- What was read so far differs in elements that are closed at most. -/
structure Alike (x y : Element) (a b : Assembly) : Prop where
  offset : a.offset = b.offset
  stack : List.Forall₂ (Frame.Alike x y) a.stack b.stack
  root : Option.Rel (Element.Alike x y) a.root b.root

variable {maxDepth : Nat} {a b next : Assembly} {t : Token} {ts : List Token}

theorem Alike.refl (a : Assembly) : Alike x y a a where
  offset := rfl
  stack := List.forall₂_same.mpr fun f _ => .refl f
  root := by
    cases a.root with
    | none => exact .none
    | some e => exact .some (.same e)

theorem Alike.levels (alike : Alike x y a b) : a.stack.length = b.stack.length :=
  alike.stack.length_eq

theorem Alike.ready (alike : Alike x y a b) (ready : a.Ready) : b.Ready := by
  intro outside
  have levels := alike.levels
  rw [outside] at levels
  have free := ready (List.length_eq_zero_iff.mp levels)
  have roots := alike.root
  rw [free] at roots
  cases root : b.root with
  | none => rfl
  | some e =>
      rw [root] at roots
      cases roots

theorem Alike.receive {e e' : Element} (alike : Alike x y a b) (elements : Element.Alike x y e e') :
    Alike x y (a.receive e) (b.receive e') := by
  rcases a with ⟨offset, stack, root⟩
  rcases b with ⟨offset', stack', root'⟩
  rcases alike with ⟨rfl, frames, roots⟩
  cases frames with
  | nil => exact ⟨rfl, .nil, .some elements⟩
  | cons first others =>
      exact ⟨rfl, .cons ⟨first.name, first.attributes, .cons elements first.children,
        first.pieces⟩ others, roots⟩

/-- A token does the same to what is alike. -/
theorem Alike.moves (alike : Alike x y a b) (moves : Moves maxDepth a t next) :
    ∃ next', Moves maxDepth b t next' ∧ Alike x y next next' := by
  have levels := alike.levels
  cases moves with
  | ignored none_read => exact ⟨b, .ignored none_read, alike⟩
  | @inside _ piece f fs data stack =>
      have frames := alike.stack
      rw [stack] at frames
      rcases List.forall₂_cons_left_iff.mp frames with ⟨g, gs, first, others, stack'⟩
      refine ⟨_, .inside data stack', alike.offset, .cons ?_ others, alike.root⟩
      exact ⟨first.name, first.attributes, first.children, congrArg (piece :: ·) first.pieces⟩
  | outside data stack blank =>
      rw [stack] at levels
      exact ⟨b, .outside data (List.length_eq_zero_iff.mp levels.symm) blank, alike⟩
  | @opening content f room ready tag =>
      refine ⟨_, .opening (levels ▸ room) (alike.ready ready) tag, alike.offset, ?_, alike.root⟩
      exact .cons (.refl f) alike.stack
  | @empty content f room ready tag =>
      exact ⟨_, .empty (levels ▸ room) (alike.ready ready) tag, alike.receive (.same f.close)⟩
  | @closing content f fs stack same ready =>
      have frames := alike.stack
      rw [stack] at frames
      rcases List.forall₂_cons_left_iff.mp frames with ⟨g, gs, first, others, stack'⟩
      have around : Alike x y { a with stack := fs } { b with stack := gs } :=
        ⟨alike.offset, others, alike.root⟩
      refine ⟨_, .closing stack' (first.name ▸ same) ?_, around.receive first.close⟩
      exact around.ready ready

theorem Alike.closed {offset : Nat} {e : Element} (alike : Alike x y ⟨offset, [], some e⟩ b) :
    ∃ e', b = ⟨offset, [], some e'⟩ ∧ Element.Alike x y e e' := by
  rcases b with ⟨offset', stack, root⟩
  rcases alike with ⟨rfl, frames, roots⟩
  cases frames
  cases roots with
  | some elements => exact ⟨_, rfl, elements⟩

theorem Alike.reads (alike : Alike x y a b) (reads : Reads maxDepth a ts next) :
    ∃ next', Reads maxDepth b ts next' ∧ Alike x y next next' := by
  induction reads generalizing b with
  | nil => exact ⟨b, .nil, alike⟩
  | cons first _ ih =>
      rcases alike.moves first with ⟨between, first', alike_between⟩
      rcases ih alike_between with ⟨last, others', alike_last⟩
      exact ⟨last, .cons first' others', alike_last⟩

end Assembly

namespace Element

variable {limits : Limits} {text other : String} {front cs ds after : List Char} {e : Element}

theorem tokens_of_place (whole : (Scan.ofText front).fault = none) (writes : Writes x cs)
    (after : List Char) :
    ∃ t ts, t.IsStart ∧ Holds (t :: ts) [x] [] ∧
      Scan.ofText (withoutMark (front ++ cs ++ after)) =
        ⟨(Scan.ofText (withoutMark front)).tokens ++ (t :: ts ++ (Scan.ofText after).tokens),
          (Scan.ofText after).fault⟩ := by
  rcases writes.cut after with ⟨t, ts, start, holds, cut⟩
  rcases writes.head with ⟨rest, rfl⟩
  refine ⟨t, ts, start, holds, ?_⟩
  rw [List.append_assoc, List.cons_append, ofText_behind whole, ← List.cons_append, cut]

/-- A text that can be read with one element can be read with another one in its place. -/
theorem parse_exchange (whole : (Scan.ofText front).fault = none) (writes : Writes x cs)
    (writes' : Writes y ds) (shape : text.toList = front ++ cs ++ after)
    (shape' : other.toList = front ++ ds ++ after) (small : other.utf8ByteSize ≤ limits.maxBytes)
    (read : parse limits text = .ok e) : ∃ e', parse limits other = .ok e' ∧ Alike x y e e' := by
  rcases tokens_of_place whole writes after with ⟨t, ts, start, holds, cut⟩
  rcases tokens_of_place whole writes' after with ⟨u, us, start', holds', cut'⟩
  rcases parse_eq_ok_iff_reads.mp read with ⟨-, fault, reads⟩
  rw [shape, cut] at fault reads
  rcases Assembly.reads_append_iff.mp reads with ⟨before, reads_front, reads⟩
  rcases Assembly.reads_append_iff.mp reads with ⟨between, reads_element, reads_after⟩
  rcases (Assembly.reads_element_iff start holds writes.childless).mp reads_element with
    ⟨ready, room, rfl⟩
  have exchanged := (Assembly.Alike.refl before).receive (@Alike.exchanged x y)
  rcases exchanged.reads reads_after with ⟨last, reads_after', alike⟩
  rcases alike.closed with ⟨e', rfl, elements⟩
  have reads_element' := (Assembly.reads_element_iff start' holds' writes'.childless).mpr
    ⟨ready, room, rfl⟩
  refine ⟨e', parse_eq_ok_iff_reads.mpr ⟨small, ?_, ?_⟩, elements⟩
  · rw [shape', cut']
    exact fault
  · rw [shape', cut']
    exact reads_front.append (reads_element'.append reads_after')

end Element

end Terminology.Markup
