import Terminology.Proofs.Markup.Content

/-!
What limits do to reading. A text is read as the same element within all limits that it fits in.
Where it does not fit, it is refused for its size, or for its depth at the first tag that would
open an element too deep.
-/

namespace Terminology.Markup

namespace Assembly

variable {wide : Nat} (narrow : Nat)

theorem checkOpen_full {a : Assembly} (ready : a.Ready) (full : narrow ≤ a.stack.length) :
    a.checkOpen narrow = .error (.tooDeep narrow) := by
  obtain ⟨offset, stack, root⟩ := a
  have free : ¬(stack.isEmpty = true ∧ root.isSome = true) := by
    intro closed
    have none_there : root = none := ready (List.isEmpty_iff.mp closed.1)
    rw [none_there] at closed
    cases closed.2
  rw [checkOpen, if_neg free, if_pos full]

theorem checkOpen_narrow {a : Assembly} (ready : a.Ready) :
    a.stack.length < narrow ∨ a.checkOpen narrow = .error (.tooDeep narrow) := by
  rcases Nat.lt_or_ge a.stack.length narrow with room | full
  · exact .inl room
  · exact .inr (checkOpen_full narrow ready full)

theorem interpret_narrow {a b : Assembly} {t : Token} (moves : Moves wide a t b) :
    interpret narrow a t = .ok b ∨ interpret narrow a t = .error (.tooDeep narrow) := by
  have same (moves : Moves narrow a t b) : interpret narrow a t = .ok b := interpret_iff.mpr moves
  cases moves with
  | ignored none_read => exact .inl (same (.ignored none_read))
  | inside data stack => exact .inl (same (.inside data stack))
  | outside data stack blank => exact .inl (same (.outside data stack blank))
  | opening _ ready tag =>
      rcases checkOpen_narrow narrow ready with room | refused
      · exact .inl (same (.opening room ready tag))
      · right
        rw [interpret, openElement, refused]
        rfl
  | empty _ ready tag =>
      rcases checkOpen_narrow narrow ready with room | refused
      · exact .inl (same (.empty room ready tag))
      · right
        rw [interpret, emptyElement, refused]
        rfl
  | closing stack named ready => exact .inl (same (.closing stack named ready))

theorem step_narrow {a b : Assembly} {t : Token} (taken : step wide a t = .ok b) :
    step narrow a t = .ok b ∨ step narrow a t = .error (.tooDeep narrow) := by
  obtain ⟨c, moves, rfl⟩ := step_iff.mp taken
  rcases interpret_narrow narrow moves with same | refused
  · left
    rw [step, same]
    rfl
  · right
    rw [step, refused]
    rfl

/-- Two runs over the same tokens agree until the narrower limit ends one of them. -/
theorem foldlM_narrow {a b : Assembly} {ts : List Token}
    (run : ts.foldlM (step wide) a = .ok b) :
    ts.foldlM (step narrow) a = .ok b ∨ ts.foldlM (step narrow) a = .error (.tooDeep narrow) := by
  induction ts generalizing a with
  | nil => exact .inl run
  | cons t ts ih =>
      rw [List.foldlM_cons] at run ⊢
      cases taken : step wide a t with
      | error m =>
          rw [taken] at run
          cases run
      | ok next =>
          rw [taken] at run
          rcases step_narrow narrow taken with same | refused
          · rw [same]
            exact ih run
          · rw [refused]
            exact .inr rfl

end Assembly

namespace Element

theorem ofScan_narrow {wide : Nat} (narrow : Nat) {s : Scan} {e : Element}
    (read : ofScan wide s = .ok e) :
    ofScan narrow s = .ok e ∨ ofScan narrow s = .error (.tooDeep narrow) := by
  rw [ofScan] at read ⊢
  cases run : s.tokens.foldlM (Assembly.step wide) .start with
  | error m =>
      rw [run] at read
      cases read
  | ok a =>
      rw [run] at read
      rcases Assembly.foldlM_narrow narrow run with same | refused
      · rw [same]
        exact .inl read
      · rw [refused]
        exact .inr rfl

theorem parse_of_le {limits wider : Limits} {text : String} {e : Element}
    (read : parse limits text = .ok e) (deeper : limits.maxDepth ≤ wider.maxDepth)
    (larger : limits.maxBytes ≤ wider.maxBytes) : parse wider text = .ok e := by
  obtain ⟨small, shallow, content⟩ := parse_eq_ok_iff.mp read
  exact parse_eq_ok_iff.mpr ⟨small.trans larger, shallow.trans deeper, content⟩

theorem parse_of_large {limits : Limits} {text : String}
    (large : limits.maxBytes < text.utf8ByteSize) :
    parse limits text = .error (.tooLarge text.utf8ByteSize limits.maxBytes) := by
  rw [parse, if_pos large]

theorem parse_of_deep {limits other : Limits} {text : String} {e : Element}
    (read : parse other text = .ok e) (small : text.utf8ByteSize ≤ limits.maxBytes)
    (deep : limits.maxDepth < e.depth) : parse limits text = .error (.tooDeep limits.maxDepth) := by
  have whole : ofScan other.maxDepth (.ofText (withoutMark text.toList)) = .ok e := by
    rw [parse, if_neg (Nat.not_lt.mpr (parse_eq_ok_iff.mp read).1)] at read
    exact read
  have unfolded : parse limits text =
      ofScan limits.maxDepth (.ofText (withoutMark text.toList)) := by
    rw [parse, if_neg (Nat.not_lt.mpr small)]
  rw [unfolded]
  apply (ofScan_narrow limits.maxDepth whole).resolve_left
  intro same
  have shallow : e.depth ≤ limits.maxDepth := depth_of_parse (unfolded.trans same)
  exact absurd shallow (Nat.not_le.mpr deep)

/-- Limits only cut, and they cut exactly. What is read within wider limits is read as the same
element within narrower ones if its bytes and its nesting are; otherwise it is refused, for its
bytes before its depth. What is read within the narrower limits is read within the wider ones. -/
theorem parse_narrower {limits wider : Limits} (text : String)
    (deeper : limits.maxDepth ≤ wider.maxDepth) (larger : limits.maxBytes ≤ wider.maxBytes) :
    (∀ e, parse wider text = .ok e →
      parse limits text =
        if limits.maxBytes < text.utf8ByteSize then
          .error (.tooLarge text.utf8ByteSize limits.maxBytes)
        else if limits.maxDepth < e.depth then .error (.tooDeep limits.maxDepth)
        else .ok e) ∧
    ∀ e, parse limits text = .ok e → parse wider text = .ok e := by
  refine ⟨?_, fun e read => parse_of_le read deeper larger⟩
  intro e read
  split
  · rename_i large
    exact parse_of_large large
  · rename_i small
    have small : text.utf8ByteSize ≤ limits.maxBytes := Nat.not_lt.mp small
    split
    · rename_i deep
      exact parse_of_deep read small deep
    · rename_i shallow
      have content := (parse_eq_ok_iff.mp read).2.2
      exact parse_eq_ok_iff.mpr ⟨small, Nat.not_lt.mp shallow, content⟩

/-- An empty element tag reaches the depth of the element that it stands for. -/
theorem parse_narrower_empty :
    let limits : Limits := { maxDepth := 2, maxBytes := 64 }
    let wider : Limits := { maxDepth := 3, maxBytes := 64 }
    let text := "<a><b><c/></b></a>"
    limits.maxDepth ≤ wider.maxDepth ∧ limits.maxBytes ≤ wider.maxBytes ∧
      (∃ e, parse wider text = .ok e ∧ e.depth = 3) ∧
      parse limits text = .error (.tooDeep 2) ∧
      ∀ e, parse limits text = .ok e → parse wider text = .ok e := by
  intro limits wider text
  have known : (parse wider text).toOption.map depth = some 3 := by decide +kernel
  obtain ⟨e, parsed, nested⟩ := exists_of_view known
  obtain ⟨cut, widen⟩ := @parse_narrower limits wider text (by decide) (by decide)
  have refused : parse limits text = .error (.tooDeep 2) := by
    rw [cut e parsed, nested]
    rfl
  exact ⟨by decide, by decide, ⟨e, parsed, nested⟩, refused, widen⟩

end Element

end Terminology.Markup
