import Terminology.Proofs.Markup.Rendering

/-!
One element in the middle of a text. Text in front of it that is cut without a fault is cut into the
same tokens whatever the element is, and what follows is cut as if it stood alone. To the elements
that are open there, the tokens of the element mean that it is added to them.
-/

namespace Terminology.Markup

open Text

namespace Token

theorem cut_more {σ : Type} {step : σ → Char → Option σ} {state : σ}
    {read cs content rest : List Char} (found : cut step state read cs = some (content, rest))
    (more : List Char) : cut step state read (cs ++ more) = some (content, rest ++ more) := by
  induction cs generalizing state read with
  | nil => cases found
  | cons c cs ih =>
      rw [cut] at found
      rw [List.cons_append, cut]
      cases next : step state c with
      | none =>
          rw [next] at found
          cases found
          rfl
      | some between =>
          rw [next] at found
          exact ih found

variable {cs rest : List Char} {t : Token}

theorem readTag_more {make : List Char → Token} (read : readTag make cs = .ok (t, rest))
    (more : List Char) : readTag make (cs ++ more) = .ok (t, rest ++ more) := by
  rw [readTag] at read ⊢
  cases found : cut outsideQuotes none [] cs with
  | none =>
      rw [found] at read
      cases read
  | some both =>
      rw [found] at read
      rw [cut_more found]
      cases read
      rfl

theorem readInstruction_more (read : readInstruction cs = .ok (t, rest)) (more : List Char) :
    readInstruction (cs ++ more) = .ok (t, rest ++ more) := by
  unfold readInstruction at read ⊢
  split at read
  · rename_i found
    rw [cut_more found]
    cases read
    rfl
  · cases read

theorem cut_behind_more {mark : Char} {count size : Nat} {start content : List Char}
    (begins : start.isPrefixOf cs = true)
    (found : cut (behindMarks mark count) 0 [] (cs.drop size) = some (content, rest))
    (length : start.length = size) (more : List Char) :
    start.isPrefixOf (cs ++ more) = true ∧
      cut (behindMarks mark count) 0 [] ((cs ++ more).drop size) =
        some (content, rest ++ more) := by
  have start_of := List.isPrefixOf_iff_prefix.mp begins
  constructor
  · apply List.isPrefixOf_iff_prefix.mpr
    exact start_of.trans (List.prefix_append cs more)
  · rw [List.drop_append_of_le_length (length ▸ start_of.length_le)]
    exact cut_more found more

theorem readBang_more (read : readBang cs = .ok (t, rest)) (more : List Char) :
    readBang (cs ++ more) = .ok (t, rest ++ more) := by
  unfold readBang at read
  split at read
  · rename_i inside
    split at read
    · rename_i begins
      split at read
      · rename_i found
        rcases cut_behind_more begins found rfl more with ⟨begins_more, found_more⟩
        cases read
        rw [List.cons_append, readBang, ← List.cons_append, if_pos begins_more, found_more]
      · cases read
    · cases read
  · rename_i inside
    split at read
    · rename_i begins
      split at read
      · rename_i found
        rcases cut_behind_more begins found rfl more with ⟨begins_more, found_more⟩
        cases read
        rw [List.cons_append, readBang, ← List.cons_append, if_pos begins_more, found_more]
      · cases read
    · cases read
  · rename_i c inside bracket dash
    split at read
    · cases read
    · rename_i letter
      split at read
      · cases read
      · rename_i named
        have long : 7 ≤ (c :: inside).length := by
          have size := congrArg List.length (not_not.mp named)
          have eight : "doctype".toList.length = 7 := rfl
          rw [List.length_map, List.length_take, eight] at size
          omega
        split at read
        · rename_i found
          rw [List.cons_append, readBang]
          · rw [← List.cons_append, if_neg letter, List.take_append_of_le_length long,
              if_neg named, List.drop_append_of_le_length long, cut_more found]
            split at read
            · cases read
            · rename_i some_name
              cases read
              simp only [if_neg some_name]
          · exact bracket
          · exact dash
        · cases read
  · cases read

/-- A token is cut off in the same way whatever is appended to the text. -/
theorem readMarkup_more (read : readMarkup cs = .ok (t, rest)) (more : List Char) :
    readMarkup (cs ++ more) = .ok (t, rest ++ more) := by
  unfold readMarkup at read
  split at read
  · cases read
  · exact readBang_more read more
  · exact readTag_more read more
  · exact readInstruction_more read more
  · rename_i some_char bang slash mark
    rw [← readTag_more read more]
    rcases List.exists_cons_of_ne_nil some_char with ⟨c, others, rfl⟩
    rw [List.cons_append, readMarkup]
    · exact List.cons_ne_nil c _
    · rintro _ ⟨⟩
      exact bang _ rfl
    · rintro _ ⟨⟩
      exact slash _ rfl
    · rintro _ ⟨⟩
      exact mark _ rfl

end Token

namespace Scan

theorem while_stop {α : Type} {inside : α → Bool} {stop : α} {front : List α}
    (stops : inside stop = false) (rest : List α) :
    (front ++ stop :: rest).takeWhile inside = front.takeWhile inside ∧
      (front ++ stop :: rest).dropWhile inside = front.dropWhile inside ++ stop :: rest := by
  induction front with
  | nil => simp [stops]
  | cons c front ih =>
      rw [List.cons_append]
      cases here : inside c with
      | false => simp [here]
      | true => simpa [here] using ih

theorem ofText_front {front : List Char} (whole : (ofText front).fault = none)
    (rest : List Char) :
    ofText (front ++ '<' :: rest) =
      ⟨(ofText front).tokens ++ (ofText ('<' :: rest)).tokens, (ofText ('<' :: rest)).fault⟩ := by
  induction size : front.length using Nat.strongRecOn generalizing front with
  | ind size ih =>
      subst size
      cases front with
      | nil =>
          rw [ofText_nil]
          rfl
      | cons c front =>
          by_cases markup : c = '<'
          · subst markup
            cases cut : Token.readMarkup front with
            | error fault =>
                rw [ofText_fault cut] at whole
                cases whole
            | ok found =>
                obtain ⟨t, behind⟩ := found
                have cut_too := Token.readMarkup_more cut ('<' :: rest)
                rw [ofText_token cut] at whole ⊢
                rw [List.cons_append, ofText_token cut_too,
                  ih behind.length (Nat.lt_succ_of_lt (Token.length_of_readMarkup cut)) whole rfl]
                rfl
          · have shorter := (List.dropWhile_suffix (l := front) (· != '<')).length_le
            rcases @while_stop Char (· != '<') '<' front rfl rest with ⟨taken, left⟩
            rw [ofText_text markup] at whole ⊢
            rw [List.cons_append, ofText_text markup, taken, left,
              ih _ (Nat.lt_succ_of_le shorter) whole rfl]
            rfl

theorem fault_plain {c : Char} (plain : c ≠ '<') (cs : List Char) :
    (ofText (c :: cs)).fault = (ofText cs).fault := by
  rw [ofText_text plain]
  cases cs with
  | nil => rfl
  | cons d cs =>
      by_cases markup : d = '<'
      · subst markup
        rfl
      · have skipped : (d :: cs).dropWhile (· != '<') = cs.dropWhile (· != '<') :=
          List.dropWhile_cons_of_pos (bne_iff_ne.mpr markup)
        rw [ofText_text markup, skipped]
        rfl

end Scan

theorem withoutMark_front {front : List Char} (whole : (Scan.ofText front).fault = none)
    (rest : List Char) :
    Element.withoutMark (front ++ '<' :: rest) = Element.withoutMark front ++ '<' :: rest ∧
      (Scan.ofText (Element.withoutMark front)).fault = none := by
  cases front with
  | nil => exact ⟨rfl, whole⟩
  | cons c front =>
      by_cases mark : c = '\ufeff'
      · subst mark
        have other : '\ufeff' ≠ '<' := by decide
        rw [Scan.fault_plain other] at whole
        exact ⟨rfl, whole⟩
      · rw [List.cons_append, withoutMark_of_ne mark, withoutMark_of_ne mark]
        exact ⟨rfl, whole⟩

theorem ofText_behind {front : List Char} (whole : (Scan.ofText front).fault = none)
    (rest : List Char) :
    Scan.ofText (Element.withoutMark (front ++ '<' :: rest)) =
      ⟨(Scan.ofText (Element.withoutMark front)).tokens ++ (Scan.ofText ('<' :: rest)).tokens,
        (Scan.ofText ('<' :: rest)).fault⟩ := by
  rcases withoutMark_front whole rest with ⟨shape, whole_too⟩
  rw [shape]
  exact Scan.ofText_front whole_too rest

/-- The ways to write an element that has no others in it: an empty tag, or a pair of tags and its
text in one piece, with white space and comments around it. -/
inductive Writes : Element → List Char → Prop
  | empty {content name : List Char} {attributes : List Attribute}
      (complete : (Token.empty content).Complete) (tagged : Tagged content name attributes) :
      Writes (.element (String.ofList name) attributes [] "") (Token.empty content).source
  | pair {content name close value inner : List Char} {attributes : List Attribute}
      (complete : (Token.opening content).Complete) (tagged : Tagged content name attributes)
      (closed : (Token.closing close).Complete) (same : name = Assembly.closingName close)
      (trimmed : Trimmed value) (renders : Renders value [] inner) :
      Writes (.element (String.ofList name) attributes [] (String.ofList value))
        ((Token.opening content).source ++ inner ++ (Token.closing close).source)

variable {e : Element} {cs : List Char}

theorem Writes.head (writes : Writes e cs) : ∃ rest, cs = '<' :: rest := by
  cases writes with
  | empty _ _ => exact ⟨_, rfl⟩
  | pair _ _ _ _ _ _ => exact ⟨_, rfl⟩

theorem Writes.childless (writes : Writes e cs) : e.depth = 1 := by
  cases writes <;> rfl

/-- The token begins an element. -/
def Token.IsStart (t : Token) : Prop := ∃ content, t = .opening content ∨ t = .empty content

/-- An element that is written is cut into tokens that hold it and nothing else, whatever
follows. -/
theorem Writes.cut (writes : Writes e cs) (rest : List Char) :
    ∃ t ts, t.IsStart ∧ Holds (t :: ts) [e] [] ∧ Scan.ofText (cs ++ rest) =
      ⟨t :: ts ++ (Scan.ofText rest).tokens, (Scan.ofText rest).fault⟩ := by
  cases writes with
  | @empty content name attributes complete tagged =>
      refine ⟨.empty content, [], ⟨content, .inr rfl⟩, .leaf tagged .nil, ?_⟩
      exact ofText_complete complete rfl rest
  | @pair content name close value inner attributes complete tagged closed same trimmed renders =>
      have within : Yields inner ((Token.closing close).source ++ rest) [] value :=
        @yields_of_renders inner _ [] value renders (List.forall_mem_nil _) trimmed [] []
          (List.forall_mem_nil _) .nil (.inl rfl) (.inr rfl)
      rcases within with ⟨ts, pieces, cut, holds, rfl⟩
      have node := Holds.node tagged holds same .nil
      rw [List.cons_append] at node
      refine ⟨.opening content, ts ++ [.closing close], ⟨content, .inl rfl⟩, node, ?_⟩
      calc Scan.ofText ((Token.opening content).source ++ inner ++ (Token.closing close).source ++
            rest)
          = (Scan.ofText (inner ++ ((Token.closing close).source ++ rest))).prepend
              (.opening content) := by
            rw [List.append_assoc, List.append_assoc, ofText_complete complete rfl]
        _ = ⟨.opening content :: (ts ++ .closing close :: (Scan.ofText rest).tokens),
              (Scan.ofText rest).fault⟩ := by
            rw [cut, ofText_complete closed rfl]
            rfl
        _ = _ := by simp

namespace Assembly

variable {maxDepth : Nat} {a b c : Assembly} {t : Token} {ts us : List Token}

theorem Moves.unique (moves : Moves maxDepth a t b) (moves' : Moves maxDepth a t c) : b = c := by
  rw [← interpret_iff] at moves moves'
  exact Except.ok.inj (moves.symm.trans moves')

theorem Reads.unique (reads : Reads maxDepth a ts b) (reads' : Reads maxDepth a ts c) : b = c := by
  induction reads with
  | nil =>
      cases reads'
      rfl
  | cons first _ ih =>
      cases reads' with
      | cons first' others' =>
          rw [first.unique first'] at ih
          exact ih others'

theorem reads_append_iff :
    Reads maxDepth a (ts ++ us) c ↔ ∃ b, Reads maxDepth a ts b ∧ Reads maxDepth b us c := by
  constructor
  · intro reads
    induction ts generalizing a with
    | nil => exact ⟨a, .nil, reads⟩
    | cons t ts ih =>
        cases reads with
        | cons first others =>
            rcases ih others with ⟨b, before, behind⟩
            exact ⟨b, .cons first before, behind⟩
  · intro both
    rcases both with ⟨b, before, behind⟩
    exact before.append behind

/-- The tokens of an element that has no others in it can be read wherever there is room for one
more element, which is then added. -/
theorem reads_element_iff {e : Element} (start : t.IsStart) (holds : Holds (t :: ts) [e] [])
    (childless : e.depth = 1) :
    Reads maxDepth a (t :: ts) b ↔ a.Ready ∧ a.stack.length < maxDepth ∧ b = a.receive e := by
  have added (ready : a.Ready) (room : a.stack.length < maxDepth) :
      Reads maxDepth a (t :: ts) (a.receive e) := by
    have levels : a.stack.length + Element.depthAll [e] ≤ maxDepth := by
      rw [Element.depthAll, Element.depthAll, childless]
      exact room
    rw [receive_eq_extend ready]
    exact reads_of_holds holds (admits_of_ready ready e) levels
  constructor
  · intro reads
    have space : a.Ready ∧ a.stack.length < maxDepth := by
      rcases start with ⟨content, rfl | rfl⟩
      · cases reads with
        | cons first _ =>
            cases first with
            | ignored none_read => cases none_read
            | inside data _ => cases data
            | outside data _ _ => cases data
            | opening room ready _ => exact ⟨ready, room⟩
      · cases reads with
        | cons first _ =>
            cases first with
            | ignored none_read => cases none_read
            | inside data _ => cases data
            | outside data _ _ => cases data
            | empty room ready _ => exact ⟨ready, room⟩
    exact ⟨space.1, space.2, reads.unique (added space.1 space.2)⟩
  · intro space
    rcases space with ⟨ready, room, rfl⟩
    exact added ready room

end Assembly

end Terminology.Markup
