import Mathlib.Data.List.TakeWhile
import Terminology.Proofs.Markup.Cut

/-!
Tokens that are complete: each is a piece of text from its first character to its last, and it is
cut off as that token whatever follows. A text that is cut without a fault is the tokens that it
was cut into, one after the other.
-/

namespace Terminology.Markup

open Text

namespace Token

/-- What follows `<?` ends at the first `?>`, where the question mark of the start counts too, but
not as the only one. -/
theorem readInstruction_eq_ok_iff {cs rest : List Char} {t : Token} :
    readInstruction cs = .ok (t, rest) ↔
      ∃ content, cs = content ++ '?' :: '>' :: rest ∧ ¬ ['?', '>'] <:+: '?' :: content ∧
        t = if isDeclaration content then declaration content else instruction content := by
  have apart : '?' ≠ '>' := by decide
  have closes (content : List Char) :
      delimiter '?' 1 <:+: List.replicate 1 '?' ++ (content ++ ['?']) ↔
        ['?', '>'] <:+: '?' :: content :=
    @delimiter_infix_append_iff '?' 1 apart ('?' :: content) 1
  constructor
  · intro read
    unfold readInstruction at read
    split at read
    · rename_i c others after found
      cases read
      obtain ⟨rfl, missing, enough⟩ := (cut_behindMarks_iff apart).mp found
      obtain ⟨content, last, whole⟩ := (List.eq_nil_or_concat (c :: others)).resolve_left
        (List.cons_ne_nil c others)
      rw [List.concat_eq_append] at whole
      rw [whole, ← List.append_assoc, trailing_concat] at enough
      have ended : last = '?' := by
        by_contra other
        rw [if_neg other] at enough
        cases enough
      rw [whole, ended] at missing ⊢
      exact ⟨content, by simp, (closes content).not.mp missing, by simp⟩
    · cases read
  · rintro ⟨content, rfl, missing, rfl⟩
    have found : cut (behindMarks '?' 1) 1 [] (content ++ '?' :: '>' :: rest) =
        some (content ++ ['?'], rest) := by
      rw [cut_behindMarks_iff apart, closes]
      refine ⟨by simp, missing, replicate_suffix_iff.mp ?_⟩
      exact ⟨'?' :: content, by simp⟩
    obtain ⟨c, others, shape⟩ := List.exists_cons_of_ne_nil
      (List.append_ne_nil_of_right_ne_nil content (List.cons_ne_nil '?' []))
    rw [shape] at found
    have inner : (c :: others).dropLast = content := by rw [← shape, List.dropLast_concat]
    rw [readInstruction, found]
    simp only [inner]

theorem dropLast_marks (content : List Char) (mark : Char) :
    (content ++ List.replicate 2 mark).dropLast.dropLast = content := by
  rw [List.replicate_succ', ← List.append_assoc, List.dropLast_concat]
  exact List.dropLast_concat

theorem readBang_comment {content : List Char} (missing : ¬ "-->".toList <:+: content)
    (rest : List Char) :
    readBang ("--".toList ++ content ++ "-->".toList ++ rest) = .ok (comment content, rest) := by
  have found : cut (behindMarks '-' 2) 0 [] (content ++ "-->".toList ++ rest) =
      some (content ++ List.replicate 2 '-', rest) :=
    (cut_marked_iff (by decide)).mpr ⟨content, rfl, rfl, missing⟩
  have start (cs : List Char) : "--".toList.isPrefixOf ('-' :: '-' :: cs) = true := rfl
  have behind (cs : List Char) : ('-' :: '-' :: cs).drop 2 = cs := rfl
  rw [List.append_assoc, List.append_assoc, ← List.append_assoc content]
  show readBang ('-' :: '-' :: (content ++ "-->".toList ++ rest)) = _
  rw [readBang, if_pos (start _), behind, found]
  simp only [dropLast_marks]

theorem readBang_verbatim {content : List Char} (missing : ¬ "]]>".toList <:+: content)
    (rest : List Char) :
    readBang ("[CDATA[".toList ++ content ++ "]]>".toList ++ rest) =
      .ok (verbatim content, rest) := by
  have found : cut (behindMarks ']' 2) 0 [] (content ++ "]]>".toList ++ rest) =
      some (content ++ List.replicate 2 ']', rest) :=
    (cut_marked_iff (by decide)).mpr ⟨content, rfl, rfl, missing⟩
  have start (cs : List Char) :
      "[CDATA[".toList.isPrefixOf ('[' :: ("CDATA[".toList ++ cs)) = true := rfl
  have behind (cs : List Char) : ('[' :: ("CDATA[".toList ++ cs)).drop 7 = cs := rfl
  rw [List.append_assoc, List.append_assoc, ← List.append_assoc content]
  show readBang ('[' :: ("CDATA[".toList ++ (content ++ "]]>".toList ++ rest))) = _
  rw [readBang, if_pos (start _), behind, found]
  simp only [dropLast_marks]

theorem split_of_readBang {cs rest : List Char} {t : Token} (read : readBang cs = .ok (t, rest)) :
    (∃ content, t = comment content ∧ cs = "--".toList ++ content ++ "-->".toList ++ rest ∧
        ¬ "-->".toList <:+: content) ∨
      (∃ content, t = verbatim content ∧
        cs = "[CDATA[".toList ++ content ++ "]]>".toList ++ rest ∧
        ¬ "]]>".toList <:+: content) ∨
      ∃ word content, t = doctype word content ∧ cs = word ++ content ++ '>' :: rest := by
  unfold readBang at read
  split at read
  · split at read
    · rename_i start
      obtain ⟨inside, whole⟩ := List.isPrefixOf_iff_prefix.mp start
      split at read
      · rename_i found
        cases read
        rw [← whole] at found ⊢
        obtain ⟨content, rfl, shape, missing⟩ := (cut_marked_iff (by decide)).mp found
        have behind : inside = content ++ "]]>".toList ++ rest := shape
        exact .inr (.inl ⟨content, by rw [dropLast_marks], by rw [behind]; simp, missing⟩)
      · cases read
    · cases read
  · split at read
    · rename_i start
      obtain ⟨inside, whole⟩ := List.isPrefixOf_iff_prefix.mp start
      split at read
      · rename_i found
        cases read
        rw [← whole] at found ⊢
        obtain ⟨content, rfl, shape, missing⟩ := (cut_marked_iff (by decide)).mp found
        have behind : inside = content ++ "-->".toList ++ rest := shape
        exact .inl ⟨content, by rw [dropLast_marks], by rw [behind]; simp, missing⟩
      · cases read
    · cases read
  · split at read
    · cases read
    · split at read
      · cases read
      · split at read
        · rename_i found
          split at read
          · cases read
          · cases read
            obtain ⟨content, stop, last, rfl, shape, -, stopped⟩ := split_of_cut found
            have ended : stop = '>' := by
              by_contra other
              rw [balanced, if_neg other] at stopped
              cases stopped
            rw [ended] at shape
            refine .inr (.inr ⟨_, _, rfl, ?_⟩)
            rw [List.append_assoc, ← shape, List.take_append_drop]
        · cases read
  · cases read

def isRefused : Token → Bool
  | instruction _ | doctype .. => true
  | _ => false

/-- The inside of a start tag, which no mark of another kind of markup begins. -/
def Begins (content : List Char) : Prop :=
  Quoted content ∧ ∀ c ∈ content.head?, c ≠ '!' ∧ c ≠ '/' ∧ c ≠ '?'

/-- The inside of an XML declaration: its target is `xml` and no other. -/
def Declares (content : List Char) : Prop :=
  ∃ rest, content = 'x' :: 'm' :: 'l' :: rest ∧ ∀ c ∈ rest.head?, isMarkupSpace c = true

/-- A piece of markup that ends where it says so: its content does not hold what would end it
earlier. Those that are refused are not among them. -/
def Complete : Token → Prop
  | text raw => ∀ c ∈ raw, c ≠ '<'
  | opening content => Begins content ∧ content.getLast? ≠ some '/'
  | empty content => Begins (content ++ ['/'])
  | closing content => Quoted content
  | comment content => ¬ "-->".toList <:+: content
  | verbatim content => ¬ "]]>".toList <:+: content
  | declaration content => Declares content ∧ ¬ "?>".toList <:+: content
  | instruction _ | doctype .. => False

theorem isDeclaration_iff {content : List Char} :
    isDeclaration content = true ↔ Declares content := by
  constructor
  · intro declared
    unfold isDeclaration at declared
    split at declared
    · rename_i rest
      exact ⟨rest, rfl, fun c head => by rw [Option.mem_def.mp head] at declared; exact declared⟩
    · cases declared
  · rintro ⟨rest, rfl, spaced⟩
    cases rest with
    | nil => rfl
    | cons c rest => exact spaced c rfl

theorem declares_infix_iff {content : List Char} (declares : Declares content) :
    ['?', '>'] <:+: '?' :: content ↔ "?>".toList <:+: content := by
  obtain ⟨rest, rfl, -⟩ := declares
  have other : ¬ ['?', '>'] <+: '?' :: 'x' :: 'm' :: 'l' :: rest := by simp
  rw [List.infix_cons_iff, or_iff_right other]
  rfl

theorem complete_ofTag {content : List Char} (begins : Begins content) :
    (ofTag content).Complete ∧ (ofTag content).source = '<' :: (content ++ ['>']) := by
  by_cases slash : content.getLast? = some '/'
  · obtain ⟨name, rfl⟩ := List.getLast?_eq_some_iff.mp slash
    rw [ofTag, if_pos slash, List.dropLast_concat]
    exact ⟨begins, by rw [List.append_assoc]; rfl⟩
  · rw [ofTag, if_neg slash]
    exact ⟨⟨begins, slash⟩, rfl⟩

theorem source_of_readMarkup {cs rest : List Char} {t : Token}
    (read : readMarkup cs = .ok (t, rest)) :
    '<' :: cs = t.source ++ rest ∧ (t.isRefused = false → t.Complete) := by
  have closed (front content back : List Char) :
      front ++ (content ++ (back ++ rest)) = front ++ content ++ back ++ rest := by simp
  unfold readMarkup at read
  split at read
  · cases read
  · rcases split_of_readBang read with ⟨content, rfl, rfl, missing⟩ | ⟨content, rfl, rfl, missing⟩ |
      ⟨word, content, rfl, rfl⟩
    · exact ⟨rfl, fun _ => missing⟩
    · exact ⟨rfl, fun _ => missing⟩
    · refine ⟨?_, nofun⟩
      rw [List.append_assoc word content]
      exact closed ('<' :: '!' :: word) content ['>']
  · obtain ⟨content, rfl, quoted, rfl⟩ := readTag_eq_ok_iff.mp read
    exact ⟨closed ['<', '/'] content ['>'], fun _ => quoted⟩
  · obtain ⟨content, rfl, missing, rfl⟩ := readInstruction_eq_ok_iff.mp read
    have shape := closed ['<', '?'] content ['?', '>']
    cases declared : isDeclaration content with
    | true =>
        have declares := isDeclaration_iff.mp declared
        exact ⟨shape, fun _ => ⟨declares, (declares_infix_iff declares).not.mp missing⟩⟩
    | false => exact ⟨shape, nofun⟩
  · rename_i bang slash mark
    obtain ⟨content, rfl, quoted, rfl⟩ := readTag_eq_ok_iff.mp read
    have begins : Begins content := by
      refine ⟨quoted, fun c head => ?_⟩
      obtain ⟨others, rfl⟩ := List.head?_eq_some_iff.mp head
      refine ⟨?_, ?_, ?_⟩
      · rintro rfl
        exact bang _ rfl
      · rintro rfl
        exact slash _ rfl
      · rintro rfl
        exact mark _ rfl
    obtain ⟨complete, shape⟩ := complete_ofTag begins
    exact ⟨by rw [shape]; simp, fun _ => complete⟩

theorem readMarkup_begins {content : List Char} (begins : Begins content) (rest : List Char) :
    readMarkup (content ++ '>' :: rest) = .ok (ofTag content, rest) := by
  obtain ⟨quoted, unmarked⟩ := begins
  have read : readTag ofTag (content ++ '>' :: rest) = .ok (ofTag content, rest) :=
    readTag_eq_ok_iff.mpr ⟨content, rfl, quoted, rfl⟩
  cases content with
  | nil => exact read
  | cons c content =>
      obtain ⟨bang, slash, mark⟩ := unmarked c rfl
      rw [← read, List.cons_append, readMarkup]
      · nofun
      · rintro _ ⟨⟩
        exact bang rfl
      · rintro _ ⟨⟩
        exact slash rfl
      · rintro _ ⟨⟩
        exact mark rfl

theorem text_or_markup (t : Token) (complete : t.Complete) :
    (∃ raw, t = text raw) ∨ ∃ markup, t.source = '<' :: markup := by
  cases t with
  | text raw => exact .inl ⟨raw, rfl⟩
  | instruction content => exact complete.elim
  | doctype word content => exact complete.elim
  | _ => exact .inr ⟨_, rfl⟩

theorem readMarkup_of_complete {t : Token} (complete : t.Complete) {markup : List Char}
    (shape : t.source = '<' :: markup) (rest : List Char) :
    readMarkup (markup ++ rest) = .ok (t, rest) := by
  cases t with
  | text raw =>
      have start : '<' ∈ raw := by
        rw [show raw = '<' :: markup from shape]
        exact List.mem_cons_self
      exact absurd rfl (complete '<' start)
  | opening content =>
      obtain rfl : content ++ ['>'] = markup := (List.cons.inj shape).2
      rw [List.append_assoc, List.singleton_append, readMarkup_begins complete.1, ofTag,
        if_neg complete.2]
  | empty content =>
      obtain rfl : content ++ ['/', '>'] = markup := (List.cons.inj shape).2
      have slash : (content ++ ['/']).getLast? = some '/' := List.getLast?_concat
      have whole : content ++ ['/', '>'] ++ rest = content ++ ['/'] ++ '>' :: rest := by simp
      rw [whole, readMarkup_begins complete, ofTag, if_pos slash, List.dropLast_concat]
  | closing content =>
      obtain rfl : '/' :: (content ++ ['>']) = markup := (List.cons.inj shape).2
      rw [List.cons_append, List.append_assoc]
      exact readTag_eq_ok_iff.mpr ⟨content, rfl, complete, rfl⟩
  | comment content =>
      obtain rfl : '!' :: ("--".toList ++ content ++ "-->".toList) = markup :=
        (List.cons.inj shape).2
      exact readBang_comment complete rest
  | verbatim content =>
      obtain rfl : '!' :: ("[CDATA[".toList ++ content ++ "]]>".toList) = markup :=
        (List.cons.inj shape).2
      exact readBang_verbatim complete rest
  | declaration content =>
      obtain rfl : '?' :: (content ++ ['?', '>']) = markup := (List.cons.inj shape).2
      obtain ⟨declares, missing⟩ := complete
      rw [List.cons_append, List.append_assoc]
      refine readInstruction_eq_ok_iff.mpr
        ⟨content, rfl, (declares_infix_iff declares).not.mpr missing, ?_⟩
      rw [if_pos (isDeclaration_iff.mpr declares)]
  | instruction content => exact complete.elim
  | doctype word content => exact complete.elim

end Token

namespace Scan

/-- The tokens of a text are all of that text, and those that a document may have are complete. -/
theorem written_of_ofText {cs : List Char} (whole : (ofText cs).fault = none) :
    (ofText cs).tokens.flatMap Token.source = cs ∧
      ∀ t ∈ (ofText cs).tokens, t.isRefused = false → t.Complete := by
  induction size : cs.length using Nat.strongRecOn generalizing cs with
  | ind size ih =>
      subst size
      cases cs with
      | nil =>
          rw [ofText_nil]
          exact ⟨rfl, List.forall_mem_nil _⟩
      | cons c rest =>
          by_cases markup : c = '<'
          · subst markup
            cases cut : Token.readMarkup rest with
            | error fault =>
                rw [ofText_fault cut] at whole
                cases whole
            | ok found =>
                obtain ⟨t, rest'⟩ := found
                rw [ofText_token cut] at whole ⊢
                obtain ⟨shape, complete⟩ := Token.source_of_readMarkup cut
                obtain ⟨others, all⟩ := ih rest'.length
                  (Nat.lt_succ_of_lt (Token.length_of_readMarkup cut)) whole rfl
                refine ⟨?_, List.forall_mem_cons.mpr ⟨complete, all⟩⟩
                rw [shape, prepend, List.flatMap_cons, others]
          · rw [ofText_text markup] at whole ⊢
            have shorter := (List.dropWhile_suffix (l := rest) (· != '<')).length_le
            obtain ⟨others, all⟩ := ih _ (Nat.lt_succ_of_le shorter) whole rfl
            have plain : ∀ d ∈ c :: rest.takeWhile (· != '<'), d ≠ '<' := by
              refine List.forall_mem_cons.mpr ⟨markup, fun d member => ?_⟩
              exact bne_iff_ne.mp (List.mem_takeWhile_imp (p := (· != '<')) member)
            refine ⟨?_, List.forall_mem_cons.mpr ⟨fun _ => plain, all⟩⟩
            rw [prepend, List.flatMap_cons, others]
            exact congrArg (c :: ·) List.takeWhile_append_dropWhile

/-- The last tokens of one scan, and its fault, are those of another. -/
def EndsIn (s later : Scan) : Prop := ∃ us, s = ⟨us ++ later.tokens, later.fault⟩

theorem endsIn_refl (s : Scan) : s.EndsIn s := ⟨[], rfl⟩

theorem EndsIn.prepend {s later : Scan} (ends : s.EndsIn later) (t : Token) :
    (s.prepend t).EndsIn later := by
  obtain ⟨us, rfl⟩ := ends
  exact ⟨t :: us, rfl⟩

theorem endsIn_plain {raw rest : List Char} {later : Scan} (plain : ∀ c ∈ raw, c ≠ '<')
    (ends : (ofText ('<' :: rest)).EndsIn later) :
    (ofText (raw ++ '<' :: rest)).EndsIn later := by
  by_cases blank : raw = []
  · rw [blank]
    exact ends
  · rw [ofText_run blank plain (.inr rfl)]
    exact ends.prepend _

/-- Behind complete tokens a text is cut as if nothing stood before. -/
theorem endsIn_complete {ts : List Token} (complete : ∀ t ∈ ts, t.Complete) (rest : List Char) :
    (ofText (ts.flatMap Token.source ++ '<' :: rest)).EndsIn (ofText ('<' :: rest)) := by
  -- Two texts in a row are cut as one, so the induction holds for any text before the tokens.
  suffices behind : ∀ raw, (∀ c ∈ raw, c ≠ '<') →
      (ofText (raw ++ (ts.flatMap Token.source ++ '<' :: rest))).EndsIn (ofText ('<' :: rest)) from
    behind [] (List.forall_mem_nil _)
  induction ts with
  | nil => exact fun raw plain => endsIn_plain plain (endsIn_refl _)
  | cons t ts ih =>
      intro raw plain
      obtain ⟨here, others⟩ := List.forall_mem_cons.mp complete
      rw [List.flatMap_cons, List.append_assoc]
      rcases t.text_or_markup here with ⟨more, rfl⟩ | ⟨markup, shape⟩
      · have plain_more : ∀ c ∈ raw ++ more, c ≠ '<' := List.forall_mem_append.mpr ⟨plain, here⟩
        rw [← List.append_assoc]
        exact ih others (raw ++ more) plain_more
      · rw [shape, List.cons_append]
        apply endsIn_plain plain
        rw [ofText_token (Token.readMarkup_of_complete here shape _)]
        exact (ih others [] (List.forall_mem_nil _)).prepend t

end Scan

end Terminology.Markup
