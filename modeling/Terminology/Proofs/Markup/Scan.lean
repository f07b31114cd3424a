import Terminology.Markup.Token

/-!
How a text falls into tokens: one equation for each way that a text can begin. What was cut
before has no influence on what is cut next.
-/

namespace Terminology.Markup

namespace Scan

def prepend (t : Token) (s : Scan) : Scan := ⟨t :: s.tokens, s.fault⟩

theorem resume_nil (read : List Token) : resume read [] = ⟨read.reverse, none⟩ := by
  rw [resume]

theorem resume_token {read : List Token} {rest rest' : List Char} {t : Token}
    (cut : Token.readMarkup rest = .ok (t, rest')) :
    resume read ('<' :: rest) = resume (t :: read) rest' := by
  rw [resume]
  simp only [if_true]
  split
  · rename_i found
    rw [cut] at found
    cases found
    rfl
  · rename_i fault found
    rw [cut] at found
    cases found

theorem resume_fault {read : List Token} {rest : List Char} {fault : Fault}
    (stuck : Token.readMarkup rest = .error fault) :
    resume read ('<' :: rest) = ⟨read.reverse, some fault⟩ := by
  rw [resume]
  simp only [if_true]
  split
  · rename_i found
    rw [stuck] at found
    cases found
  · rename_i found
    rw [stuck] at found
    cases found
    rfl

theorem resume_text {read : List Token} {c : Char} {rest : List Char} (plain : c ≠ '<') :
    resume read (c :: rest) =
      resume (.text (c :: rest.takeWhile (· != '<')) :: read) (rest.dropWhile (· != '<')) := by
  rw [resume]
  simp only [plain, if_false]

theorem resume_eq (read : List Token) (cs : List Char) :
    resume read cs = ⟨read.reverse ++ (ofText cs).tokens, (ofText cs).fault⟩ := by
  unfold ofText
  -- A token leaves less text, so the claim for what is left holds of any tokens before it.
  induction size : cs.length using Nat.strongRecOn generalizing read cs with
  | ind size ih =>
      subst size
      cases cs with
      | nil => simp [resume_nil]
      | cons c rest =>
          by_cases markup : c = '<'
          · subst markup
            cases cut : Token.readMarkup rest with
            | error fault => simp [resume_fault cut]
            | ok found =>
                obtain ⟨t, rest'⟩ := found
                have shorter := Token.length_of_readMarkup cut
                have next := fun read => ih rest'.length (Nat.lt_succ_of_lt shorter) read rest' rfl
                rw [resume_token cut, resume_token cut, next (t :: read), next [t]]
                simp
          · have shorter := (List.dropWhile_suffix (l := rest) (· != '<')).length_le
            have next := fun read => ih _ (Nat.lt_succ_of_le shorter) read
              (rest.dropWhile (· != '<')) rfl
            rw [resume_text markup, resume_text markup, next (_ :: read), next [_]]
            simp

theorem ofText_nil : ofText [] = ⟨[], none⟩ := resume_nil []

theorem ofText_token {rest rest' : List Char} {t : Token}
    (cut : Token.readMarkup rest = .ok (t, rest')) :
    ofText ('<' :: rest) = (ofText rest').prepend t := by
  rw [ofText, resume_token cut, resume_eq]
  rfl

theorem ofText_fault {rest : List Char} {fault : Fault}
    (stuck : Token.readMarkup rest = .error fault) : ofText ('<' :: rest) = ⟨[], some fault⟩ :=
  resume_fault stuck

theorem ofText_text {c : Char} {rest : List Char} (plain : c ≠ '<') :
    ofText (c :: rest) = (ofText (rest.dropWhile (· != '<'))).prepend
      (.text (c :: rest.takeWhile (· != '<'))) := by
  rw [ofText, resume_text plain, resume_eq]
  rfl

theorem ofText_run {text rest : List Char} (some_char : text ≠ []) (plain : ∀ c ∈ text, c ≠ '<')
    (stop : rest = [] ∨ rest.head? = some '<') :
    ofText (text ++ rest) = (ofText rest).prepend (.text text) := by
  cases text with
  | nil => exact absurd rfl some_char
  | cons c cs =>
      have others : ∀ d ∈ cs, (d != '<') = true := by
        intro d member
        exact bne_iff_ne.mpr (plain d (List.mem_cons_of_mem c member))
      rw [List.cons_append, ofText_text (plain c List.mem_cons_self),
        List.takeWhile_append_of_pos others, List.dropWhile_append_of_pos others]
      rcases stop with rfl | head
      · simp
      · obtain ⟨others, rfl⟩ := List.head?_eq_some_iff.mp head
        simp

end Scan

namespace Token

variable {σ : Type} {step : σ → Char → Option σ}

theorem cut_append {state state' : σ} {read content rest : List Char}
    (through : content.foldlM step state = some state') :
    cut step state read (content ++ rest) = cut step state' (content.reverse ++ read) rest := by
  induction content generalizing state read with
  | nil =>
      cases through
      rfl
  | cons c cs ih =>
      rw [List.foldlM_cons] at through
      cases next : step state c with
      | none =>
          rw [next] at through
          cases through
      | some between =>
          rw [next] at through
          rw [List.cons_append, cut, next, List.reverse_cons, List.append_assoc]
          exact ih through

theorem cut_stop {state state' : σ} {content rest : List Char} {stop : Char}
    (through : content.foldlM step state = some state') (stopped : step state' stop = none) :
    cut step state [] (content ++ stop :: rest) = some (content, rest) := by
  rw [cut_append through, cut, stopped, List.append_nil, List.reverse_reverse]

theorem outsideQuotes_plain {cs : List Char} (plain : ∀ c ∈ cs, c ≠ '>' ∧ c ≠ '"' ∧ c ≠ '\x27') :
    cs.foldlM outsideQuotes none = some none := by
  induction cs with
  | nil => rfl
  | cons c cs ih =>
      obtain ⟨stop, double, single⟩ := plain c List.mem_cons_self
      have others := ih fun d member => plain d (List.mem_cons_of_mem c member)
      rw [List.foldlM_cons, outsideQuotes, if_neg stop, if_neg (not_or.mpr ⟨double, single⟩)]
      exact others

theorem outsideQuotes_quoted {quote : Char} {cs : List Char} (inside : ∀ c ∈ cs, c ≠ quote) :
    cs.foldlM outsideQuotes (some quote) = some (some quote) := by
  induction cs with
  | nil => rfl
  | cons c cs ih =>
      have others := ih fun d member => inside d (List.mem_cons_of_mem c member)
      rw [List.foldlM_cons, outsideQuotes, if_neg (inside c List.mem_cons_self)]
      exact others

theorem readTag_content {make : List Char → Token} {content rest : List Char}
    (through : content.foldlM outsideQuotes none = some none) :
    readTag make (content ++ '>' :: rest) = .ok (make content, rest) := by
  rw [readTag, cut_stop through rfl]

end Token

end Terminology.Markup
