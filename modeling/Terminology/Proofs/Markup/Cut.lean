import Mathlib.Data.List.Infix
import Terminology.Proofs.Markup.Scan

/-!
Where a piece of markup ends. A tag ends at the first `>` outside quotes; a comment, verbatim text
and what follows `<?` end at the first place where their closing marks stand.
-/

namespace Terminology.Markup.Token

theorem split_of_cut {σ : Type} {step : σ → Char → Option σ} {state : σ}
    {read cs content rest : List Char} (found : cut step state read cs = some (content, rest)) :
    ∃ inside stop last, content = read.reverse ++ inside ∧ cs = inside ++ stop :: rest ∧
      inside.foldlM step state = some last ∧ step last stop = none := by
  induction cs generalizing state read with
  | nil => cases found
  | cons c cs ih =>
      rw [cut] at found
      cases next : step state c with
      | none =>
          rw [next] at found
          cases found
          exact ⟨[], c, state, by simp, rfl, rfl, next⟩
      | some between =>
          rw [next] at found
          obtain ⟨inside, stop, last, shape, rfl, through, stopped⟩ := ih found
          refine ⟨c :: inside, stop, last, by simp [shape], rfl, ?_, stopped⟩
          rw [List.foldlM_cons, next]
          exact through

/-- Text in which every quote is closed and each `>` stands between quotes. -/
inductive Quoted : List Char → Prop
  | nil : Quoted []
  | plain {c : Char} {cs : List Char} (other : c ≠ '>' ∧ c ≠ '"' ∧ c ≠ '\x27')
      (behind : Quoted cs) : Quoted (c :: cs)
  | quoted {quote : Char} {inside cs : List Char} (mark : quote = '"' ∨ quote = '\x27')
      (within : ∀ c ∈ inside, c ≠ quote) (behind : Quoted cs) :
      Quoted (quote :: inside ++ quote :: cs)

theorem outsideQuotes_of_quoted {cs : List Char} (quoted : Quoted cs) :
    cs.foldlM outsideQuotes none = some none := by
  induction quoted with
  | nil => rfl
  | @plain c cs other _ ih =>
      rw [← List.singleton_append, List.foldlM_append,
        outsideQuotes_plain (List.forall_mem_singleton.mpr other)]
      exact ih
  | @quoted quote inside cs mark within _ ih =>
      have opened : outsideQuotes none quote = some (some quote) := by
        rcases mark with rfl | rfl <;> rfl
      have closed : outsideQuotes (some quote) quote = some none := by
        simp [outsideQuotes]
      rw [List.cons_append, List.foldlM_cons, opened, Option.bind_eq_bind, Option.bind_some,
        List.foldlM_append, outsideQuotes_quoted within, Option.bind_eq_bind, Option.bind_some,
        List.foldlM_cons, closed]
      exact ih

/-- Where a tag goes on up to its end, all quotes in it are closed; from inside quotes, they are
closed first. -/
theorem quoted_of_outsideQuotes (cs : List Char) :
    (cs.foldlM outsideQuotes none = some none → Quoted cs) ∧
      ∀ quote, cs.foldlM outsideQuotes (some quote) = some none →
        ∃ inside rest, cs = inside ++ quote :: rest ∧ (∀ c ∈ inside, c ≠ quote) ∧ Quoted rest := by
  induction cs with
  | nil => exact ⟨fun _ => .nil, nofun⟩
  | cons c cs ih =>
      obtain ⟨outside, inside⟩ := ih
      constructor
      · intro through
        rw [List.foldlM_cons, outsideQuotes] at through
        by_cases stop : c = '>'
        · simp [stop] at through
        · by_cases mark : c = '"' ∨ c = '\x27'
          · simp only [stop, mark, if_true, if_false] at through
            obtain ⟨quoted, rest, rfl, within, behind⟩ := inside c through
            exact .quoted mark within behind
          · simp only [stop, mark, if_false] at through
            exact .plain ⟨stop, not_or.mp mark⟩ (outside through)
      · intro quote through
        rw [List.foldlM_cons, outsideQuotes] at through
        by_cases close : c = quote
        · simp only [close, if_true] at through
          exact ⟨[], cs, by rw [close]; rfl, List.forall_mem_nil _, outside through⟩
        · simp only [close, if_false] at through
          obtain ⟨quoted, rest, rfl, within, behind⟩ := inside quote through
          exact ⟨c :: quoted, rest, rfl, List.forall_mem_cons.mpr ⟨close, within⟩, behind⟩

theorem readTag_eq_ok_iff {make : List Char → Token} {cs rest : List Char} {t : Token} :
    readTag make cs = .ok (t, rest) ↔
      ∃ content, cs = content ++ '>' :: rest ∧ Quoted content ∧ t = make content := by
  constructor
  · intro read
    unfold readTag at read
    split at read
    · rename_i content after found
      cases read
      obtain ⟨inside, stop, last, rfl, rfl, through, stopped⟩ := split_of_cut found
      cases last with
      | some quote => cases stopped
      | none =>
          have ended : stop = '>' := by
            by_contra other
            rw [outsideQuotes, if_neg other] at stopped
            cases stopped
          rw [ended]
          exact ⟨content, rfl, (quoted_of_outsideQuotes content).1 through, rfl⟩
    · cases read
  · rintro ⟨content, rfl, quoted, rfl⟩
    exact readTag_content (outsideQuotes_of_quoted quoted)

section

variable {mark : Char} {count marks : Nat}

def trailing (mark : Char) (cs : List Char) : Nat := (cs.reverse.takeWhile (· == mark)).length

def delimiter (mark : Char) (count : Nat) : List Char := List.replicate count mark ++ ['>']

theorem replicate_suffix_iff {cs : List Char} :
    List.replicate count mark <:+ cs ↔ count ≤ trailing mark cs := by
  rw [← List.reverse_prefix, List.reverse_replicate, trailing]
  induction cs.reverse generalizing count with
  | nil => simp
  | cons c cs ih =>
      cases count with
      | zero => simp
      | succ count =>
          rw [List.replicate_succ]
          by_cases same : c = mark
          · simp [same, ih]
          · simp [same, Ne.symm same]

theorem trailing_concat (cs : List Char) (c : Char) :
    trailing mark (cs ++ [c]) = if c = mark then trailing mark cs + 1 else 0 := by
  by_cases same : c = mark <;> simp [trailing, same]

theorem trailing_replicate : trailing mark (List.replicate marks mark) = marks := by
  simp [trailing]

theorem delimiter_infix_concat_iff {cs : List Char} {c : Char} :
    delimiter mark count <:+: cs ++ [c] ↔
      delimiter mark count <:+: cs ∨ (c = '>' ∧ count ≤ trailing mark cs) := by
  have ends : delimiter mark count <:+ cs ++ [c] ↔ c = '>' ∧ List.replicate count mark <:+ cs := by
    rw [List.suffix_concat_iff, delimiter]
    constructor
    · rintro (none_left | ⟨before, same, behind⟩)
      · cases List.append_ne_nil_of_right_ne_nil _ (List.cons_ne_nil _ _) none_left
      · obtain ⟨rfl, last⟩ := List.append_inj' same rfl
        exact ⟨(List.cons.inj last).1.symm, behind⟩
    · rintro ⟨rfl, behind⟩
      exact .inr ⟨_, rfl, behind⟩
  rw [List.infix_concat_iff, ends, replicate_suffix_iff, or_comm]

theorem not_delimiter_infix_replicate (apart : mark ≠ '>') :
    ¬ delimiter mark count <:+: List.replicate marks mark := by
  intro inside
  have member : '>' ∈ List.replicate marks mark := inside.subset (by simp [delimiter])
  exact apart (List.mem_replicate.mp member).2.symm

/-- Reading goes on as long as no delimiter was read, and knows how many marks were read last. -/
theorem behindMarks_eq_some_iff (apart : mark ≠ '>') {cs : List Char} {last : Nat} :
    cs.foldlM (behindMarks mark count) marks = some last ↔
      ¬ delimiter mark count <:+: List.replicate marks mark ++ cs ∧
        last = trailing mark (List.replicate marks mark ++ cs) := by
  induction cs using List.reverseRecOn generalizing last with
  | nil =>
      rw [List.append_nil, trailing_replicate]
      simp [not_delimiter_infix_replicate apart, eq_comm]
  | append_singleton cs c ih =>
      rw [List.foldlM_append, ← List.append_assoc, delimiter_infix_concat_iff, trailing_concat]
      cases through : cs.foldlM (behindMarks mark count) marks with
      | none =>
          have found : delimiter mark count <:+: List.replicate marks mark ++ cs := by
            by_contra missing
            have goes_on := ih.mpr ⟨missing, rfl⟩
            rw [through] at goes_on
            cases goes_on
          simp [found]
      | some between =>
          obtain ⟨missing, rfl⟩ := ih.mp through
          by_cases stop : c = '>' ∧ count ≤ trailing mark (List.replicate marks mark ++ cs)
          · simp [behindMarks, stop]
          · simp [behindMarks, stop, missing, eq_comm]

theorem cut_behindMarks_iff (apart : mark ≠ '>') {cs read rest : List Char} :
    cut (behindMarks mark count) marks [] cs = some (read, rest) ↔
      cs = read ++ '>' :: rest ∧
        ¬ delimiter mark count <:+: List.replicate marks mark ++ read ∧
          count ≤ trailing mark (List.replicate marks mark ++ read) := by
  constructor
  · intro found
    obtain ⟨inside, stop, last, rfl, rfl, through, stopped⟩ := split_of_cut found
    obtain ⟨missing, rfl⟩ := (behindMarks_eq_some_iff apart).mp through
    rw [behindMarks] at stopped
    split at stopped
    · rename_i ended
      rw [ended.1]
      exact ⟨rfl, missing, ended.2⟩
    · cases stopped
  · rintro ⟨rfl, missing, enough⟩
    apply cut_stop ((behindMarks_eq_some_iff apart).mpr ⟨missing, rfl⟩)
    rw [behindMarks, if_pos ⟨rfl, enough⟩]

theorem delimiter_infix_append_iff (apart : mark ≠ '>') {cs : List Char} (n : Nat) :
    delimiter mark count <:+: cs ++ List.replicate n mark ↔ delimiter mark count <:+: cs := by
  induction n with
  | zero => simp
  | succ n ih =>
      rw [List.replicate_succ', ← List.append_assoc, delimiter_infix_concat_iff, ih]
      simp [apart]

theorem cut_marked_iff (apart : mark ≠ '>') {cs read rest : List Char} :
    cut (behindMarks mark count) 0 [] cs = some (read, rest) ↔
      ∃ content, read = content ++ List.replicate count mark ∧
        cs = content ++ delimiter mark count ++ rest ∧ ¬ delimiter mark count <:+: content := by
  rw [cut_behindMarks_iff apart, List.replicate_zero, List.nil_append, ← replicate_suffix_iff]
  constructor
  · rintro ⟨rfl, missing, content, rfl⟩
    rw [delimiter_infix_append_iff apart] at missing
    exact ⟨content, rfl, by simp [delimiter], missing⟩
  · rintro ⟨content, rfl, rfl, missing⟩
    rw [delimiter_infix_append_iff apart]
    exact ⟨by simp [delimiter], missing, List.suffix_append _ _⟩

end

end Terminology.Markup.Token
