import Terminology.Proofs.Document.Tag
import Terminology.Proofs.Markup.Replacement

/-!
The inside of a start tag as it may be written, and reading it as the function that finds the
name and the attributes in it.
-/

namespace Terminology.Markup

open Text

/-- An attribute as it is written: a key, an equals sign and a quoted value, perhaps with white
space around the equals sign. The first character of a key may be any but white space. -/
inductive Assigns : List Char → Attribute → Prop
  | assigns {first quote : Char} {others before behind raw value : List Char}
      (start : isMarkupSpace first = false)
      (key : ∀ c ∈ others, c ≠ '=' ∧ isMarkupSpace c = false)
      (before_sign : ∀ c ∈ before, isMarkupSpace c = true)
      (behind_sign : ∀ c ∈ behind, isMarkupSpace c = true)
      (mark : quote = '"' ∨ quote = '\x27') (inside : ∀ c ∈ raw, c ≠ quote)
      (stands : Stands raw value) :
      Assigns (first :: others ++ before ++ '=' :: behind ++ quote :: raw ++ [quote])
        ⟨String.ofList (first :: others), String.ofList value⟩

/-- Attributes one after the other, with any white space around them. -/
inductive Records : List Char → List Attribute → Prop
  | nil {space : List Char} (spaces : ∀ c ∈ space, isMarkupSpace c = true) : Records space []
  | cons {space text rest : List Char} {a : Attribute} {others : List Attribute}
      (spaces : ∀ c ∈ space, isMarkupSpace c = true) (assigns : Assigns text a)
      (behind : Records rest others) : Records (space ++ text ++ rest) (a :: others)

/-- The inside of a start tag: a name up to the first white space, and attributes of which no two
have the same key. -/
structure Tagged (content name : List Char) (attributes : List Attribute) : Prop where
  split : ∃ rest, content = name ++ rest ∧ Records rest attributes ∧
    ∀ c ∈ rest.head?, isMarkupSpace c = true
  bare : ∀ c ∈ name, isMarkupSpace c = false
  distinct : attributes.Pairwise fun a b => a.key ≠ b.key

theorem isKeyChar_iff {c : Char} : isKeyChar c = true ↔ c ≠ '=' ∧ isMarkupSpace c = false := by
  simp [isKeyChar]

theorem split_of_readKey {size : Nat} {c : Char} {cs chars rest : List Char}
    (read : readKey size c cs = .ok (chars, rest)) :
    ∃ others before, chars = c :: others ∧ cs = others ++ before ++ '=' :: rest ∧
      (∀ d ∈ others, d ≠ '=' ∧ isMarkupSpace d = false) ∧
      ∀ d ∈ before, isMarkupSpace d = true := by
  unfold readKey at read
  split at read
  · rename_i after equals
    cases read
    obtain ⟨before, -, left, spaces, -⟩ := split_at_stop equals
    refine ⟨cs.takeWhile isKeyChar, before, rfl, ?_,
      fun d member => isKeyChar_iff.mp (List.mem_takeWhile_imp member), spaces⟩
    rw [List.append_assoc, ← left, List.takeWhile_append_dropWhile]
  · cases read

theorem split_of_readValue {size : Nat} {cs raw after : List Char}
    (read : readValue size cs = .ok (raw, after)) :
    ∃ behind quote, cs = behind ++ quote :: raw ++ quote :: after ∧
      (quote = '"' ∨ quote = '\x27') ∧ (∀ c ∈ behind, isMarkupSpace c = true) ∧
      ∀ c ∈ raw, c ≠ quote := by
  unfold readValue at read
  split at read
  · cases read
  · rename_i quote inside start
    split at read
    · rename_i mark
      split at read
      · cases read
      · rename_i close others ended
        obtain ⟨value, taken, whole, plain, closing⟩ := split_at_stop ended
        obtain ⟨behind, -, text, spaces, -⟩ := split_at_stop start
        cases bne_eq_false_iff_eq.mp closing
        rw [taken] at read
        cases read
        exact ⟨behind, quote, by rw [text, whole]; simp, mark, spaces,
          fun c member => bne_iff_ne.mp (plain c member)⟩
    · cases read

/-- What reading finds is the attributes that were read before and those that stand in the rest,
and it checks that no two of them have the same key. -/
theorem records_of_attributesFrom {size : Nat} {read : List (List Char × Attribute)}
    {cs : List Char} {attributes : List Attribute}
    (found : attributesFrom size read cs = .ok attributes)
    (distinct : read.Pairwise fun a b => a.2.key ≠ b.2.key) :
    ∃ others, attributes = read.reverse.map Prod.snd ++ others ∧ Records cs others ∧
      attributes.Pairwise fun a b => a.key ≠ b.key := by
  fun_induction attributesFrom size read cs with
  | case1 read cs blank =>
      cases found
      refine ⟨[], by simp, .nil (List.dropWhile_eq_nil_iff.mp blank), ?_⟩
      rw [List.pairwise_map, List.pairwise_reverse]
      exact distinct.imp Ne.symm
  | case6 read cs c rest start chars rest' key_read key unused raw after quoted value plain ih =>
      have fresh : ∀ earlier ∈ read, key ≠ earlier.2.key := by
        intro earlier member same
        have unequal := List.find?_eq_none.mp unused earlier member
        exact unequal (beq_iff_eq.mpr same.symm)
      obtain ⟨others, shape, records, apart⟩ := ih found (List.pairwise_cons.mpr ⟨fresh, distinct⟩)
      obtain ⟨space, -, rfl, spaces, bare⟩ := split_at_stop start
      obtain ⟨name, before, rfl, named, key_chars, before_sign⟩ := split_of_readKey key_read
      obtain ⟨behind, quote, valued, mark, behind_sign, inside⟩ := split_of_readValue quoted
      have assigns := Assigns.assigns bare key_chars before_sign behind_sign mark inside
        (unescape_eq_ok_iff.mp plain)
      refine ⟨⟨key, String.ofList value⟩ :: others, by simp [shape], ?_, apart⟩
      have text : space ++ c :: rest = space ++
          (c :: name ++ before ++ '=' :: behind ++ quote :: raw ++ [quote]) ++ after := by
        rw [named, valued]
        simp
      rw [text]
      exact .cons spaces assigns records
  | _ => cases found

theorem readKey_assigned (size : Nat) (first : Char) {others before : List Char}
    (rest : List Char) (key : ∀ c ∈ others, c ≠ '=' ∧ isMarkupSpace c = false)
    (before_sign : ∀ c ∈ before, isMarkupSpace c = true) :
    readKey size first (others ++ before ++ '=' :: rest) = .ok (first :: others, rest) := by
  have chars : ∀ c ∈ others, isKeyChar c = true := fun c member => isKeyChar_iff.mpr (key c member)
  have stop : (before ++ '=' :: rest).takeWhile isKeyChar = [] ∧
      (before ++ '=' :: rest).dropWhile isKeyChar = before ++ '=' :: rest := by
    cases before with
    | nil => simp [isKeyChar]
    | cons c before =>
        have space := before_sign c List.mem_cons_self
        simp [isKeyChar, space]
  have bare : isMarkupSpace '=' = false := rfl
  have taken : (others ++ before ++ '=' :: rest).takeWhile isKeyChar = others := by
    rw [List.append_assoc, List.takeWhile_append_of_pos chars, stop.1, List.append_nil]
  have left : ((others ++ before ++ '=' :: rest).dropWhile isKeyChar).dropWhile isMarkupSpace =
      '=' :: rest := by
    rw [List.append_assoc, List.dropWhile_append_of_pos chars, stop.2,
      dropWhile_run before_sign bare]
  simp only [readKey, left, taken]

theorem readValue_assigned (size : Nat) {quote : Char} {behind raw : List Char}
    (after : List Char) (behind_sign : ∀ c ∈ behind, isMarkupSpace c = true)
    (mark : quote = '"' ∨ quote = '\x27') (inside : ∀ c ∈ raw, c ≠ quote) :
    readValue size (behind ++ quote :: raw ++ quote :: after) = .ok (raw, after) := by
  have bare : isMarkupSpace quote = false := by rcases mark with rfl | rfl <;> rfl
  have start : (behind ++ quote :: raw ++ quote :: after).dropWhile isMarkupSpace =
      quote :: (raw ++ quote :: after) := by
    rw [List.append_assoc, List.cons_append, dropWhile_run behind_sign bare]
  have plain : ∀ c ∈ raw, (c != quote) = true := fun c member =>
    bne_iff_ne.mpr (inside c member)
  have stop : (quote != quote) = false := bne_self_eq_false quote
  have left := dropWhile_run plain stop after
  have taken := takeWhile_run plain stop after
  simp only [readValue, start, mark, if_true, left, taken]

theorem attributesFrom_of_records {size : Nat} {read : List (List Char × Attribute)}
    {cs : List Char} {others : List Attribute} (records : Records cs others)
    (distinct : (read.reverse.map Prod.snd ++ others).Pairwise fun a b => a.key ≠ b.key) :
    attributesFrom size read cs = .ok (read.reverse.map Prod.snd ++ others) := by
  induction records generalizing read with
  | nil spaces =>
      rw [attributesFrom_blank size read (List.dropWhile_eq_nil_iff.mpr spaces)]
      simp
  | @cons space text rest a others spaces assigns _ ih =>
      cases assigns with
      | @assigns first quote name before behind raw value start key before_sign behind_sign mark
          inside stands =>
          have shape : space ++ (first :: name ++ before ++ '=' :: behind ++ quote :: raw ++
              [quote]) ++ rest = space ++ first :: (name ++ before ++
                '=' :: (behind ++ quote :: raw ++ quote :: rest)) := by simp
          have begin : (space ++ first :: (name ++ before ++
              '=' :: (behind ++ quote :: raw ++ quote :: rest))).dropWhile isMarkupSpace =
                first :: (name ++ before ++ '=' :: (behind ++ quote :: raw ++ quote :: rest)) :=
            dropWhile_run spaces start _
          have fresh : ∀ earlier ∈ read, earlier.2.key ≠ String.ofList (first :: name) := by
            intro earlier member
            exact (List.pairwise_append.mp distinct).2.2 earlier.2
              (List.mem_map_of_mem (List.mem_reverse.mpr member)) _ List.mem_cons_self
          rw [shape, attributesFrom_step begin (readKey_assigned size first _ key before_sign) fresh
            (readValue_assigned size rest behind_sign mark inside)
            (unescape_eq_ok_iff.mpr stands), ih]
          · simp
          · simpa using distinct

theorem tagged_iff {content name : List Char} {attributes : List Attribute} :
    tagName content = name ∧ tagAttributes content = .ok attributes ↔
      Tagged content name attributes := by
  constructor
  · rintro ⟨rfl, found⟩
    obtain ⟨others, rfl, records, distinct⟩ := records_of_attributesFrom found .nil
    refine ⟨⟨_, List.takeWhile_append_dropWhile.symm, records, ?_⟩, ?_, distinct⟩
    · intro c head
      obtain ⟨rest, left⟩ := List.head?_eq_some_iff.mp head
      obtain ⟨-, -, -, -, space⟩ := split_at_stop left
      simpa using space
    · intro c member
      simpa using @List.mem_takeWhile_imp _ (!isMarkupSpace ·) _ _ member
  · rintro ⟨⟨rest, rfl, records, spaced⟩, bare, distinct⟩
    have chars : ∀ c ∈ name, (!isMarkupSpace c) = true := by simpa using bare
    have split : tagName (name ++ rest) = name ∧
        (name ++ rest).dropWhile (!isMarkupSpace ·) = rest := by
      rw [tagName]
      cases rest with
      | nil =>
          rw [List.append_nil]
          exact ⟨List.takeWhile_eq_self_iff.mpr chars, List.dropWhile_eq_nil_iff.mpr chars⟩
      | cons c rest =>
          have stop : (!isMarkupSpace c) = false := by rw [spaced c rfl]; rfl
          exact ⟨takeWhile_run chars stop rest, dropWhile_run chars stop rest⟩
    refine ⟨split.1, ?_⟩
    rw [tagAttributes, split.2]
    exact attributesFrom_of_records records distinct

end Terminology.Markup
