import Terminology.Proofs.Markup.Content

/-!
What is read is no larger than what was written. Each byte of a text counts for one place in the
element tree at most, and replacing a reference never makes a text longer; so the size of a tree,
its number of elements and its depth are bounded by the text and the limits.
-/

namespace Terminology

open Text Markup

namespace Text

theorem byteLength_cons (c : Char) (cs : List Char) :
    byteLength (c :: cs) = c.utf8Size + byteLength cs := rfl

theorem utf8ByteSize_ofList (cs : List Char) :
    (String.ofList cs).utf8ByteSize = byteLength cs := by
  induction cs with
  | nil => rfl
  | cons c cs ih =>
      rw [String.ofList_cons, String.utf8ByteSize_append, String.utf8ByteSize_singleton, ih,
        byteLength_cons]

theorem byteLength_toList (s : String) : byteLength s.toList = s.utf8ByteSize := by
  rw [← utf8ByteSize_ofList, String.ofList_toList]

theorem byteLength_trim (cs : List Char) : byteLength (trim cs) ≤ byteLength cs := by
  obtain ⟨lead, trail, split, -, -⟩ := trim_split cs
  have whole := congrArg byteLength split
  simp only [byteLength_append] at whole
  omega

end Text

namespace Markup

namespace Attribute

/-- The bytes of an attribute: its key and its value. -/
def weight (a : Attribute) : Nat := a.key.utf8ByteSize + a.value.utf8ByteSize

def weightAll : List Attribute → Nat
  | [] => 0
  | a :: others => weight a + weightAll others

end Attribute

namespace Element

mutual

/-- The bytes that the names, the attributes and the character data in a tree take. -/
def weight : Element → Nat
  | element name attributes children text =>
      name.utf8ByteSize + Attribute.weightAll attributes + text.utf8ByteSize + weightAll children

def weightAll : List Element → Nat
  | [] => 0
  | e :: es => weight e + weightAll es

end

end Element

/-- With its two marks a reference takes at least four bytes, and no character takes more. -/
theorem byteLength_of_refers {name : List Char} {c : Char} (refers : Refers name c) :
    2 ≤ byteLength name := by
  cases refers with
  | entity predefined =>
      have all : ∀ entry ∈ entities, 2 ≤ byteLength entry.1 := by decide
      exact all _ predefined
  | @decimal cs _ _ some_digit =>
      obtain ⟨d, cs, rfl⟩ := List.exists_cons_of_ne_nil some_digit
      have digit := Char.utf8Size_pos d
      have hash : '#'.utf8Size = 1 := rfl
      simp only [byteLength_cons]
      omega
  | hexadecimal =>
      have hash : '#'.utf8Size = 1 := rfl
      have x : 'x'.utf8Size = 1 := rfl
      simp only [byteLength_cons]
      omega

theorem byteLength_of_stands {raw value : List Char} (stands : Stands raw value) :
    byteLength value ≤ byteLength raw := by
  induction stands with
  | nil => exact Nat.le_refl _
  | plain _ _ ih =>
      simp only [byteLength_cons]
      omega
  | @reference name raw value c refers _ ih =>
      have named := byteLength_of_refers refers
      have replaced := Char.utf8Size_le_four c
      have start : '&'.utf8Size = 1 := rfl
      have stop : ';'.utf8Size = 1 := rfl
      simp only [byteLength_cons, byteLength_append, List.cons_append]
      omega

theorem weight_of_assigns {text : List Char} {a : Attribute} (assigns : Assigns text a) :
    a.weight ≤ byteLength text := by
  cases assigns with
  | assigns _ _ _ _ _ _ stands =>
      have value := byteLength_of_stands stands
      simp only [Attribute.weight, utf8ByteSize_ofList, byteLength_cons, byteLength_append,
        List.cons_append]
      omega

theorem weight_of_records {text : List Char} {attributes : List Attribute}
    (records : Records text attributes) :
    Attribute.weightAll attributes ≤ byteLength text := by
  induction records with
  | nil => exact Nat.zero_le _
  | cons _ assigns _ ih =>
      have first := weight_of_assigns assigns
      simp only [Attribute.weightAll, byteLength_append]
      omega

theorem weight_of_tagged {content name : List Char} {attributes : List Attribute}
    (tagged : Tagged content name attributes) :
    byteLength name + Attribute.weightAll attributes ≤ byteLength content := by
  obtain ⟨rest, rfl, records, -⟩ := tagged.split
  have behind := weight_of_records records
  rw [byteLength_append]
  omega

theorem byteLength_text (raw : List Char) : byteLength (Token.text raw).source = byteLength raw :=
  rfl

theorem byteLength_verbatim (content : List Char) :
    byteLength content ≤ byteLength (Token.verbatim content).source := by
  show _ ≤ byteLength ("<![CDATA[".toList ++ content ++ "]]>".toList)
  simp only [byteLength_append]
  omega

theorem byteLength_tag (content : List Char) :
    byteLength content + 2 ≤ byteLength (Token.opening content).source ∧
      byteLength content + 2 ≤ byteLength (Token.empty content).source := by
  have start : '<'.utf8Size = 1 := rfl
  have stop : '>'.utf8Size = 1 := rfl
  show _ ≤ byteLength ('<' :: (content ++ ['>'])) ∧ _ ≤ byteLength ('<' :: (content ++ ['/', '>']))
  simp only [byteLength_cons, byteLength_append]
  omega

/-- The tokens of some content take the bytes of all it holds, and two more for each element. -/
theorem weight_of_holds {ts : List Token} {es : List Element} {pieces : List (List Char)}
    (holds : Holds ts es pieces) :
    Element.weightAll es + 2 * Element.countAll es + byteLength pieces.flatten ≤
      byteLength (ts.flatMap Token.source) := by
  induction holds with
  | nil => exact Nat.zero_le _
  | ignored _ _ ih =>
      rw [List.flatMap_cons, byteLength_append]
      omega
  | @text raw piece _ _ _ _ stands _ ih =>
      have shorter : byteLength piece ≤ byteLength raw := calc
        byteLength piece ≤ byteLength (trim raw) := byteLength_of_stands stands
        _ ≤ byteLength raw := byteLength_trim raw
      simp only [List.flatMap_cons, byteLength_append, List.flatten_cons, byteLength_text]
      omega
  | @verbatim content _ _ _ _ ih =>
      have inside := byteLength_verbatim content
      simp only [List.flatMap_cons, byteLength_append, List.flatten_cons]
      omega
  | @leaf content _ _ _ _ _ tagged _ ih =>
      have inside := weight_of_tagged tagged
      have marks := (byteLength_tag content).2
      simp only [List.flatMap_cons, byteLength_append, Element.weightAll, Element.weight,
        Element.countAll, Element.count, utf8ByteSize_ofList, String.utf8ByteSize_empty]
      omega
  | @node content _ _ _ _ _ _ _ _ _ tagged _ _ _ ih_inner ih =>
      have inside := weight_of_tagged tagged
      have marks := (byteLength_tag content).1
      simp only [List.flatMap_cons, List.flatMap_append, List.cons_append, byteLength_append,
        Element.weightAll, Element.weight, Element.countAll, Element.count, utf8ByteSize_ofList]
      omega

theorem byteLength_withoutMark (cs : List Char) :
    byteLength (Element.withoutMark cs) ≤ byteLength cs := by
  unfold Element.withoutMark
  split
  · rw [byteLength_cons]
    omega
  · exact Nat.le_refl _

namespace Element

theorem count_pos (e : Element) : 0 < e.count := by
  cases e
  rw [count]
  omega

/-- What is read of a text takes no more bytes than the text, has fewer elements than the text has
bytes, and is nested no more deeply than the limit allows. -/
theorem size_of_parse {limits : Limits} {text : String} {e : Element}
    (read : parse limits text = .ok e) :
    e.weight ≤ text.utf8ByteSize ∧ e.weight ≤ limits.maxBytes ∧ e.count < text.utf8ByteSize ∧
      e.depth ≤ limits.maxDepth := by
  obtain ⟨small, shallow, whole, pieces, holds, -⟩ := parse_eq_ok_iff.mp read
  have bound := weight_of_holds holds
  have unmarked := byteLength_withoutMark text.toList
  have positive := count_pos e
  rw [(Scan.written_of_ofText whole).1] at bound
  simp only [weightAll, countAll, byteLength_toList] at bound unmarked
  omega

theorem size_of_parse_nested :
    let limits : Limits := { maxDepth := 2, maxBytes := 49 }
    let text := "<a b='&lt;é'>x &#x10FFFF;<c/><![CDATA[<y>]]></a>"
    ∃ e, parse limits text = .ok e ∧ (e.weight, e.count, e.depth) = (15, 2, 2) ∧
      e.weight ≤ text.utf8ByteSize ∧ e.weight ≤ limits.maxBytes ∧ e.count < text.utf8ByteSize ∧
        e.depth ≤ limits.maxDepth := by
  intro limits text
  have known : (parse limits text).toOption.map (fun e => (e.weight, e.count, e.depth)) =
      some (15, 2, 2) := by decide +kernel
  obtain ⟨e, parsed, view⟩ := exists_of_view known
  exact ⟨e, parsed, view, size_of_parse parsed⟩

end Element

end Markup

end Terminology
