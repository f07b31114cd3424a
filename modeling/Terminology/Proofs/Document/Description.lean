import Mathlib.Data.List.Forall2
import Terminology.Proofs.Document.Exchange
import Terminology.Proofs.Markup.Content

/-!
What an element says about the node it is read as. The two trees have the same shape; a node has
the kind that its element is named for, and each attribute and all character data of the element
are in the payload, which holds nothing else.
-/

namespace Terminology

open Markup

namespace Markup

/-- No element of the tree has two attributes of one key. -/
inductive Element.Keyed : Element → Prop
  | element {name text : String} {attributes : List Attribute} {children : List Element}
      (distinct : attributes.Pairwise fun a b => a.key ≠ b.key)
      (below : ∀ e ∈ children, Keyed e) : Keyed (.element name attributes children text)

theorem keyed_of_holds {ts : List Token} {es : List Element} {pieces : List (List Char)}
    (holds : Holds ts es pieces) : ∀ e ∈ es, e.Keyed := by
  induction holds with
  | nil => exact List.forall_mem_nil _
  | ignored _ _ ih => exact ih
  | text _ _ _ ih => exact ih
  | verbatim _ ih => exact ih
  | leaf tagged _ ih =>
      exact List.forall_mem_cons.mpr ⟨.element tagged.distinct (List.forall_mem_nil _), ih⟩
  | node tagged _ _ _ ih_inner ih =>
      exact List.forall_mem_cons.mpr ⟨.element tagged.distinct ih_inner, ih⟩

namespace Element

theorem keyed_of_parse {limits : Limits} {text : String} {e : Element}
    (read : parse limits text = .ok e) : e.Keyed := by
  obtain ⟨-, -, -, pieces, holds, -⟩ := parse_eq_ok_iff.mp read
  exact keyed_of_holds holds e List.mem_cons_self

theorem find_key_eq_some_iff {attributes : List Attribute} {a : Attribute}
    (distinct : attributes.Pairwise fun a b => a.key ≠ b.key) :
    attributes.find? (fun b => b.key == a.key) = some a ↔ a ∈ attributes := by
  constructor
  · exact List.mem_of_find?_eq_some
  · intro member
    induction attributes with
    | nil => cases member
    | cons b others ih =>
        obtain ⟨apart, distinct_others⟩ := List.pairwise_cons.mp distinct
        rcases List.mem_cons.mp member with rfl | behind
        · simp
        · have different : (b.key == a.key) = false := by simpa using apart a behind
          rw [List.find?_cons, different]
          exact ih distinct_others behind

theorem attribute_eq_some_iff {e : Element}
    (distinct : e.attributes.Pairwise fun a b => a.key ≠ b.key) {key value : String} :
    e.attribute? key = some value ↔ ⟨key, value⟩ ∈ e.attributes := by
  rw [attribute?, Option.map_eq_some_iff, ← find_key_eq_some_iff distinct]
  constructor
  · intro present
    obtain ⟨a, found, rfl⟩ := present
    have same : a.key = key := by simpa using List.find?_some found
    rw [← same] at found ⊢
    exact found
  · intro found
    exact ⟨_, found, rfl⟩

theorem attribute_eq_none_iff {e : Element} {key : String} :
    e.attribute? key = none ↔ ∀ a ∈ e.attributes, a.key ≠ key := by
  simp [attribute?, List.find?_eq_none]

/-- The attributes are those of a record, up to their order, exactly if the record lists all keys
and each of its keys has the value that the record gives. -/
theorem perm_record_iff {e : Element}
    (distinct : e.attributes.Pairwise fun a b => a.key ≠ b.key) {record : List Attribute}
    (apart : record.Pairwise fun a b => a.key ≠ b.key) :
    e.attributes.Perm record ↔ (∀ a ∈ e.attributes, a.key ∈ record.map Attribute.key) ∧
      ∀ a ∈ record, e.attribute? a.key = some a.value := by
  constructor
  · intro same
    refine ⟨fun a member => List.mem_map_of_mem (same.mem_iff.mp member), fun a member => ?_⟩
    exact (attribute_eq_some_iff distinct).mpr (same.mem_iff.mpr member)
  · intro both
    have once (l : List Attribute) (apart : l.Pairwise fun a b => a.key ≠ b.key) : l.Nodup :=
      apart.imp fun different same => different (congrArg Attribute.key same)
    apply (List.perm_ext_iff_of_nodup (once _ distinct) (once _ apart)).mpr
    intro a
    constructor
    · intro member
      obtain ⟨b, recorded, same⟩ := List.mem_map.mp (both.1 a member)
      have given := both.2 b recorded
      have found := (attribute_eq_some_iff distinct).mpr member
      rw [same, found] at given
      have equal : a = b := by
        cases a
        cases b
        cases same
        cases given
        rfl
      rwa [equal]
    · intro recorded
      exact (attribute_eq_some_iff distinct).mp (both.2 a recorded)

end Element

end Markup

namespace Literal

theorem kind_of_read {kind : Kind} {raw : String} {value : Literal}
    (read : read? kind raw = some value) : value.kind = kind := by
  unfold read? at read
  split at read
  case h_5 =>
    cases read
    rfl
  case h_6 => cases read
  all_goals
    obtain ⟨found, -, rfl⟩ := Option.map_eq_some_iff.mp read
    rfl

end Literal

namespace Payload

theorem bind_eq_ok_iff {ε α β : Type} {x : Except ε α} {f : α → Except ε β} {b : β} :
    (x >>= f) = .ok b ↔ ∃ a, x = .ok a ∧ f a = .ok b := by
  cases x <;> simp [bind, Except.bind]

theorem map_eq_ok_iff {ε α β : Type} {x : Except ε α} {f : α → β} {b : β} :
    (f <$> x) = .ok b ↔ ∃ a, x = .ok a ∧ f a = b := by
  cases x <;> simp [Functor.map, Except.map]

variable {e : Element} {key raw : String}

theorem checkKeys_eq_ok_iff {keys : List String} :
    checkKeys e keys = .ok () ↔ ∀ a ∈ e.attributes, a.key ∈ keys := by
  constructor
  · intro checked a member
    rw [checkKeys] at checked
    split at checked
    · cases checked
    · rename_i none_foreign
      simpa using List.find?_eq_none.mp none_foreign a member
  · exact checkKeys_ok

theorem required_eq_ok_iff : required e key = .ok raw ↔ e.attribute? key = some raw := by
  rw [required]
  cases e.attribute? key <;> simp

theorem readAttribute_eq_ok_iff {α : Type} {read? : String → Option α} {value : α} :
    readAttribute read? e key = .ok value ↔
      ∃ raw, e.attribute? key = some raw ∧ read? raw = some value := by
  rw [readAttribute, bind_eq_ok_iff]
  apply exists_congr
  intro given
  rw [required_eq_ok_iff]
  cases read? given <;> simp

theorem literalText_eq_ok_iff :
    literalText e = .ok raw ↔ (e.attribute? "value" = some raw ∧ e.text = "") ∨
      (e.attribute? "value" = none ∧ e.text = raw ∧ raw ≠ "") := by
  rw [literalText]
  by_cases empty : e.text = ""
  · cases e.attribute? "value" with
    | none => simp [empty]
    | some value => simp [empty]
  · cases e.attribute? "value" with
    | none =>
        have some_text : e.text = raw ↔ e.text = raw ∧ raw ≠ "" := by
          constructor
          · intro given
            exact ⟨given, given ▸ empty⟩
          · exact And.left
        simpa [empty] using some_text
    | some value => simp [empty]

section

variable (distinct : e.attributes.Pairwise fun a b => a.key ≠ b.key)

include distinct

theorem reads_one_iff {α : Type} {read? : String → Option α} {value : α} :
    checkKeys e [key] = .ok () ∧ readAttribute read? e key = .ok value ↔
      ∃ raw, read? raw = some value ∧ e.attributes.Perm [⟨key, raw⟩] := by
  rw [checkKeys_eq_ok_iff, readAttribute_eq_ok_iff]
  constructor
  · intro read
    obtain ⟨expected, raw, there, found⟩ := read
    refine ⟨raw, found, ?_⟩
    rw [Element.perm_record_iff distinct (List.pairwise_singleton _ _)]
    exact ⟨expected, List.forall_mem_singleton.mpr there⟩
  · intro recorded
    obtain ⟨raw, found, same⟩ := recorded
    rw [Element.perm_record_iff distinct (List.pairwise_singleton _ _)] at same
    exact ⟨same.1, raw, same.2 ⟨key, raw⟩ List.mem_cons_self, found⟩

theorem reads_two_iff {α β : Type} {other : String} (apart : key ≠ other)
    {read? : String → Option α} {value : α} {second? : String → Option β} {second : β} :
    checkKeys e [key, other] = .ok () ∧ readAttribute read? e key = .ok value ∧
        readAttribute second? e other = .ok second ↔
      ∃ raw word, read? raw = some value ∧ second? word = some second ∧
        e.attributes.Perm [⟨key, raw⟩, ⟨other, word⟩] := by
  have keys (raw word : String) :
      [(⟨key, raw⟩ : Attribute), ⟨other, word⟩].Pairwise fun a b => a.key ≠ b.key :=
    List.pairwise_pair.mpr apart
  rw [checkKeys_eq_ok_iff, readAttribute_eq_ok_iff, readAttribute_eq_ok_iff]
  constructor
  · intro read
    obtain ⟨expected, ⟨raw, there, found⟩, word, there', found'⟩ := read
    refine ⟨raw, word, found, found', ?_⟩
    rw [Element.perm_record_iff distinct (keys raw word)]
    exact ⟨expected, List.forall_mem_cons.mpr ⟨there, List.forall_mem_singleton.mpr there'⟩⟩
  · intro recorded
    obtain ⟨raw, word, found, found', same⟩ := recorded
    rw [Element.perm_record_iff distinct (keys raw word)] at same
    obtain ⟨there, others⟩ := List.forall_mem_cons.mp same.2
    exact ⟨same.1, ⟨raw, there, found⟩, word, others ⟨other, word⟩ List.mem_cons_self, found'⟩

end

/-- The attributes, in some order, and the character data of an element that is read as a node of
the kind with the payload. -/
inductive Given : Kind → Payload → List Attribute → String → Prop
  | empty {kind : Kind} (operator : kind.category = .setOperator) : Given kind .empty [] ""
  | concept {raw : String} {c : ConceptRef} (read : ConceptRef.read? raw = some c) :
      Given .concept (.concept c) [⟨"concept", raw⟩] ""
  | role {kind : Kind} {raw : String} {r : ConceptRef}
      (quantifier : kind = .roleAll ∨ kind = .roleSome) (read : ConceptRef.read? raw = some r) :
      Given kind (.role r) [⟨"role", raw⟩] ""
  | feature {raw word : String} {f : ConceptRef} {comparison : Comparison}
      (read : ConceptRef.read? raw = some f) (compared : Comparison.read? word = some comparison) :
      Given .feature (.feature f comparison) [⟨"feature", raw⟩, ⟨"operator", word⟩] ""
  | value {kind : Kind} {raw : String} {v : Literal} (literal : v.kind = kind)
      (read : Literal.read? kind raw = some v) :
      Given kind (.literal (some v)) [⟨"value", raw⟩] ""
  | text {kind : Kind} {raw : String} {v : Literal} (literal : v.kind = kind)
      (filled : raw ≠ "") (read : Literal.read? kind raw = some v) :
      Given kind (.literal (some v)) [] raw
  | template {raw other : String} {t assemblage : ConceptRef}
      (read : ConceptRef.read? raw = some t) (second : ConceptRef.read? other = some assemblage) :
      Given .template (.template t assemblage) [⟨"template", raw⟩, ⟨"assemblage", other⟩] ""
  | pending {kind : Kind} {field : String} (substitution : kind.isPlaceholder = true) :
      Given kind (.placeholder field false) [⟨"field", field⟩] ""
  | placeholder {kind : Kind} {field raw : String} {deferred : Bool}
      (substitution : kind.isPlaceholder = true)
      (marked : Literal.boolean? raw = some deferred) :
      Given kind (.placeholder field deferred) [⟨"field", field⟩, ⟨"deferred", raw⟩] ""

theorem Given.apart {kind : Kind} {payload : Payload} {record : List Attribute} {text : String}
    (given : Given kind payload record text) : record.Pairwise fun a b => a.key ≠ b.key := by
  cases given <;> simp

/-- The element is read as a node of the kind with the payload, by itself. -/
def Recorded (e : Element) (kind : Kind) (payload : Payload) : Prop :=
  ∃ record, e.attributes.Perm record ∧ Given kind payload record e.text

section

variable {kind : Kind} {payload : Payload}
variable (distinct : e.attributes.Pairwise fun a b => a.key ≠ b.key)

include distinct

theorem recorded_of_concept (silent : e.text = "") (read : ofElement .concept e = .ok payload) :
    Recorded e .concept payload := by
  obtain ⟨_, checked, rest⟩ := bind_eq_ok_iff.mp read
  obtain ⟨c, first, rfl⟩ := map_eq_ok_iff.mp rest
  obtain ⟨raw, found, same⟩ := (reads_one_iff distinct).mp ⟨checked, first⟩
  refine ⟨_, same, ?_⟩
  rw [silent]
  exact .concept found

theorem recorded_of_role (silent : e.text = "") (quantifier : kind = .roleAll ∨ kind = .roleSome)
    (read : ofElement kind e = .ok payload) : Recorded e kind payload := by
  have shape : ofElement kind e = (do
      checkKeys e ["role"]
      .role <$> readAttribute ConceptRef.read? e "role") := by
    rcases quantifier with rfl | rfl <;> rfl
  rw [shape] at read
  obtain ⟨_, checked, rest⟩ := bind_eq_ok_iff.mp read
  obtain ⟨r, first, rfl⟩ := map_eq_ok_iff.mp rest
  obtain ⟨raw, found, same⟩ := (reads_one_iff distinct).mp ⟨checked, first⟩
  refine ⟨_, same, ?_⟩
  rw [silent]
  exact .role quantifier found

theorem recorded_of_feature (silent : e.text = "") (read : ofElement .feature e = .ok payload) :
    Recorded e .feature payload := by
  obtain ⟨_, checked, rest⟩ := bind_eq_ok_iff.mp read
  obtain ⟨f, first, rest⟩ := bind_eq_ok_iff.mp rest
  obtain ⟨comparison, second, rfl⟩ := map_eq_ok_iff.mp rest
  obtain ⟨raw, word, found, compared, same⟩ :=
    (reads_two_iff distinct (by decide)).mp ⟨checked, first, second⟩
  refine ⟨_, same, ?_⟩
  rw [silent]
  exact .feature found compared

theorem recorded_of_template (silent : e.text = "") (read : ofElement .template e = .ok payload) :
    Recorded e .template payload := by
  obtain ⟨_, checked, rest⟩ := bind_eq_ok_iff.mp read
  obtain ⟨t, first, rest⟩ := bind_eq_ok_iff.mp rest
  obtain ⟨assemblage, second, rfl⟩ := map_eq_ok_iff.mp rest
  obtain ⟨raw, other, found, found', same⟩ :=
    (reads_two_iff distinct (by decide)).mp ⟨checked, first, second⟩
  refine ⟨_, same, ?_⟩
  rw [silent]
  exact .template found found'

theorem recorded_of_literal (read : literalOf kind e = .ok payload) :
    Recorded e kind payload := by
  obtain ⟨_, checked, rest⟩ := bind_eq_ok_iff.mp read
  obtain ⟨raw, chosen, rest⟩ := bind_eq_ok_iff.mp rest
  have expected := checkKeys_eq_ok_iff.mp checked
  cases found : Literal.read? kind raw with
  | none =>
      rw [found] at rest
      cases rest
  | some v =>
      rw [found] at rest
      cases rest
      have literal := Literal.kind_of_read found
      rcases literalText_eq_ok_iff.mp chosen with ⟨there, silent⟩ | ⟨missing, rfl, filled⟩
      · refine ⟨[⟨"value", raw⟩], ?_, ?_⟩
        · rw [Element.perm_record_iff distinct (List.pairwise_singleton _ _)]
          exact ⟨expected, List.forall_mem_singleton.mpr there⟩
        · rw [silent]
          exact .value literal found
      · refine ⟨[], ?_, .text literal filled found⟩
        rw [Element.perm_record_iff distinct .nil]
        refine ⟨?_, List.forall_mem_nil _⟩
        intro a member
        exact absurd (List.mem_singleton.mp (expected a member))
          (Element.attribute_eq_none_iff.mp missing a member)

theorem recorded_of_placeholder (silent : e.text = "") (substitution : kind.isPlaceholder = true)
    (read : placeholderOf e = .ok payload) : Recorded e kind payload := by
  obtain ⟨_, checked, rest⟩ := bind_eq_ok_iff.mp read
  obtain ⟨field, named, rest⟩ := bind_eq_ok_iff.mp rest
  rw [required_eq_ok_iff] at named
  have as_read : readAttribute some e "field" = .ok field :=
    readAttribute_eq_ok_iff.mpr ⟨field, named, rfl⟩
  cases marked : e.attribute? "deferred" with
  | none =>
      rw [marked] at rest
      cases rest
      refine ⟨[⟨"field", field⟩], ?_, ?_⟩
      · rw [Element.perm_record_iff distinct (List.pairwise_singleton _ _)]
        refine ⟨?_, List.forall_mem_singleton.mpr named⟩
        intro a member
        rcases List.mem_cons.mp (checkKeys_eq_ok_iff.mp checked a member) with key | other
        · exact List.mem_singleton.mpr key
        · exact absurd (List.mem_singleton.mp other)
            (Element.attribute_eq_none_iff.mp marked a member)
      · rw [silent]
        exact .pending substitution
  | some raw =>
      simp only [marked] at rest
      obtain ⟨deferred, flag, rfl⟩ := map_eq_ok_iff.mp rest
      obtain ⟨name, word, same_name, read_word, same⟩ :=
        (reads_two_iff distinct (by decide)).mp ⟨checked, as_read, flag⟩
      cases same_name
      refine ⟨_, same, ?_⟩
      rw [silent]
      exact .placeholder substitution read_word

theorem recorded_of_ofElement (silent : kind.category ≠ .literal → e.text = "")
    (read : ofElement kind e = .ok payload) : Recorded e kind payload := by
  cases category : kind.category with
  | setOperator =>
      simp only [ofElement, category] at read
      obtain ⟨_, checked, rest⟩ := bind_eq_ok_iff.mp read
      cases rest
      refine ⟨[], ?_, ?_⟩
      · rw [Element.perm_record_iff distinct .nil]
        exact ⟨checkKeys_eq_ok_iff.mp checked, List.forall_mem_nil _⟩
      · rw [silent (by simp [category])]
        exact .empty category
  | relational =>
      have empty := silent (by simp [category])
      cases kind with
      | concept => exact recorded_of_concept distinct empty read
      | feature => exact recorded_of_feature distinct empty read
      | roleAll => exact recorded_of_role distinct empty (.inl rfl) read
      | roleSome => exact recorded_of_role distinct empty (.inr rfl) read
      | _ => cases category
  | literal =>
      simp only [ofElement, category] at read
      exact recorded_of_literal distinct read
  | substitution =>
      have empty := silent (by simp [category])
      by_cases template : kind = .template
      · subst template
        exact recorded_of_template distinct empty read
      · simp only [ofElement, category, if_neg template] at read
        have placeholder : kind.isPlaceholder = true := by
          simp [Kind.isPlaceholder, category, template]
        exact recorded_of_placeholder distinct empty placeholder read

end

theorem literalOf_of_text {kind : Kind} {v : Literal} (chosen : literalText e = .ok raw)
    (expected : ∀ a ∈ e.attributes, a.key ∈ ["value"])
    (read : Literal.read? kind raw = some v) : literalOf kind e = .ok (.literal (some v)) := by
  rw [literalOf, checkKeys_ok expected, chosen]
  simp only [bind, Except.bind, read]

theorem ofElement_literal {kind : Kind} {v : Literal} (literal : v.kind = kind) :
    ofElement kind e = literalOf kind e := by
  rw [← literal]
  simp only [ofElement, Expression.category_kind]

theorem ofElement_placeholder {kind : Kind} (substitution : kind.isPlaceholder = true) :
    ofElement kind e = placeholderOf e := by
  have other : kind ≠ .template := by
    intro same
    rw [same] at substitution
    cases substitution
  simp only [ofElement, Expression.category_of_isPlaceholder substitution, if_neg other]

theorem ofElement_of_recorded {kind : Kind} {payload : Payload}
    (recorded : Recorded e kind payload) :
    ofElement kind e = .ok payload ∧ (kind.category ≠ .literal → e.text = "") := by
  obtain ⟨record, same, given⟩ := recorded
  have distinct : e.attributes.Pairwise fun a b => a.key ≠ b.key :=
    same.symm.pairwise given.apart Ne.symm
  obtain ⟨expected, there⟩ := (Element.perm_record_iff distinct given.apart).mp same
  obtain ⟨text, shape⟩ : ∃ text, e.text = text := ⟨_, rfl⟩
  rw [shape] at given
  cases given with
  | empty operator =>
      refine ⟨?_, fun _ => shape⟩
      simp only [ofElement, operator]
      exact bind_eq_ok_iff.mpr ⟨_, checkKeys_ok expected, rfl⟩
  | concept read =>
      obtain ⟨checked, first⟩ := (reads_one_iff distinct).mpr ⟨_, read, same⟩
      exact ⟨bind_eq_ok_iff.mpr ⟨_, checked, map_eq_ok_iff.mpr ⟨_, first, rfl⟩⟩, fun _ => shape⟩
  | role quantifier read =>
      obtain ⟨checked, first⟩ := (reads_one_iff distinct).mpr ⟨_, read, same⟩
      refine ⟨?_, fun _ => shape⟩
      rcases quantifier with rfl | rfl
      · exact bind_eq_ok_iff.mpr ⟨_, checked, map_eq_ok_iff.mpr ⟨_, first, rfl⟩⟩
      · exact bind_eq_ok_iff.mpr ⟨_, checked, map_eq_ok_iff.mpr ⟨_, first, rfl⟩⟩
  | feature read compared =>
      obtain ⟨checked, first, second⟩ :=
        (reads_two_iff distinct (by decide)).mpr ⟨_, _, read, compared, same⟩
      exact ⟨bind_eq_ok_iff.mpr ⟨_, checked, bind_eq_ok_iff.mpr ⟨_, first,
        map_eq_ok_iff.mpr ⟨_, second, rfl⟩⟩⟩, fun _ => shape⟩
  | value literal read =>
      have chosen := literalText_eq_ok_iff.mpr (.inl ⟨there _ List.mem_cons_self, shape⟩)
      rw [ofElement_literal literal]
      exact ⟨literalOf_of_text chosen expected read, fun _ => shape⟩
  | @text _ raw v literal filled read =>
      have bare : e.attributes = [] := List.perm_nil.mp same
      have missing : e.attribute? "value" = none := by simp [Element.attribute?, bare]
      have chosen := literalText_eq_ok_iff.mpr (.inr ⟨missing, shape, filled⟩)
      rw [ofElement_literal literal]
      refine ⟨literalOf_of_text chosen (by simp [bare]) read, fun other => ?_⟩
      rw [← literal] at other
      exact absurd (Expression.category_kind v) other
  | template read second_read =>
      obtain ⟨checked, first, second⟩ :=
        (reads_two_iff distinct (by decide)).mpr ⟨_, _, read, second_read, same⟩
      exact ⟨bind_eq_ok_iff.mpr ⟨_, checked, bind_eq_ok_iff.mpr ⟨_, first,
        map_eq_ok_iff.mpr ⟨_, second, rfl⟩⟩⟩, fun _ => shape⟩
  | @pending _ field substitution =>
      have named : e.attribute? "field" = some field := there _ List.mem_cons_self
      have allowed : ∀ a ∈ e.attributes, a.key ∈ ["field", "deferred"] := by
        intro a member
        exact List.mem_cons.mpr (.inl (List.mem_singleton.mp (expected a member)))
      have absent : e.attribute? "deferred" = none := by
        apply Element.attribute_eq_none_iff.mpr
        intro a member
        rw [List.mem_singleton.mp (expected a member)]
        show "field" ≠ "deferred"
        decide
      rw [ofElement_placeholder substitution]
      refine ⟨bind_eq_ok_iff.mpr ⟨_, checkKeys_ok allowed, bind_eq_ok_iff.mpr ⟨_,
        required_eq_ok_iff.mpr named, ?_⟩⟩, fun _ => shape⟩
      simp only [absent]
  | placeholder substitution marked =>
      obtain ⟨named, others⟩ := List.forall_mem_cons.mp there
      have flag := others _ List.mem_cons_self
      rw [ofElement_placeholder substitution]
      refine ⟨bind_eq_ok_iff.mpr ⟨_, checkKeys_ok expected, bind_eq_ok_iff.mpr ⟨_,
        required_eq_ok_iff.mpr named, ?_⟩⟩, fun _ => shape⟩
      simp only [flag]
      exact map_eq_ok_iff.mpr ⟨_, readAttribute_eq_ok_iff.mpr ⟨_, flag, marked⟩, rfl⟩

end Payload

/-- The element tree and the expression have the same shape, and each element is read as the node
that stands in its place. -/
inductive Describes : Element → Expression → Prop
  | node {e : Element} {kind : Kind} {payload : Payload} {children : List Expression}
      (tag : kind.tag = e.name) (recorded : Payload.Recorded e kind payload)
      (below : List.Forall₂ Describes e.children children) :
      Describes e (.node kind payload children)

namespace Expression

theorem ofTag_eq_some_iff {name : String} {kind : Kind} :
    Kind.ofTag? name = some kind ↔ kind.tag = name := by
  constructor
  · intro found
    simpa using List.find?_some found
  · intro tag
    rw [← tag]
    exact kind.ofTag_tag

theorem ofElementAlone_eq_ok_iff {e : Element} {kind : Kind} {payload : Payload}
    (distinct : e.attributes.Pairwise fun a b => a.key ≠ b.key) :
    ofElementAlone e = .ok (kind, payload) ↔
      kind.tag = e.name ∧ Payload.Recorded e kind payload := by
  rw [ofElementAlone, ← ofTag_eq_some_iff]
  cases Kind.ofTag? e.name with
  | none => simp
  | some found =>
      constructor
      · intro read
        obtain ⟨p, given, rest⟩ := Payload.bind_eq_ok_iff.mp read
        split at rest
        · cases rest
        · rename_i silent
          cases rest
          refine ⟨rfl, Payload.recorded_of_ofElement distinct ?_ given⟩
          intro other
          simpa [other] using silent
      · intro described
        obtain ⟨⟨⟩, recorded⟩ := described
        obtain ⟨given, silent⟩ := Payload.ofElement_of_recorded recorded
        apply Payload.bind_eq_ok_iff.mpr
        refine ⟨payload, given, if_neg ?_⟩
        intro stray
        rw [silent stray.1] at stray
        exact stray.2 rfl

mutual

theorem ofElementAt_eq_ok_iff {path : Path} {e : Element} {tree : Expression} (keyed : e.Keyed) :
    ofElementAt path e = .ok tree ↔ Describes e tree := by
  obtain ⟨name, attributes, children, text⟩ := e
  obtain ⟨distinct, keyed_below⟩ := keyed
  have alone (kind : Kind) (payload : Payload) :=
    @ofElementAlone_eq_ok_iff (.element name attributes children text) kind payload distinct
  have below (trees : List Expression) :=
    @ofElementsAt_eq_ok_iff path 0 children trees keyed_below
  rw [ofElementAt]
  constructor
  · intro read
    cases here : ofElementAlone (.element name attributes children text) with
    | error refused =>
        rw [here] at read
        cases read
    | ok found =>
        obtain ⟨kind, payload⟩ := found
        simp only [here] at read
        cases trees : ofElementsAt path 0 children with
        | error misplaced =>
            rw [trees] at read
            cases read
        | ok es =>
            rw [trees] at read
            cases read
            obtain ⟨tag, recorded⟩ := (alone kind payload).mp here
            exact .node tag recorded ((below es).mp trees)
  · intro described
    cases described with
    | @node _ kind payload es tag recorded under =>
        rw [(alone kind payload).mpr ⟨tag, recorded⟩]
        simp only [(below es).mpr under]
        rfl

theorem ofElementsAt_eq_ok_iff {path : Path} {index : Nat} {es : List Element}
    {trees : List Expression} (keyed : ∀ e ∈ es, e.Keyed) :
    ofElementsAt path index es = .ok trees ↔ List.Forall₂ Describes es trees := by
  cases es with
  | nil => simp [ofElementsAt, eq_comm]
  | cons e es =>
      obtain ⟨keyed_first, keyed_others⟩ := List.forall_mem_cons.mp keyed
      rw [List.forall₂_cons_left_iff, ofElementsAt]
      constructor
      · intro read
        cases first : ofElementAt (path.step index e.name) e with
        | error misplaced =>
            rw [first] at read
            cases read
        | ok tree =>
            simp only [first] at read
            cases others : ofElementsAt path (index + 1) es with
            | error misplaced =>
                rw [others] at read
                cases read
            | ok rest =>
                rw [others] at read
                cases read
                exact ⟨tree, rest, (ofElementAt_eq_ok_iff keyed_first).mp first,
                  (ofElementsAt_eq_ok_iff keyed_others).mp others, rfl⟩
      · intro described
        obtain ⟨tree, rest, first, others, rfl⟩ := described
        rw [(ofElementAt_eq_ok_iff keyed_first).mpr first]
        simp only [(ofElementsAt_eq_ok_iff keyed_others).mpr others]
        rfl

end

mutual

theorem nodeCount_of_describes {e : Element} {tree : Expression} (described : Describes e tree) :
    tree.nodeCount = e.count := by
  obtain ⟨name, attributes, children, text⟩ := e
  cases described with
  | node _ _ below =>
      rw [nodeCount, Element.count, nodeCountAll_of_describes below]
      rfl

theorem nodeCountAll_of_describes {es : List Element} {trees : List Expression}
    (described : List.Forall₂ Describes es trees) : nodeCountAll trees = Element.countAll es := by
  cases described with
  | nil => rfl
  | cons first others =>
      rw [nodeCountAll, Element.countAll, nodeCount_of_describes first,
        nodeCountAll_of_describes others]

end

/-- Of a parsed document those trees are read that it describes and that are legal. -/
theorem ofElement_eq_ok_iff_describes {e : Element} {tree : Expression} (keyed : e.Keyed) :
    ofElement e = .ok tree ↔ Describes e tree ∧ tree.Legal := by
  rw [ofElement, Payload.bind_eq_ok_iff]
  constructor
  · intro checked
    obtain ⟨found, read, rest⟩ := checked
    cases valid : found.validate with
    | error refused =>
        rw [valid] at rest
        cases rest
    | ok checked =>
        rw [valid] at rest
        cases rest
        exact ⟨(ofElementAt_eq_ok_iff keyed).mp read, (validateAt_eq_ok_iff _ tree).mp valid⟩
  · intro both
    obtain ⟨described, legal⟩ := both
    refine ⟨tree, (ofElementAt_eq_ok_iff keyed).mpr described, ?_⟩
    have valid : tree.validate = .ok () := (validateAt_eq_ok_iff _ tree).mpr legal
    rw [valid]

/-- What is read of a parsed document is what the document describes, element by element: it has
as many nodes as there are elements and is nested as deeply. -/
theorem describes_of_ofElement {limits : Limits} {text : String} {e : Element} {tree : Expression}
    (parsed : Element.parse limits text = .ok e) (read : ofElement e = .ok tree) :
    Describes e tree ∧ tree.nodeCount = e.count ∧ tree.depth = e.depth := by
  have keyed := Element.keyed_of_parse parsed
  have described := ((ofElement_eq_ok_iff_describes keyed).mp read).1
  exact ⟨described, nodeCount_of_describes described, (legal_of_ofElement read).2⟩

/-- Attributes in another order, a value given as character data and one given as an attribute. -/
theorem describes_of_ofElement_spellings :
    let limits : Limits := { maxDepth := 2, maxBytes := 200 }
    let text := "<or><literal-integer>+042</literal-integer><literal-string value=' &lt; '/>" ++
      "<substitution-float deferred='true' field='x'/></or>"
    let tree := connective .or [literal (.integer 42), literal (.string " < "),
      (placeholder .substitutionFloat "x").deferred]
    ∃ e, Element.parse limits text = .ok e ∧ ofElement e = .ok tree ∧
      Describes e tree ∧ tree.nodeCount = e.count ∧ tree.depth = e.depth := by
  intro limits text tree
  have known : (Element.parse limits text).toOption.map (fun e => (ofElement e).toOption) =
      some (some tree) := by decide +kernel
  obtain ⟨e, parsed, view⟩ := Element.exists_of_view known
  have read : ofElement e = .ok tree := by
    cases found : ofElement e with
    | error misplaced =>
        rw [found] at view
        cases view
    | ok other =>
        rw [found] at view
        exact congrArg Except.ok (Option.some.inj view)
  exact ⟨e, parsed, read, describes_of_ofElement parsed read⟩

end Expression

end Terminology
