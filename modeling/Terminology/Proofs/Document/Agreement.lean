import Terminology.Proofs.Document.Description
import Terminology.Proofs.Expression.Blame
import Terminology.Proofs.Expression.Filling

/-!
What reading an element settles for the check that follows. Each node that is read has a payload of
its kind, and a literal has a value of its own kind, so that the check blames the payload of none:
what it still finds concerns the children or the content of values and names.
-/

namespace Terminology

open Markup

/-- The payload is one that the kind requires, and a literal has a value, of its own kind. -/
structure Kind.Suits (kind : Kind) (payload : Payload) : Prop where
  carries : kind.Carries payload
  value : kind.category = .literal → ∃ v, payload = .literal (some v) ∧ v.kind = kind

/-- What can be wrong with a node although its payload suits its kind. -/
inductive Violation.Remains : Violation → Prop
  | childless (kind : Kind) : Remains (.childless kind)
  | childCount (kind : Kind) (expected found : Nat) : Remains (.childCount kind expected found)
  | featureChild (found : Kind) : Remains (.featureChild found)
  | notFinite (x : Double) : Remains (.notFinite x)
  | yearOutside (year : Int) : Remains (.yearOutside year)
  | stringCharacter : Remains .stringCharacter
  | blankField (kind : Kind) : Remains (.blankField kind)
  | fieldCharacter (kind : Kind) : Remains (.fieldCharacter kind)
  | pending (field : String) : Remains (.pending field)

/-- The payload itself is what is wrong. -/
inductive Violation.BlamesPayload : Violation → Prop
  | foreignPayload (kind : Kind) (payload : Payload) : BlamesPayload (.foreignPayload kind payload)
  | unsetLiteral (kind : Kind) : BlamesPayload (.unsetLiteral kind)
  | foreignValue (kind valueKind : Kind) : BlamesPayload (.foreignValue kind valueKind)

/-- The text begins with a kind, behind a quotation mark, and goes on with the phrase. -/
def Opens (text phrase : String) : Prop :=
  ∃ (kind : Kind) (rest : String), text = "`" ++ kind.name ++ (phrase ++ rest)

/-- How violations that blame the payload go on behind the kind. -/
def payloadPhrases : List String :=
  ["` cannot carry payload ", "` literal has no value", "` literal carries a `"]

/-- How the other violations of a node go on behind a kind, if they begin with one. -/
def otherPhrases : List String :=
  ["` requires at least one child", "` requires ", "` requires a literal child, found `",
    "` literal is not finite: ", "` literal year ", "` literal holds", "` placeholder has no",
    "` field name holds"]

theorem comparable_of_append_eq {front back front' back' : String}
    (same : front ++ back = front' ++ back') :
    front.toList <+: front'.toList ∨ front'.toList <+: front.toList := by
  have lists := congrArg String.toList same
  rw [String.toList_append, String.toList_append] at lists
  apply List.prefix_or_prefix_of_prefix (List.prefix_append _ back.toList)
  rw [lists]
  exact List.prefix_append _ _

theorem Kind.name_unquoted (kind : Kind) : ∀ c ∈ kind.name.toList, (c != '\x60') = true :=
  List.all_eq_true.mp (by cases kind <;> decide)

theorem Kind.quoted_inj {kind kind' : Kind} {rest rest' : List Char}
    (same : kind.name.toList ++ '\x60' :: rest = kind'.name.toList ++ '\x60' :: rest') :
    rest = rest' := by
  have dropped := congrArg (List.dropWhile (· != '\x60')) same
  rw [Text.dropWhile_run kind.name_unquoted rfl, Text.dropWhile_run kind'.name_unquoted rfl]
    at dropped
  exact (List.cons.inj dropped).2

theorem Opens.comparable {text phrase other : String} (opens : Opens text phrase)
    (opens' : Opens text other) (quoted : phrase.toList.head? = some '\x60')
    (quoted' : other.toList.head? = some '\x60') :
    phrase.toList <+: other.toList ∨ other.toList <+: phrase.toList := by
  rcases opens with ⟨kind, rest, rfl⟩
  rcases opens' with ⟨kind', rest', same⟩
  rcases List.head?_eq_some_iff.mp quoted with ⟨words, split⟩
  rcases List.head?_eq_some_iff.mp quoted' with ⟨words', split'⟩
  have lists : kind.name.toList ++ '\x60' :: (words ++ rest.toList) =
      kind'.name.toList ++ '\x60' :: (words' ++ rest'.toList) := by
    rw [String.append_assoc, String.append_assoc, String.append_right_inj] at same
    have behind := congrArg String.toList same
    simpa only [String.toList_append, split, split', List.cons_append] using behind
  have unnamed := Kind.quoted_inj lists
  rw [split, split', List.cons_prefix_cons, List.cons_prefix_cons]
  have either := List.prefix_or_prefix_of_prefix (List.prefix_append words rest.toList)
    (unnamed ▸ List.prefix_append words' rest'.toList)
  simpa using either

namespace Violation

variable {v w : Violation}

theorem Remains.opens (remains : v.Remains) :
    (∃ rest, v.message = "placeholder `" ++ rest) ∨
      ∃ phrase ∈ otherPhrases, Opens v.message phrase := by
  cases remains with
  | childless kind =>
      refine .inr ⟨"` requires at least one child", by decide, kind, "", ?_⟩
      rw [String.append_empty]
      rfl
  | childCount kind expected found =>
      refine .inr ⟨"` requires ", by decide, kind,
        toString expected ++ " child(ren), found " ++ toString found, ?_⟩
      calc (Violation.childCount kind expected found).message
          = "`" ++ kind.name ++ "` requires " ++ toString expected ++ " child(ren), found " ++
              toString found := rfl
        _ = _ := by simp only [String.append_assoc]
  | featureChild found =>
      refine .inr ⟨"` requires a literal child, found `", by decide, .feature,
        found.name ++ "`", ?_⟩
      rw [← String.append_assoc, ← String.append_assoc]
      rfl
  | notFinite x =>
      refine .inr ⟨"` literal is not finite: ", by decide, .float, x.text, ?_⟩
      rw [← String.append_assoc]
      rfl
  | yearOutside year =>
      refine .inr ⟨"` literal year ", by decide, .instant,
        toString year ++ " is outside 0000..=9999", ?_⟩
      rw [← String.append_assoc, ← String.append_assoc]
      rfl
  | stringCharacter =>
      exact .inr ⟨"` literal holds", by decide, .string, " a character XML 1.0 cannot carry", rfl⟩
  | blankField kind =>
      exact .inr ⟨"` placeholder has no", by decide, kind, " field name", rfl⟩
  | fieldCharacter kind =>
      exact .inr ⟨"` field name holds", by decide, kind, " a character XML 1.0 cannot carry", rfl⟩
  | pending field =>
      refine .inl ⟨field ++ "` is neither expanded nor deferred", ?_⟩
      rw [← String.append_assoc]
      rfl

theorem BlamesPayload.opens (blames : v.BlamesPayload) :
    ∃ phrase ∈ payloadPhrases, Opens v.message phrase := by
  cases blames with
  | foreignPayload kind payload =>
      refine ⟨"` cannot carry payload ", by decide, kind, payload.diagnostic, ?_⟩
      rw [← String.append_assoc]
      rfl
  | unsetLiteral kind =>
      refine ⟨"` literal has no value", by decide, kind, "", ?_⟩
      rw [String.append_empty]
      rfl
  | foreignValue kind valueKind =>
      refine ⟨"` literal carries a `", by decide, kind, valueKind.name ++ "` value", ?_⟩
      rw [← String.append_assoc, ← String.append_assoc]
      rfl

/-- The text of what can be wrong otherwise is never one that blames the payload. -/
theorem Remains.message_ne (remains : v.Remains) (blames : w.BlamesPayload) :
    v.message ≠ w.message := by
  intro same
  rcases blames.opens with ⟨phrase, member, opens⟩
  rcases remains.opens with ⟨rest, message⟩ | ⟨other, member', opens'⟩
  · rcases opens with ⟨kind, behind, named⟩
    rw [← same, message, String.append_assoc] at named
    have apart : ¬ ("placeholder `".toList <+: "`".toList ∨
      "`".toList <+: "placeholder `".toList) := by decide
    exact apart (comparable_of_append_eq named)
  · rw [same] at opens'
    have quoted : ∀ phrase ∈ payloadPhrases ++ otherPhrases,
        phrase.toList.head? = some '\x60' := by decide
    have apart : ∀ phrase ∈ payloadPhrases, ∀ other ∈ otherPhrases,
        ¬ (phrase.toList <+: other.toList ∨ other.toList <+: phrase.toList) := by decide
    exact apart phrase member other member' (opens.comparable opens'
      (quoted phrase (List.mem_append_left _ member))
      (quoted other (List.mem_append_right _ member')))

end Violation

theorem Kind.category_eq_literal_iff (kind : Kind) :
    kind.category = .literal ↔ kind ∈ literals := by
  cases kind <;> decide

theorem Kind.Carries.suits {kind : Kind} {payload : Payload} (carries : kind.Carries payload)
    (other : kind.category ≠ .literal) : kind.Suits payload where
  carries := carries
  value := fun literal => absurd literal other

namespace Payload

variable {kind : Kind} {payload : Payload} {e : Element}

theorem carries_of_relational (relational : kind.category = .relational)
    (read : ofElement kind e = .ok payload) : kind.Carries payload := by
  cases kind with
  | concept =>
      rcases bind_eq_ok_iff.mp read with ⟨_, -, rest⟩
      rcases map_eq_ok_iff.mp rest with ⟨c, -, rfl⟩
      rfl
  | feature =>
      rcases bind_eq_ok_iff.mp read with ⟨_, -, rest⟩
      rcases bind_eq_ok_iff.mp rest with ⟨f, -, rest⟩
      rcases map_eq_ok_iff.mp rest with ⟨comparison, -, rfl⟩
      rfl
  | roleAll | roleSome =>
      rcases bind_eq_ok_iff.mp read with ⟨_, -, rest⟩
      rcases map_eq_ok_iff.mp rest with ⟨r, -, rfl⟩
      simp [Kind.Carries]
  | _ => cases relational

theorem carries_of_placeholder (substitution : kind.isPlaceholder = true)
    (read : placeholderOf e = .ok payload) : kind.Carries payload := by
  have carries (field : String) (deferred : Bool) : kind.Carries (.placeholder field deferred) :=
    (Kind.isPlaceholder_iff kind).mp substitution
  rcases bind_eq_ok_iff.mp read with ⟨_, -, rest⟩
  rcases bind_eq_ok_iff.mp rest with ⟨field, -, rest⟩
  split at rest
  · cases rest
    exact carries field false
  · rcases map_eq_ok_iff.mp rest with ⟨deferred, -, rfl⟩
    exact carries field deferred

theorem carries_of_substitution (substitution : kind.category = .substitution)
    (read : ofElement kind e = .ok payload) : kind.Carries payload := by
  simp only [ofElement, substitution] at read
  split at read
  · rename_i template
    rcases bind_eq_ok_iff.mp read with ⟨_, -, rest⟩
    rcases bind_eq_ok_iff.mp rest with ⟨t, -, rest⟩
    rcases map_eq_ok_iff.mp rest with ⟨assemblage, -, rfl⟩
    exact template
  · rename_i other
    apply carries_of_placeholder _ read
    simp [Kind.isPlaceholder, substitution, other]

theorem suits_of_literal (literal : kind.category = .literal)
    (read : literalOf kind e = .ok payload) : kind.Suits payload := by
  rcases bind_eq_ok_iff.mp read with ⟨_, -, rest⟩
  rcases bind_eq_ok_iff.mp rest with ⟨raw, -, rest⟩
  cases found : Literal.read? kind raw with
  | none =>
      rw [found] at rest
      cases rest
  | some v =>
      rw [found] at rest
      cases rest
      exact ⟨(Kind.category_eq_literal_iff kind).mp literal,
        fun _ => ⟨v, rfl, Literal.kind_of_read found⟩⟩

theorem suits_of_ofElement (read : ofElement kind e = .ok payload) : kind.Suits payload := by
  cases category : kind.category with
  | setOperator =>
      have other : kind.category ≠ .literal := by simp [category]
      simp only [ofElement, category] at read
      rcases bind_eq_ok_iff.mp read with ⟨_, -, rest⟩
      cases rest
      exact Kind.Carries.suits ((Kind.category_eq_setOperator_iff kind).mp category) other
  | relational =>
      exact (carries_of_relational category read).suits (by simp [category])
  | literal =>
      simp only [ofElement, category] at read
      exact suits_of_literal category read
  | substitution =>
      exact (carries_of_substitution category read).suits (by simp [category])

end Payload

namespace Expression

theorem suits_of_ofElementAlone {kind : Kind} {payload : Payload} {e : Element}
    (read : ofElementAlone e = .ok (kind, payload)) :
    kind.Suits payload := by
  rw [ofElementAlone] at read
  split at read
  · cases read
  · rcases Payload.bind_eq_ok_iff.mp read with ⟨found, alone, rest⟩
    split at rest
    · cases rest
    · cases rest
      exact Payload.suits_of_ofElement alone

mutual

theorem suits_of_ofElementAt {path : Path} {e : Element} {tree n : Expression} {steps : List Nat}
    (read : ofElementAt path e = .ok tree) (there : tree.at? steps = some n) :
    n.kind.Suits n.payload := by
  obtain ⟨name, attributes, children, text⟩ := e
  rw [ofElementAt] at read
  split at read
  · cases read
  · rename_i kind payload alone
    cases below : ofElementsAt path 0 children with
    | error misplaced =>
        rw [below] at read
        cases read
    | ok trees =>
        rw [below] at read
        cases read
        cases steps with
        | nil =>
            cases there
            exact suits_of_ofElementAlone alone
        | cons index steps =>
            rcases Option.bind_eq_some_iff.mp there with ⟨c, child, onward⟩
            exact suits_of_ofElementsAt below (List.mem_of_getElem? child) onward

theorem suits_of_ofElementsAt {path : Path} {index : Nat} {es : List Element}
    {trees : List Expression} {c n : Expression} {steps : List Nat}
    (read : ofElementsAt path index es = .ok trees) (child : c ∈ trees)
    (there : c.at? steps = some n) : n.kind.Suits n.payload := by
  cases es with
  | nil =>
      cases read
      cases child
  | cons e es =>
      rw [ofElementsAt] at read
      cases first : ofElementAt (path.step index e.name) e with
      | error misplaced =>
          rw [first] at read
          cases read
      | ok tree =>
          simp only [first] at read
          cases others : ofElementsAt path (index + 1) es with
          | error misplaced =>
              rw [others] at read
              cases read
          | ok rest =>
              rw [others] at read
              cases read
              rcases List.mem_cons.mp child with rfl | behind
              · exact suits_of_ofElementAt first there
              · exact suits_of_ofElementsAt others behind there

end

variable {tree n : Expression} {steps : List Nat}

theorem Leads.at {text : String} {e : Expression} (leads : Leads e steps text n) :
    e.at? steps = some n := by
  induction leads with
  | here => rfl
  | @down a b c index steps text child onward ih =>
      rw [at?, child]
      exact ih

theorem Breaks.remains {v : Violation} (broken : Breaks n v) (suits : n.kind.Suits n.payload) :
    v.Remains := by
  cases broken with
  | payload foreign => exact absurd suits.carries foreign
  | childless _ => exact .childless _
  | count _ _ _ => exact .childCount _ _ _
  | featureChild _ _ _ => exact .featureChild _
  | unset literal =>
      rcases suits.value ((Kind.category_eq_literal_iff _).mpr literal) with ⟨v, same, -⟩
      cases same
  | foreignValue literal other =>
      rcases suits.value ((Kind.category_eq_literal_iff _).mpr literal) with ⟨v, same, own⟩
      cases same
      exact absurd own other
  | notFinite _ => exact .notFinite _
  | year _ => exact .yearOutside _
  | character _ _ => exact .stringCharacter
  | blank _ _ => exact .blankField _
  | fieldCharacter _ _ _ => exact .fieldCharacter _
  | pending _ => exact .pending _

/-- Reading an element settles the payloads: every node of the tree has the payload that its kind
requires, and every literal has a value of its own kind. If the tree is refused all the same, the
reason is another one, also by its text, and it is what is reported of the document. -/
theorem payload_settled {path : Path} {e : Element} (read : ofElementAt path e = .ok tree) :
    (∀ steps n, tree.at? steps = some n → n.kind.Carries n.payload ∧
      (n.kind.category = .literal → ∃ v, n.payload = .literal (some v) ∧ v.kind = n.kind)) ∧
    (∀ refused, tree.validate = .error refused → refused.violation.Remains ∧
      ∀ w : Violation, w.BlamesPayload → refused.violation.message ≠ w.message) ∧
    (path = .root e.name → ∀ m, ofElement e = .error m → ∃ refused,
      tree.validate = .error refused ∧ m = ⟨refused.path, .violation refused.violation⟩) := by
  refine ⟨?_, ?_, ?_⟩
  · intro steps n there
    have suits := suits_of_ofElementAt read there
    exact ⟨suits.carries, suits.value⟩
  · intro refused rejected
    rcases (validate_blames_first tree).1 refused rejected with ⟨steps, n, first⟩
    have remains := first.breaks.remains (suits_of_ofElementAt read first.leads.at)
    exact ⟨remains, fun w blames => remains.message_ne blames⟩
  · intro root m failed
    rw [root] at read
    rw [ofElement, read] at failed
    cases checked : tree.validate with
    | ok _ => simp [checked, bind, Except.bind] at failed
    | error refused =>
        refine ⟨refused, rfl, ?_⟩
        simp only [checked, bind, Except.bind] at failed
        exact (Except.error.inj failed).symm

/-- A value that no document may hold, behind a text and a placeholder that is left open. -/
theorem payload_settled_infinite :
    let e : Element := .element "and" [] [.element "literal-string" [] [] "a",
      .element "substitution-concept" [⟨"deferred", "true"⟩, ⟨"field", "x"⟩] [] "",
      .element "literal-float" [⟨"value", "-inf"⟩] [] ""] ""
    let tree := connective .and [literal (.string "a"),
      (placeholder .substitutionConcept "x").deferred, literal (.float (.infinite true))]
    let violation : Violation := .notFinite (.infinite true)
    ofElementAt (.root "and") e = .ok tree ∧ Kind.Carries .string (.literal (some (.string "a"))) ∧
      ofElement e = .error ⟨(Path.root "and").step 2 "literal-float", .violation violation⟩ ∧
      ∀ w : Violation, w.BlamesPayload → violation.message ≠ w.message := by
  intro e tree violation
  have read : ofElementAt (.root "and") e = .ok tree := rfl
  have rejected : tree.validate =
      .error ⟨(Path.root "and").step 2 "literal-float", violation⟩ := rfl
  rcases payload_settled read with ⟨each, remains, -⟩
  exact ⟨read, (each [0] _ rfl).1, rfl, (remains _ rejected).2⟩

end Expression

end Terminology
