import Terminology.Proofs.Document.Faults

/-!
Whom the refusal of a document blames. Reading looks at every element by itself and, if nothing is
wrong with any, checks the nodes; both name the place in the same language, by the names of
elements. The place that is named leads to one element of the document: the first with a fault of
its own, or else the first whose node breaks a rule.
-/

namespace Terminology

open Markup

namespace Markup.Element

/-- Reading a text as a path from the root of a document: the names of elements and the indices of
child elements. -/
abbrev Leads : Element → List Nat → String → Element → Prop :=
  Path.Leads Element.name Element.children

/-- The first element of a document with which something is wrong. -/
abbrev First (Wrong : Element → ContentError → Prop) :
    Element → List Nat → String → Element → ContentError → Prop :=
  Path.First Element.name Element.children Wrong

inductive Breaks (e : Element) : ContentError → Prop
  | node {n : Expression} {v : Violation} (described : Describes e n) (broken : n.Breaks v) :
      Breaks e (.violation v)

theorem Keyed.distinct {e : Element} (keyed : e.Keyed) :
    e.attributes.Pairwise fun a b => a.key ≠ b.key := by
  cases keyed with
  | element distinct _ => exact distinct

theorem Keyed.leads {e x : Element} {steps : List Nat} {text : String} (keyed : e.Keyed)
    (leads : e.Leads steps text x) : x.Keyed := by
  induction leads with
  | here => exact keyed
  | down child _ ih =>
      apply ih
      cases keyed with
      | element _ below => exact below _ (List.mem_of_getElem? child)

end Markup.Element

namespace Describes

variable {e x : Element} {n m : Expression} {steps : List Nat} {text : String}

theorem unique (keyed : e.Keyed) (described : Describes e n) (described' : Describes e m) :
    n = m := by
  have read : Expression.ofElementAt (.root e.name) e = .ok n :=
    (Expression.ofElementAt_eq_ok_iff keyed).mpr described
  have read' : Expression.ofElementAt (.root e.name) e = .ok m :=
    (Expression.ofElementAt_eq_ok_iff keyed).mpr described'
  exact Except.ok.inj (read.symm.trans read')

theorem tag_eq (described : Describes e n) : n.kind.tag = e.name := by
  cases described with
  | node tag _ _ => exact tag

theorem children (described : Describes e n) : List.Forall₂ Describes e.children n.children := by
  cases described with
  | node _ _ below => exact below

theorem child_of_forall₂ {α β : Type} {R : α → β → Prop} {as : List α} {bs : List β} {a : α}
    {index : Nat} (related : List.Forall₂ R as bs) (there : as[index]? = some a) :
    ∃ b, bs[index]? = some b ∧ R a b := by
  rcases List.getElem?_eq_some_iff.mp there with ⟨inside, rfl⟩
  have inside' : index < bs.length := related.length_eq ▸ inside
  exact ⟨_, List.getElem?_eq_getElem inside', related.get inside inside'⟩

theorem node_of_leads (described : Describes e n) (leads : e.Leads steps text x) :
    ∃ m, n.Leads steps text m ∧ Describes x m := by
  induction leads generalizing n with
  | here e =>
      rw [← described.tag_eq]
      exact ⟨n, .here n, described⟩
  | down child _ ih =>
      rcases child_of_forall₂ described.children child with ⟨c, there, within⟩
      rcases ih within with ⟨m, leads, found⟩
      rw [← described.tag_eq]
      exact ⟨m, .down there leads, found⟩

theorem element_of_leads (described : Describes e n) (leads : n.Leads steps text m) :
    ∃ x, e.Leads steps text x ∧ Describes x m := by
  induction leads generalizing e with
  | here n =>
      rw [described.tag_eq]
      exact ⟨e, .here e, described⟩
  | down child _ ih =>
      rcases child_of_forall₂ described.children.flip child with ⟨c, there, within⟩
      rcases ih within with ⟨x, leads, found⟩
      rw [described.tag_eq]
      exact ⟨x, .down there leads, found⟩

end Describes

namespace Expression

variable {e x : Element} {tree : Expression}

theorem not_fails_of_describes {steps : List Nat} {text : String} (keyed : e.Keyed)
    (described : Describes e tree) (leads : e.Leads steps text x) (err : ContentError) :
    ¬ x.Fails err := by
  rcases described.node_of_leads leads with ⟨m, -, found⟩
  cases found with
  | node tag recorded _ =>
      have distinct := (keyed.leads leads).distinct
      exact not_fails_of_ofElementAlone ((ofElementAlone_eq_ok_iff distinct).mpr ⟨tag, recorded⟩)

mutual

theorem first_of_ofElementAt {path : Path} {front : String} {e : Element} {misplaced : Misplaced}
    (keyed : e.Keyed) (place : path.text = front ++ e.name)
    (refused : ofElementAt path e = .error misplaced) :
    ∃ steps text x, misplaced.path.text = front ++ text ∧
      e.First Element.Fails steps text x misplaced.error := by
  obtain ⟨name, attributes, children, text⟩ := e
  obtain ⟨-, keyed_below⟩ := keyed
  rw [ofElementAt] at refused
  cases alone : ofElementAlone (.element name attributes children text) with
  | error err =>
      rw [alone] at refused
      cases refused
      exact ⟨[], name, _, place, .here (fails_of_ofElementAlone alone)⟩
  | ok found =>
      cases below : ofElementsAt path 0 children with
      | ok trees =>
          simp only [alone, below] at refused
          cases refused
      | error other =>
          simp only [alone, below] at refused
          cases refused
          obtain ⟨index, c, steps, text, x, child, clear, reported, first⟩ :=
            first_of_ofElementsAt keyed_below below
          refine ⟨index :: steps, _, x, ?_,
            .down (fun _ => not_fails_of_ofElementAlone alone) child clear first⟩
          rw [reported, place, Nat.zero_add]
          simp only [String.append_assoc]

theorem first_of_ofElementsAt {path : Path} {start : Nat} {es : List Element}
    {misplaced : Misplaced} (keyed : ∀ e ∈ es, e.Keyed)
    (refused : ofElementsAt path start es = .error misplaced) :
    ∃ index c steps text x, es[index]? = some c ∧
      (∀ earlier < index, ∀ b, es[earlier]? = some b →
        ∀ before path y, b.Leads before path y → ∀ other, ¬ y.Fails other) ∧
      misplaced.path.text = path.text ++ "[" ++ toString (start + index) ++ "]/" ++ text ∧
      c.First Element.Fails steps text x misplaced.error := by
  cases es with
  | nil => cases refused
  | cons e es =>
      obtain ⟨keyed_first, keyed_others⟩ := List.forall_mem_cons.mp keyed
      rw [ofElementsAt] at refused
      cases read : ofElementAt (path.step start e.name) e with
      | error found =>
          rw [read] at refused
          cases refused
          obtain ⟨steps, text, x, reported, first⟩ := first_of_ofElementAt keyed_first rfl read
          exact ⟨0, e, steps, text, x, rfl, nofun, reported, first⟩
      | ok tree =>
          cases others : ofElementsAt path (start + 1) es with
          | ok trees =>
              simp only [read, others] at refused
              cases refused
          | error found =>
              simp only [read, others] at refused
              cases refused
              obtain ⟨index, c, steps, text, x, child, clear, reported, first⟩ :=
                first_of_ofElementsAt keyed_others others
              refine ⟨index + 1, c, steps, text, x, child, ?_, ?_, first⟩
              · intro earlier less b there before path y leads
                cases earlier with
                | zero =>
                    cases there
                    have described := (ofElementAt_eq_ok_iff keyed_first).mp read
                    exact not_fails_of_describes keyed_first described leads
                | succ earlier =>
                    exact clear earlier (Nat.lt_of_succ_lt_succ less) b there before path y leads
              · rw [reported, Nat.add_assoc, Nat.add_comm 1 index]

end

theorem exists_node_of_breaks {steps : List Nat} {text : String} {err : ContentError}
    (keyed : e.Keyed) (described : Describes e tree) (leads : e.Leads steps text x)
    (breaks : x.Breaks err) : ∃ m v, Leads tree steps text m ∧ Breaks m v := by
  cases breaks with
  | @node n v mapped broken =>
      rcases described.node_of_leads leads with ⟨m, onward, mapped'⟩
      -- No two attributes have one key, so that the element is read as one node only.
      rw [mapped.unique (keyed.leads leads) mapped'] at broken
      exact ⟨m, v, onward, broken⟩

theorem first_of_describes {n : Expression} {steps : List Nat} {text : String} {v : Violation}
    (keyed : e.Keyed) (described : Describes e tree) (first : First tree steps text n v) :
    ∃ x, e.First Element.Breaks steps text x (.violation v) := by
  rcases described.element_of_leads first.leads with ⟨x, leads, found⟩
  refine ⟨x, leads, .node found first.breaks, ?_⟩
  intro before path y leads less other breaks
  rcases exists_node_of_breaks keyed described leads breaks with ⟨m, w, onward, broken⟩
  exact first.earlier before path m onward less w broken

/-- A document of which the mapping is refused has a first element with a fault, or no such
element and a first one whose node breaks a rule; the refusal names that element and what is wrong
with it. -/
theorem first_of_ofElement {misplaced : Misplaced} (keyed : e.Keyed)
    (refused : ofElement e = .error misplaced) :
    ∃ steps x, e.First Element.Fails steps misplaced.path.text x misplaced.error ∨
      (∀ steps path y, e.Leads steps path y → ∀ err, ¬ y.Fails err) ∧
        e.First Element.Breaks steps misplaced.path.text x misplaced.error := by
  cases read : ofElementAt (.root e.name) e with
  | error other =>
      simp only [ofElement, read, bind, Except.bind] at refused
      cases refused
      have place : (Path.root e.name).text = "" ++ e.name := String.empty_append.symm
      rcases first_of_ofElementAt keyed place read with ⟨steps, text, x, reported, first⟩
      rw [String.empty_append] at reported
      rw [reported]
      exact ⟨steps, x, .inl first⟩
  | ok tree =>
      have described := (ofElementAt_eq_ok_iff keyed).mp read
      have faultless : ∀ steps path y, e.Leads steps path y → ∀ err, ¬ y.Fails err :=
        fun _ _ _ leads => not_fails_of_describes keyed described leads
      cases valid : tree.validate with
      | ok checked =>
          simp only [ofElement, read, valid, bind, Except.bind] at refused
          cases refused
      | error invalid =>
          simp only [ofElement, read, valid, bind, Except.bind] at refused
          cases refused
          have place : (Path.root tree.kind.tag).text = "" ++ tree.kind.tag :=
            String.empty_append.symm
          rcases first_of_validateAt place valid with ⟨steps, text, n, reported, first⟩
          rw [String.empty_append] at reported
          rcases first_of_describes keyed described first with ⟨x, first⟩
          exact ⟨steps, x, .inr ⟨faultless, reported ▸ first⟩⟩

/-- A document is read exactly if nothing is wrong with any element or its node. -/
theorem exists_ofElement_iff (keyed : e.Keyed) :
    (∃ tree, ofElement e = .ok tree) ↔
      ∀ steps path x, e.Leads steps path x → ∀ err, ¬ x.Fails err ∧ ¬ x.Breaks err := by
  constructor
  · intro done
    rcases done with ⟨tree, read⟩
    rcases (ofElement_eq_ok_iff_describes keyed).mp read with ⟨described, legal⟩
    intro steps path x leads err
    refine ⟨not_fails_of_describes keyed described leads err, ?_⟩
    intro breaks
    rcases exists_node_of_breaks keyed described leads breaks with ⟨m, v, onward, broken⟩
    exact (legal.leads onward).not_breaks broken
  · intro flawless
    cases read : ofElement e with
    | ok tree => exact ⟨tree, rfl⟩
    | error misplaced =>
        rcases first_of_ofElement keyed read with ⟨steps, x, fails | ⟨_, breaks⟩⟩
        · exact absurd fails.wrong (flawless _ _ _ fails.leads _).1
        · exact absurd breaks.wrong (flawless _ _ _ breaks.leads _).2

end Expression

namespace Document

theorem message_content (m : Misplaced) : (Malformed.content m).message =
    "malformed document: " ++ ("at `" ++ m.path.text ++ "`: " ++ m.error.message) := by
  have opening : "malformed document: " ++ "at `" = "malformed document: at `" := by decide
  calc
    (Malformed.content m).message
      = "malformed document: at `" ++ m.path.text ++ "`: " ++ m.error.message := rfl
    _ = "malformed document: " ++ "at `" ++ m.path.text ++ "`: " ++ m.error.message := by
      rw [opening]
    _ = "malformed document: " ++ ("at `" ++ m.path.text ++ "`: " ++ m.error.message) := by
      simp only [String.append_assoc]

theorem Malformed.exists_reason (m : Malformed) :
    ∃ reason, m.message = "malformed document: " ++ reason := by
  cases m with
  | markup m => exact ⟨m.message, rfl⟩
  | content m => exact ⟨_, message_content m⟩

theorem Unwritten.exists_reason (u : Unwritten) :
    ∃ front ∈ ["invalid expression at `", "cannot write document: `"], ∃ reason,
      u.message = front ++ reason := by
  cases u with
  | invalid e =>
      refine ⟨"invalid expression at `", by decide, e.path.text ++ "`: " ++ e.violation.message, ?_⟩
      rw [← String.append_assoc, ← String.append_assoc]
      rfl
  | unsetLiteral kind =>
      refine ⟨"cannot write document: `", by decide, kind.tag ++ "` literal has no value", ?_⟩
      rw [← String.append_assoc]
      rfl

theorem Malformed.message_ne (m : Malformed) (u : Unwritten) : m.message ≠ u.message := by
  intro same
  rcases m.exists_reason with ⟨reason, shown⟩
  rcases Unwritten.exists_reason u with ⟨front, begins, reason', shown'⟩
  rw [shown, shown'] at same
  have apart : ∀ front ∈ ["invalid expression at `", "cannot write document: `"],
      ¬ ("malformed document: ".toList <+: front.toList ∨
        front.toList <+: "malformed document: ".toList) := by decide
  exact apart front begins (comparable_of_append_eq same)

/-- Reading has one way to fail. A refusal of a document that could be parsed names a place that
leads to one element: the first one that fails a check of its own or, if none does, the first one
whose node breaks a rule. -/
theorem deserialize_blames_first (settings : Settings) (text : String) :
    (∀ m, deserialize settings text = .error m →
      (∃ reason, m.message = "malformed document: " ++ reason) ∧
        ∀ u : Unwritten, m.message ≠ u.message) ∧
    ∀ root, Element.parse settings.toLimits text = .ok root →
      ((∃ e, deserialize settings text = .ok e) ↔
        ∀ steps path x, root.Leads steps path x → ∀ err, ¬ x.Fails err ∧ ¬ x.Breaks err) ∧
      ∀ m, deserialize settings text = .error m →
        ∃ path err steps x, m = .content ⟨path, err⟩ ∧
          m.message = "malformed document: " ++ ("at `" ++ path.text ++ "`: " ++ err.message) ∧
          (∀ steps' x', root.Leads steps' path.text x' → steps = steps' ∧ x = x') ∧
          (root.First Element.Fails steps path.text x err ∨
            (∀ steps' path' y, root.Leads steps' path' y → ∀ other, ¬ y.Fails other) ∧
              root.First Element.Breaks steps path.text x err) := by
  refine ⟨fun m _ => ⟨m.exists_reason, m.message_ne⟩, ?_⟩
  intro root parsed
  have keyed := Element.keyed_of_parse parsed
  have mapped := deserialize_of_parse parsed
  cases read : Expression.ofElement root with
  | ok e =>
      rw [read] at mapped
      constructor
      · rw [← Expression.exists_ofElement_iff keyed]
        exact ⟨fun _ => ⟨e, read⟩, fun _ => ⟨e, mapped⟩⟩
      · intro m refused
        cases mapped.symm.trans refused
  | error misplaced =>
      rw [read] at mapped
      constructor
      · rw [← Expression.exists_ofElement_iff keyed]
        constructor
        · intro done
          rcases done with ⟨e, done⟩
          cases mapped.symm.trans done
        · intro done
          rcases done with ⟨e, done⟩
          cases read.symm.trans done
      · intro m refused
        cases mapped.symm.trans refused
        rcases Expression.first_of_ofElement keyed read with ⟨steps, x, first⟩
        refine ⟨misplaced.path, misplaced.error, steps, x, rfl, message_content misplaced, ?_,
          first⟩
        intro steps' x' leads'
        rcases first with fails | ⟨_, breaks⟩
        · exact fails.leads.unique leads'
        · exact breaks.leads.unique leads'

/-- A fault of an element goes before the rule that an earlier node would break; without faults the
first node that breaks a rule is blamed. -/
theorem deserialize_blames_first_stages :
    let settings : Settings := {}
    let faulty := "<and><or/><role-all role='x'><bogus/></role-all></and>"
    let broken := "<and><or/><substitution-float field=' ' deferred='true'/></and>"
    (∃ root m steps x, Element.parse settings.toLimits faulty = .ok root ∧
      deserialize settings faulty = .error m ∧
      m.message =
        "malformed document: at `and[1]/role-all`: attribute `role` has invalid value `x`" ∧
      root.First Element.Fails steps "and[1]/role-all" x (.invalidAttribute "role" "x")) ∧
    ∃ root m steps x, Element.parse settings.toLimits broken = .ok root ∧
      deserialize settings broken = .error m ∧
      m.message = "malformed document: at `and[0]/or`: `Or` requires at least one child" ∧
      root.First Element.Breaks steps "and[0]/or" x (.violation (.childless .or)) := by
  intro settings faulty broken
  constructor
  · have known : (Element.parse settings.toLimits faulty).toOption.map Element.name =
        some "and" := by decide +kernel
    rcases Element.exists_of_view known with ⟨root, parsed, -⟩
    have refused : deserialize settings faulty = .error
        (.content ⟨(Path.root "and").step 1 "role-all", .invalidAttribute "role" "x"⟩) := by
      decide +kernel
    rcases ((deserialize_blames_first settings faulty).2 root parsed).2 _ refused with
      ⟨path, err, steps, x, same, shown, -, fails | ⟨_, breaks⟩⟩
    · cases same
      exact ⟨root, _, steps, x, parsed, refused, rfl, fails⟩
    · cases same
      cases breaks.wrong
  · have known : (Element.parse settings.toLimits broken).toOption.map Element.name =
        some "and" := by decide +kernel
    rcases Element.exists_of_view known with ⟨root, parsed, -⟩
    have refused : deserialize settings broken = .error
        (.content ⟨(Path.root "and").step 0 "or", .violation (.childless .or)⟩) := by
      decide +kernel
    rcases ((deserialize_blames_first settings broken).2 root parsed).2 _ refused with
      ⟨path, err, steps, x, same, shown, -, fails | ⟨_, breaks⟩⟩
    · cases same
      cases fails.wrong with
      | known _ fault => cases fault
    · cases same
      exact ⟨root, _, steps, x, parsed, refused, rfl, breaks⟩

end Document

end Terminology
