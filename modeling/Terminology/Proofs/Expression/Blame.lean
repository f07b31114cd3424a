import Terminology.Proofs.Expression.Rules
import Terminology.Proofs.Path

/-!
Whom a refusal blames: the path that is reported leads to one node of the tree, which breaks the
rule that is reported, and no node before it in document order breaks any.
-/

namespace Terminology.Expression

variable {kind : Kind} {payload : Payload} {children : List Expression} {v : Violation}

/-- Reading a text as a path from the root of a tree: the tags of nodes and the indices of
children. -/
abbrev Leads : Expression → List Nat → String → Expression → Prop :=
  Path.Leads (fun e => e.kind.tag) Expression.children

theorem Legal.leads {e n : Expression} {steps : List Nat} {text : String} (legal : e.Legal)
    (leads : Leads e steps text n) : n.Legal := by
  induction leads with
  | here => exact legal
  | @down a b c index steps text child onward ih =>
      apply ih
      obtain ⟨kind, payload, children⟩ := a
      exact (legal_node_iff.mp legal).2 b (List.mem_of_getElem? child)

theorem Legal.not_breaks {e : Expression} (legal : e.Legal) : ¬ Breaks e v := by
  obtain ⟨kind, payload, children⟩ := e
  exact not_breaks_of_violation (legal_node_iff.mp legal).1

/-- The first node of a tree that breaks a rule: a text and the steps that lead to it, the rule,
and that no node before it breaks any. Steps in their lexical order, a beginning before its
continuations, are the nodes in document order. -/
structure First (e : Expression) (steps : List Nat) (text : String) (n : Expression)
    (v : Violation) : Prop where
  leads : Leads e steps text n
  breaks : Breaks n v
  earlier : ∀ before path m, Leads e before path m → before < steps → ∀ w, ¬ Breaks m w

theorem first_of_path {e n : Expression} {steps : List Nat} {text : String}
    (first : Path.First (fun e => e.kind.tag) Expression.children Breaks e steps text n v) :
    First e steps text n v :=
  ⟨first.leads, first.wrong, first.earlier⟩

theorem first_here (found : violation? kind payload children = some v) :
    First (node kind payload children) [] kind.tag (node kind payload children) v :=
  first_of_path (.here (breaks_of_violation found))

theorem first_below (passed : violation? kind payload children = none) {index : Nat}
    {c n : Expression} {steps : List Nat} {text : String} (child : children[index]? = some c)
    (legal : ∀ earlier < index, ∀ b, children[earlier]? = some b → b.Legal)
    (first : First c steps text n v) :
    First (node kind payload children) (index :: steps)
      (kind.tag ++ "[" ++ toString index ++ "]/" ++ text) n v := by
  apply first_of_path
  apply Path.First.down _ child _ ⟨first.leads, first.breaks, first.earlier⟩
  · intro other
    exact not_breaks_of_violation passed
  · intro earlier less b there before path m leads other
    exact ((legal earlier less b there).leads leads).not_breaks

mutual

/-- What checking reports of a tree at some path is its first node that breaks a rule. -/
theorem first_of_validateAt {path : Path} {front : String} {e : Expression}
    {refused : InvalidExpression} (place : path.text = front ++ e.kind.tag)
    (rejected : validateAt path e = .error refused) :
    ∃ steps text n, refused.path.text = front ++ text ∧ First e steps text n refused.violation := by
  obtain ⟨kind, payload, children⟩ := e
  rw [validateAt] at rejected
  cases own : violation? kind payload children with
  | some v =>
      rw [own] at rejected
      cases rejected
      exact ⟨[], kind.tag, _, place, first_here own⟩
  | none =>
      simp only [own] at rejected
      obtain ⟨index, c, steps, text, n, child, legal, reported, first⟩ :=
        first_of_validateAll rejected
      refine ⟨index :: steps, _, n, ?_, first_below own child legal first⟩
      rw [reported, place, Nat.zero_add]
      simp only [String.append_assoc]
      rfl

theorem first_of_validateAll {path : Path} {start : Nat} {es : List Expression}
    {refused : InvalidExpression} (rejected : validateAll path start es = .error refused) :
    ∃ index c steps text n, es[index]? = some c ∧
      (∀ earlier < index, ∀ b, es[earlier]? = some b → b.Legal) ∧
      refused.path.text = path.text ++ "[" ++ toString (start + index) ++ "]/" ++ text ∧
      First c steps text n refused.violation := by
  cases es with
  | nil => cases rejected
  | cons e es =>
      rw [validateAll] at rejected
      cases checked : validateAt (path.step start e.kind.tag) e with
      | error found =>
          rw [checked] at rejected
          cases rejected
          obtain ⟨steps, text, n, reported, first⟩ := first_of_validateAt rfl checked
          exact ⟨0, e, steps, text, n, rfl, nofun, reported, first⟩
      | ok _ =>
          simp only [checked] at rejected
          obtain ⟨index, c, steps, text, n, child, legal, reported, first⟩ :=
            first_of_validateAll rejected
          refine ⟨index + 1, c, steps, text, n, child, ?_, ?_, first⟩
          · intro earlier less b there
            cases earlier with
            | zero =>
                cases there
                exact (validateAt_eq_ok_iff _ _).mp checked
            | succ earlier => exact legal earlier (Nat.lt_of_succ_lt_succ less) b there
          · rw [reported, Nat.add_assoc, Nat.add_comm 1 index]

end

/-- The path of a refusal leads to one node, which breaks the rule that is reported, and no node
before it breaks any. The paths of different nodes differ, in every tree. -/
theorem validate_blames_first (e : Expression) :
    (∀ refused, e.validate = .error refused →
      ∃ steps n, First e steps refused.path.text n refused.violation) ∧
    ∀ steps steps' text n n', Leads e steps text n → Leads e steps' text n' →
      steps = steps' ∧ n = n' := by
  constructor
  · intro refused rejected
    have place : (Path.root e.kind.tag).text = "" ++ e.kind.tag := String.empty_append.symm
    obtain ⟨steps, text, n, reported, first⟩ := first_of_validateAt place rejected
    rw [String.empty_append] at reported
    rw [reported]
    exact ⟨steps, n, first⟩
  · intro steps steps' text n n' leads leads'
    exact leads.unique leads'

/-- A feature without a value is blamed before the connective in it, which has no child, and
before the literal behind it, which has no value. -/
theorem validate_blames_first_feature :
    let c : ConceptRef := ⟨⟨1⟩⟩
    let e := connective .and [concept c, feature c .equals (connective .or []),
      unsetLiteral .string]
    let refused : InvalidExpression := ⟨(Path.root "and").step 1 "feature", .featureChild .or⟩
    e.validate = .error refused ∧ refused.path.text = "and[1]/feature" ∧
      First e [1] "and[1]/feature" (feature c .equals (connective .or [])) (.featureChild .or) := by
  intro c e refused
  have rejected : e.validate = .error refused := rfl
  have child : e.children[1]? = some (feature c .equals (connective .or [])) := rfl
  have leads : Leads e [1] refused.path.text (feature c .equals (connective .or [])) :=
    .down child (.here _)
  obtain ⟨blames, unique⟩ := validate_blames_first e
  obtain ⟨steps, n, first⟩ := blames refused rejected
  obtain ⟨rfl, rfl⟩ := unique _ _ _ _ _ first.leads leads
  exact ⟨rejected, rfl, first⟩

end Terminology.Expression
