import Mathlib.Data.List.Basic
import Terminology.Proofs.Expression.Expansion

/-!
What filling placeholders does at each place of a tree. The placeholders that count are those that
are not below another one: each that is bound is replaced by the node of its value, and all other
places keep what they had. A value that does not suit is refused, and of several the first one in
document order is reported.
-/

namespace Terminology

namespace Binding

def node : Binding → Expression
  | concept c => .concept c
  | literal value => .literal value

/-- What is bound is what placeholders of the kind stand for. -/
def Suits (kind : Kind) : Binding → Prop
  | concept _ => kind = .substitutionConcept
  | literal value => value.placeholderKind = kind

variable {kind : Kind} {binding : Binding} {e : Expression}

theorem fill_eq_some_iff : binding.fill? kind = some e ↔ binding.Suits kind ∧ e = binding.node := by
  cases binding <;> simp [fill?, Suits, node, eq_comm]

theorem fill_eq_none_iff : binding.fill? kind = none ↔ ¬ binding.Suits kind := by
  cases binding <;> simp [fill?, Suits]

end Binding

/-- The field is free, or what is bound to it suits placeholders of the kind. -/
def Bindings.Suit (bindings : Bindings) (field : String) (kind : Kind) : Prop :=
  ∀ binding, bindings.get? field = some binding → binding.Suits kind

namespace Expression

mutual

theorem induct {P : Expression → Prop}
    (step : ∀ kind payload children, (∀ c ∈ children, P c) → P (node kind payload children))
    (e : Expression) : P e := by
  obtain ⟨kind, payload, children⟩ := e
  exact step kind payload children (induct_below step children)

theorem induct_below {P : Expression → Prop}
    (step : ∀ kind payload children, (∀ c ∈ children, P c) → P (node kind payload children))
    (es : List Expression) : ∀ e ∈ es, P e := by
  cases es with
  | nil => exact List.forall_mem_nil _
  | cons e es => exact List.forall_mem_cons.mpr ⟨induct step e, induct_below step es⟩

end

/-- The node that the indices of children lead to. -/
def at? : Expression → List Nat → Option Expression
  | e, [] => some e
  | e, index :: steps => e.children[index]?.bind fun c => c.at? steps

/-- All that a node is by itself: its kind, its payload and the number of nodes right below it. -/
def label (e : Expression) : Kind × Payload × Nat := (e.kind, e.payload, e.children.length)

variable {kind : Kind} {payload : Payload} {children : List Expression} {index : Nat}
  {steps : List Nat}

theorem at_below {c : Expression} (child : children[index]? = some c) :
    (node kind payload children).at? (index :: steps) = c.at? steps := by
  simp [at?, Expression.children, child]

theorem at_beyond (absent : children[index]? = none) :
    (node kind payload children).at? (index :: steps) = none := by
  simp [at?, Expression.children, absent]

theorem at_append (e : Expression) (front back : List Nat) :
    e.at? (front ++ back) = (e.at? front).bind fun m => m.at? back := by
  induction front generalizing e with
  | nil => rfl
  | cons index front ih =>
      rw [List.cons_append, at?, at?, Option.bind_assoc]
      exact congrArg _ (funext ih)

theorem eq_of_label {e e' : Expression}
    (same : ∀ steps, (e.at? steps).map label = (e'.at? steps).map label) : e = e' := by
  induction e using induct generalizing e' with
  | step kind payload children ih =>
      obtain ⟨kind', payload', children'⟩ := e'
      have root := same []
      simp only [at?, label, Expression.kind, Expression.payload, Expression.children,
        Option.map_some, Option.some.injEq, Prod.mk.injEq] at root
      obtain ⟨rfl, rfl, lengths⟩ := root
      have below : children = children' := by
        apply List.ext_getElem lengths
        intro index inside inside'
        apply ih _ (List.getElem_mem inside)
        intro steps
        have here := same (index :: steps)
        rwa [at_below (List.getElem?_eq_getElem inside),
          at_below (List.getElem?_eq_getElem inside')] at here
      rw [below]

/-- The steps lead to a placeholder for the field, and to none on the way. -/
structure Outermost (e : Expression) (steps : List Nat) (field : String) (n : Expression) :
    Prop where
  found : e.at? steps = some n
  stands : n.payload.field? = some field
  above : ∀ k < steps.length, ∀ m, e.at? (steps.take k) = some m → m.payload.field? = none

variable {bindings : Bindings} {field : String} {e n filled : Expression}

theorem Outermost.root (outermost : Outermost e [] field n) :
    n = e ∧ e.payload.field? = some field := by
  have same := Option.some.inj outermost.found
  exact ⟨same.symm, same ▸ outermost.stands⟩

theorem outermost_below_iff :
    Outermost (node kind payload children) (index :: steps) field n ↔
      payload.field? = none ∧ ∃ c, children[index]? = some c ∧ Outermost c steps field n := by
  constructor
  · intro outermost
    obtain ⟨found, stands, above⟩ := outermost
    refine ⟨above 0 (Nat.zero_lt_succ _) _ rfl, ?_⟩
    cases child : children[index]? with
    | none =>
        rw [at_beyond child] at found
        cases found
    | some c =>
        rw [at_below child] at found
        refine ⟨c, rfl, found, stands, ?_⟩
        intro k less m there
        apply above (k + 1) (Nat.succ_lt_succ less) m
        rw [List.take_succ_cons, at_below child]
        exact there
  · intro both
    obtain ⟨other, c, child, found, stands, above⟩ := both
    refine ⟨(at_below child).trans found, stands, ?_⟩
    intro k less m there
    cases k with
    | zero =>
        cases there
        exact other
    | succ k =>
        rw [List.take_succ_cons, at_below child] at there
        exact above k (Nat.lt_of_succ_lt_succ less) m there

theorem Outermost.below (other : payload.field? = none)
    (outermost : Outermost (node kind payload children) steps field n) :
    ∃ index rest c, steps = index :: rest ∧ children[index]? = some c ∧
      Outermost c rest field n := by
  cases steps with
  | nil =>
      have stands := outermost.root.2
      rw [Expression.payload, other] at stands
      cases stands
  | cons index rest =>
      obtain ⟨-, c, child, onward⟩ := outermost_below_iff.mp outermost
      exact ⟨index, rest, c, rfl, child, onward⟩

theorem Outermost.of_placeholder {deferred : Bool} {other : String}
    (outermost : Outermost (node kind (.placeholder field deferred) children) steps other n) :
    steps = [] ∧ other = field ∧ n = node kind (.placeholder field deferred) children := by
  cases steps with
  | nil =>
      obtain ⟨rfl, stands⟩ := outermost.root
      exact ⟨rfl, (Option.some.inj stands).symm, rfl⟩
  | cons index steps => cases (outermost_below_iff.mp outermost).1

theorem outermost_placeholder {deferred : Bool} :
    Outermost (node kind (.placeholder field deferred) children) [] field
      (node kind (.placeholder field deferred) children) where
  found := rfl
  stands := rfl
  above := nofun

/-- The place is that of a placeholder that counts and is bound, or below it. -/
def Taken (bindings : Bindings) (e : Expression) (steps : List Nat) : Prop :=
  ∃ k field n binding, Outermost e (steps.take k) field n ∧ bindings.get? field = some binding

theorem Taken.below {c : Expression} (other : payload.field? = none)
    (child : children[index]? = some c) (taken : Taken bindings c steps) :
    Taken bindings (node kind payload children) (index :: steps) := by
  obtain ⟨k, field, n, binding, outermost, bound⟩ := taken
  refine ⟨k + 1, field, n, binding, ?_, bound⟩
  rw [List.take_succ_cons]
  exact outermost_below_iff.mpr ⟨other, c, child, outermost⟩

/-- Bound placeholders that count are replaced by the nodes of their values; at all other places
nothing changes. -/
structure Replaces (bindings : Bindings) (e filled : Expression) : Prop where
  bound : ∀ steps field n binding, Outermost e steps field n →
    bindings.get? field = some binding → filled.at? steps = some binding.node
  other : ∀ steps, ¬ Taken bindings e steps →
    (filled.at? steps).map label = (e.at? steps).map label

theorem Replaces.unique {filled' : Expression} (replaces : Replaces bindings e filled)
    (replaces' : Replaces bindings e filled') : filled = filled' := by
  apply eq_of_label
  intro steps
  by_cases taken : Taken bindings e steps
  · obtain ⟨k, field, n, binding, outermost, bound⟩ := taken
    have parts : steps.take k ++ steps.drop k = steps := List.take_append_drop k steps
    rw [← parts, at_append, at_append, replaces.bound _ field n binding outermost bound,
      replaces'.bound _ field n binding outermost bound]
  · rw [replaces.other steps taken, replaces'.other steps taken]

/-- The steps lead to a placeholder that counts and is bound to what does not suit it. -/
structure Misfit (bindings : Bindings) (e : Expression) (steps : List Nat) (field : String)
    (n : Expression) : Prop where
  outermost : Outermost e steps field n
  unsuited : ¬ bindings.Suit field n.kind

/-- The first of them; steps in their lexical order are the nodes in document order. -/
structure FirstMisfit (bindings : Bindings) (e : Expression) (steps : List Nat) (field : String)
    (n : Expression) : Prop where
  misfit : Misfit bindings e steps field n
  earlier : ∀ before < steps, ∀ field n, ¬ Misfit bindings e before field n

theorem map_eq_error_iff {α β ε : Type} {f : α → β} {result : Except ε α} {refused : ε} :
    result.map f = .error refused ↔ result = .error refused := by
  cases result <;> simp [Except.map]

theorem children_of_expandAll {es filled : List Expression}
    (expanded : expandAll bindings es = .ok filled) :
    filled.length = es.length ∧ ∀ (index : Nat) e, es[index]? = some e →
      ∃ e', filled[index]? = some e' ∧ expand bindings e = .ok e' := by
  induction es generalizing filled with
  | nil =>
      cases expanded
      exact ⟨rfl, nofun⟩
  | cons e es ih =>
      obtain ⟨first, others, here, behind, rfl⟩ := expandAll_cons_eq_ok_iff.mp expanded
      obtain ⟨lengths, each⟩ := ih behind
      refine ⟨congrArg Nat.succ lengths, ?_⟩
      intro index c child
      cases index with
      | zero =>
          cases child
          exact ⟨first, rfl, here⟩
      | succ index => exact each index c child

theorem first_refused_of_expandAll {es : List Expression} {refused : InvalidExpression}
    (rejected : expandAll bindings es = .error refused) :
    ∃ (index : Nat) (c : Expression), es[index]? = some c ∧ expand bindings c = .error refused ∧
      ∀ earlier < index, ∀ b, es[earlier]? = some b → ∃ b', expand bindings b = .ok b' := by
  induction es with
  | nil => cases rejected
  | cons e es ih =>
      rw [expandAll] at rejected
      cases here : expand bindings e with
      | error found =>
          rw [here] at rejected
          cases rejected
          exact ⟨0, e, rfl, here, nofun⟩
      | ok e' =>
          rw [here] at rejected
          obtain ⟨index, c, child, refuses, fits⟩ := ih (map_eq_error_iff.mp rejected)
          refine ⟨index + 1, c, child, refuses, ?_⟩
          intro earlier less b there
          cases earlier with
          | zero =>
              cases there
              exact ⟨e', here⟩
          | succ earlier => exact fits earlier (Nat.lt_of_succ_lt_succ less) b there

theorem not_misfit_of_expand (expanded : expand bindings e = .ok filled) :
    ¬ Misfit bindings e steps field n := by
  induction e using induct generalizing filled steps with
  | step kind payload children ih =>
      intro misfit
      rcases payload.placeholder_or with ⟨own, deferred, rfl⟩ | other
      · obtain ⟨rfl, rfl, rfl⟩ := misfit.outermost.of_placeholder
        apply misfit.unsuited
        intro binding bound
        rcases expand_placeholder_eq_ok_iff.mp expanded with ⟨free, -⟩ | ⟨given, here, taken⟩
        · rw [free] at bound
          cases bound
        · cases Option.some.inj (here.symm.trans bound)
          exact (Binding.fill_eq_some_iff.mp taken).1
      · obtain ⟨es, below, rfl⟩ := (expand_node_eq_ok_iff other).mp expanded
        obtain ⟨index, rest, c, rfl, child, outermost⟩ := misfit.outermost.below other
        obtain ⟨c', -, filled_child⟩ := (children_of_expandAll below).2 index c child
        exact ih c (List.mem_of_getElem? child) filled_child ⟨outermost, misfit.unsuited⟩

theorem replaces_placeholder {deferred : Bool}
    (expanded : expand bindings (node kind (.placeholder field deferred) children) = .ok filled) :
    Replaces bindings (node kind (.placeholder field deferred) children) filled := by
  rcases expand_placeholder_eq_ok_iff.mp expanded with ⟨free, rfl⟩ | ⟨given, here, taken⟩
  · refine ⟨?_, fun _ _ => rfl⟩
    intro steps own n binding outermost bound
    obtain ⟨-, rfl, -⟩ := outermost.of_placeholder
    rw [free] at bound
    cases bound
  · obtain ⟨-, rfl⟩ := Binding.fill_eq_some_iff.mp taken
    constructor
    · intro steps own n binding outermost bound
      obtain ⟨rfl, rfl, -⟩ := outermost.of_placeholder
      cases Option.some.inj (here.symm.trans bound)
      rfl
    · intro steps free
      exact absurd ⟨0, field, _, given, outermost_placeholder, here⟩ free

theorem replaces_of_expand (expanded : expand bindings e = .ok filled) :
    Replaces bindings e filled := by
  induction e using induct generalizing filled with
  | step kind payload children ih =>
      rcases payload.placeholder_or with ⟨field, deferred, rfl⟩ | other
      · exact replaces_placeholder expanded
      · obtain ⟨es, below, rfl⟩ := (expand_node_eq_ok_iff other).mp expanded
        obtain ⟨lengths, each⟩ := children_of_expandAll below
        constructor
        · intro steps field n binding outermost bound
          obtain ⟨index, rest, c, rfl, child, onward⟩ := outermost.below other
          obtain ⟨c', child', filled_child⟩ := each index c child
          rw [at_below child']
          exact (ih c (List.mem_of_getElem? child) filled_child).bound rest field n binding
            onward bound
        · intro steps free
          cases steps with
          | nil =>
              simp [at?, label, Expression.kind, Expression.payload, Expression.children, lengths]
          | cons index steps =>
              cases child : children[index]? with
              | none =>
                  have child' : es[index]? = none := by
                    rw [List.getElem?_eq_none_iff] at child ⊢
                    rwa [lengths]
                  rw [at_beyond child, at_beyond child']
              | some c =>
                  obtain ⟨c', child', filled_child⟩ := each index c child
                  rw [at_below child, at_below child']
                  apply (ih c (List.mem_of_getElem? child) filled_child).other steps
                  intro taken
                  exact free (taken.below other child)

/-- What is refused has something in it that does not suit, and the first of that is reported. -/
theorem firstMisfit_of_expand {refused : InvalidExpression}
    (rejected : expand bindings e = .error refused) :
    ∃ steps field n, FirstMisfit bindings e steps field n ∧
      refused = ⟨.root n.kind.tag, .misfit field n.kind⟩ := by
  induction e using induct generalizing refused with
  | step kind payload children ih =>
      rcases payload.placeholder_or with ⟨field, deferred, rfl⟩ | other
      · rw [expand] at rejected
        cases bound : bindings.get? field with
        | none =>
            rw [bound] at rejected
            cases rejected
        | some binding =>
            cases taken : binding.fill? kind with
            | some e => simp [bound, taken] at rejected
            | none =>
                simp only [bound, taken, Except.error.injEq] at rejected
                refine ⟨[], field, _, ⟨⟨outermost_placeholder, ?_⟩, ?_⟩, rejected.symm⟩
                · intro suit
                  exact Binding.fill_eq_none_iff.mp taken (suit binding bound)
                · intro before less
                  exact absurd less (List.not_lt_nil _)
      · rw [expand_of_field other, map_eq_error_iff] at rejected
        obtain ⟨index, c, child, refuses, fits⟩ := first_refused_of_expandAll rejected
        obtain ⟨steps, field, n, first, reported⟩ := ih c (List.mem_of_getElem? child) refuses
        refine ⟨index :: steps, field, n, ⟨⟨?_, first.misfit.unsuited⟩, ?_⟩, reported⟩
        · exact outermost_below_iff.mpr ⟨other, c, child, first.misfit.outermost⟩
        · intro before less field' n' misfit
          -- What is in front of the child that refuses is below children that were filled, and in
          -- these nothing is unsuited.
          obtain ⟨index', rest, b, rfl, there, outermost⟩ := misfit.outermost.below other
          rcases List.cons_lt_cons_iff.mp less with before_child | ⟨rfl, within⟩
          · obtain ⟨b', filled_child⟩ := fits index' before_child b there
            exact not_misfit_of_expand filled_child ⟨outermost, misfit.unsuited⟩
          · cases Option.some.inj (child.symm.trans there)
            exact first.earlier rest within field' n' ⟨outermost, misfit.unsuited⟩

/-- Expansion succeeds exactly if every placeholder that counts is free or bound to what suits it.
Then those that are bound are replaced and nothing else changes, which leaves one tree only. Else
the first one that is bound to what does not suit it is reported, by its field and its kind. -/
theorem expand_replaces_bound (bindings : Bindings) (e : Expression) :
    ((∃ filled, expand bindings e = .ok filled) ↔
      ∀ steps field n, Outermost e steps field n → bindings.Suit field n.kind) ∧
    (∀ filled, expand bindings e = .ok filled →
      Replaces bindings e filled ∧ ∀ other, Replaces bindings e other → other = filled) ∧
    ∀ refused, expand bindings e = .error refused →
      ∃ steps field n, FirstMisfit bindings e steps field n ∧
        refused = ⟨.root n.kind.tag, .misfit field n.kind⟩ := by
  refine ⟨⟨?_, ?_⟩, ?_, ?_⟩
  · intro some_tree steps field n outermost
    obtain ⟨filled, expanded⟩ := some_tree
    by_contra unsuited
    exact not_misfit_of_expand expanded ⟨outermost, unsuited⟩
  · intro suits
    cases outcome : expand bindings e with
    | ok filled => exact ⟨filled, rfl⟩
    | error refused =>
        obtain ⟨steps, field, n, first, -⟩ := firstMisfit_of_expand outcome
        exact absurd (suits steps field n first.misfit.outermost) first.misfit.unsuited
  · intro filled expanded
    have replaces := replaces_of_expand expanded
    exact ⟨replaces, fun other replaces' => replaces'.unique replaces⟩
  · intro refused rejected
    exact firstMisfit_of_expand rejected

/-- A bound placeholder goes with what is below it, and what is below a free one stays, bound or
not. Of two values that do not suit, the one in front is reported. -/
theorem expand_replaces_bound_hidden :
    let c : ConceptRef := ⟨⟨1⟩⟩
    let dose := placeholder .substitutionInteger "dose"
    let free := node .and (.placeholder "note" false) [dose]
    let e := connective .or [node .substitutionConcept (.placeholder "site" true) [free],
      feature c .equals dose, free]
    let bindings : Bindings := [("site", .concept c), ("dose", .literal (.integer 3))]
    let unsuited : Bindings := [("note", .concept c), ("dose", .literal (.boolean true))]
    let filled := connective .or [concept c, feature c .equals (literal (.integer 3)), free]
    expand bindings e = .ok filled ∧ Replaces bindings e filled ∧
      expand unsuited e =
        .error ⟨.root "substitution-integer", .misfit "dose" .substitutionInteger⟩ ∧
      ∃ steps n, FirstMisfit unsuited e steps "dose" n ∧ n.kind = .substitutionInteger := by
  intro c dose free e bindings unsuited filled
  have expanded : expand bindings e = .ok filled := rfl
  have rejected : expand unsuited e =
      .error ⟨.root "substitution-integer", .misfit "dose" .substitutionInteger⟩ := rfl
  obtain ⟨steps, field, n, first, reported⟩ :=
    (expand_replaces_bound unsuited e).2.2 _ rejected
  simp only [InvalidExpression.mk.injEq, Violation.misfit.injEq] at reported
  obtain ⟨-, rfl, kind⟩ := reported
  exact ⟨expanded, ((expand_replaces_bound bindings e).2.1 filled expanded).1, rejected,
    steps, n, first, kind.symm⟩

end Expression

end Terminology
