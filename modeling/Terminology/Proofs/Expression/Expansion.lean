import Terminology.Expression.Expansion
import Terminology.Proofs.Expression.Legal

/-!
What filling placeholders leaves to be done. A tree whose placeholders stand where they may is
legal once it is expanded exactly if all that was pending in it was bound, and it keeps its size.
-/

namespace Terminology

def Payload.field? : Payload → Option String
  | .placeholder field _ => some field
  | _ => none

theorem Payload.placeholder_or (p : Payload) :
    (∃ field deferred, p = .placeholder field deferred) ∨ p.field? = none := by
  cases p with
  | placeholder field deferred => exact .inl ⟨field, deferred, rfl⟩
  | _ => exact .inr rfl

namespace Expression

variable {bindings : Bindings} {kind : Kind} {payload : Payload} {children : List Expression}

mutual

/-- The nodes of a tree in document order, each with all that is below it. -/
def nodes : Expression → List Expression
  | node kind payload children => node kind payload children :: nodesAll children

def nodesAll : List Expression → List Expression
  | [] => []
  | e :: es => nodes e ++ nodesAll es

end

mutual

theorem Legal.of_mem_nodes {e n : Expression} (legal : e.Legal) (member : n ∈ e.nodes) :
    n.Legal := by
  obtain ⟨kind, payload, children⟩ := e
  rw [nodes, List.mem_cons] at member
  rcases member with rfl | below
  · exact legal
  · exact legal_of_mem_nodesAll (legal_node_iff.mp legal).2 below

theorem legal_of_mem_nodesAll {es : List Expression} {n : Expression}
    (legal : ∀ e ∈ es, e.Legal) (member : n ∈ nodesAll es) : n.Legal := by
  cases es with
  | nil => cases member
  | cons e es =>
      obtain ⟨first, others⟩ := List.forall_mem_cons.mp legal
      rw [nodesAll, List.mem_append] at member
      rcases member with here | behind
      · exact first.of_mem_nodes here
      · exact legal_of_mem_nodesAll others behind

end

mutual

/-- The tree with every placeholder in it left open on purpose. -/
def deferAll : Expression → Expression
  | node kind payload children => (node kind payload (deferEach children)).deferred

def deferEach : List Expression → List Expression
  | [] => []
  | e :: es => deferAll e :: deferEach es

end

theorem deferred_of_field (other : payload.field? = none) :
    (node kind payload children).deferred = node kind payload children := by
  cases payload with
  | placeholder field deferred => cases other
  | _ => rfl

theorem deferAll_of_field (other : payload.field? = none) :
    (node kind payload children).deferAll = node kind payload (deferEach children) := by
  rw [deferAll, deferred_of_field other]

theorem kind_deferAll (e : Expression) : e.deferAll.kind = e.kind := by
  obtain ⟨kind, payload, children⟩ := e
  rcases payload.placeholder_or with ⟨field, deferred, rfl⟩ | other
  · rfl
  · rw [deferAll_of_field other]
    rfl

theorem deferEach_eq_nil_iff {es : List Expression} : deferEach es = [] ↔ es = [] := by
  cases es <;> simp [deferEach]

theorem legal_placeholder_iff {field : String} {deferred : Bool} :
    (node kind (.placeholder field deferred) children).Legal ↔
      (node kind (.placeholder field true) children).Legal ∧ deferred = true := by
  constructor
  · intro legal
    cases legal with
    | placeholder substitution filled chars =>
        exact ⟨.placeholder substitution filled chars, rfl⟩
  · intro both
    rw [both.2]
    exact both.1

mutual

theorem Legal.deferAll_eq {e : Expression} (legal : e.Legal) : e.deferAll = e := by
  obtain ⟨kind, payload, children⟩ := e
  have below := deferEach_eq (legal_node_iff.mp legal).2
  rcases payload.placeholder_or with ⟨field, deferred, rfl⟩ | other
  · rw [deferAll, below, (legal_placeholder_iff.mp legal).2]
    rfl
  · rw [deferAll_of_field other, below]

theorem deferEach_eq {es : List Expression} (legal : ∀ e ∈ es, e.Legal) : deferEach es = es := by
  cases es with
  | nil => rfl
  | cons e es =>
      obtain ⟨first, others⟩ := List.forall_mem_cons.mp legal
      rw [deferEach, first.deferAll_eq, deferEach_eq others]

end

theorem expand_of_field (other : payload.field? = none) :
    expand bindings (node kind payload children) =
      (expandAll bindings children).map (node kind payload) := by
  cases payload with
  | placeholder field deferred => cases other
  | _ => rfl

theorem expand_node_eq_ok_iff (other : payload.field? = none) {e : Expression} :
    expand bindings (node kind payload children) = .ok e ↔
      ∃ es, expandAll bindings children = .ok es ∧ e = node kind payload es := by
  rw [expand_of_field other]
  cases expandAll bindings children with
  | error refused => simp [Except.map]
  | ok es => simp [Except.map, eq_comm]

theorem expand_placeholder_eq_ok_iff {field : String} {deferred : Bool} {e : Expression} :
    expand bindings (node kind (.placeholder field deferred) children) = .ok e ↔
      (bindings.get? field = none ∧ e = node kind (.placeholder field deferred) children) ∨
        ∃ binding, bindings.get? field = some binding ∧ binding.fill? kind = some e := by
  rw [expand]
  cases bindings.get? field with
  | none => simp [eq_comm]
  | some binding => cases filled : binding.fill? kind <;> simp [filled]

theorem expandAll_cons_eq_ok_iff {e : Expression} {es filled : List Expression} :
    expandAll bindings (e :: es) = .ok filled ↔
      ∃ first others, expand bindings e = .ok first ∧ expandAll bindings es = .ok others ∧
        filled = first :: others := by
  rw [expandAll]
  cases expand bindings e with
  | error refused => simp
  | ok first =>
      cases expandAll bindings es with
      | error refused => simp [Except.map]
      | ok others => simp [Except.map, eq_comm]

/-- What takes the place of a placeholder is a single node, of a value exactly if the placeholder
stood for a value. -/
theorem fill_cases {binding : Binding} {e : Expression} (filled : binding.fill? kind = some e) :
    (∃ c, binding = .concept c ∧ e = .concept c ∧ kind = .substitutionConcept) ∨
      ∃ value, binding = .literal value ∧ e = .literal value ∧ value.placeholderKind = kind := by
  cases binding with
  | concept c =>
      rw [Binding.fill?, Option.ite_none_right_eq_some] at filled
      exact .inl ⟨c, rfl, (Option.some.inj filled.2).symm, filled.1⟩
  | literal value =>
      rw [Binding.fill?, Option.ite_none_right_eq_some] at filled
      exact .inr ⟨value, rfl, (Option.some.inj filled.2).symm, filled.1⟩

theorem carriesValue_expand {e filled : Expression} (expanded : expand bindings e = .ok filled) :
    filled.kind.carriesValue = e.kind.carriesValue := by
  obtain ⟨kind, payload, children⟩ := e
  rcases payload.placeholder_or with ⟨field, deferred, rfl⟩ | other
  · rcases expand_placeholder_eq_ok_iff.mp expanded with ⟨-, rfl⟩ | ⟨binding, -, taken⟩
    · rfl
    · rcases fill_cases taken with ⟨c, -, rfl, rfl⟩ | ⟨value, -, rfl, rfl⟩
      · rfl
      · cases value <;> rfl
  · obtain ⟨es, -, rfl⟩ := (expand_node_eq_ok_iff other).mp expanded
    rfl

/-- All that the rules of a node's own level see of the nodes below it. -/
def carriers (es : List Expression) : List Bool := es.map fun e => e.kind.carriesValue

theorem carriers_deferEach (es : List Expression) : carriers (deferEach es) = carriers es := by
  induction es with
  | nil => rfl
  | cons e es ih =>
      rw [carriers] at ih ⊢
      rw [deferEach, List.map_cons, ih, kind_deferAll]
      rfl

theorem carriers_expandAll {es filled : List Expression}
    (expanded : expandAll bindings es = .ok filled) : carriers filled = carriers es := by
  induction es generalizing filled with
  | nil =>
      cases expanded
      rfl
  | cons e es ih =>
      obtain ⟨first, others, here, behind, rfl⟩ := expandAll_cons_eq_ok_iff.mp expanded
      calc
        carriers (first :: others) = first.kind.carriesValue :: carriers others := rfl
        _ = e.kind.carriesValue :: carriers es := by rw [carriesValue_expand here, ih behind]

theorem violation_eq_none_congr {es es' : List Expression} (same : carriers es = carriers es') :
    violation? kind payload es = none ↔ violation? kind payload es' = none := by
  have lengths : es.length = es'.length := by
    have mapped := congrArg List.length same
    simpa [carriers] using mapped
  have count (expected : Nat) :
      countViolation? kind expected es = none ↔ countViolation? kind expected es' = none := by
    rw [count_eq_none_iff, count_eq_none_iff, lengths]
  have feature : featureViolation? es = none ↔ featureViolation? es' = none := by
    cases es with
    | nil =>
        cases List.eq_nil_of_length_eq_zero lengths.symm
        rfl
    | cons e es =>
        cases es' with
        | nil => cases lengths
        | cons e' es' =>
            have heads := (List.cons.inj same).1
            simp [featureViolation?, heads]
  have empty : es = [] ↔ es' = [] := by
    rw [← List.length_eq_zero_iff, ← List.length_eq_zero_iff, lengths]
  cases category : kind.category <;> cases payload <;> simp only [violation?, category]
  case setOperator.empty => simp [empty]
  case relational.concept | relational.role | substitution.template =>
    rw [foreign_of_kind, foreign_of_kind, count]
  case relational.feature =>
    rw [foreign_of_kind, foreign_of_kind, Option.orElse_eq_none, Option.orElse_eq_none, count,
      feature]
  case literal.literal =>
    rw [Option.orElse_eq_none, Option.orElse_eq_none, count]
  case substitution.placeholder =>
    rw [foreign_of_kind, foreign_of_kind, Option.orElse_eq_none, Option.orElse_eq_none, count]

/-- Among the nodes, every placeholder that is not left open has a field that is bound. -/
def Settled (bindings : Bindings) (ns : List Expression) : Prop :=
  ∀ n ∈ ns, ∀ field, n.payload = .placeholder field false →
    ∃ binding, bindings.get? field = some binding

theorem settled_append {ns others : List Expression} :
    Settled bindings (ns ++ others) ↔ Settled bindings ns ∧ Settled bindings others :=
  List.forall_mem_append

theorem settled_of_field (other : payload.field? = none) :
    Settled bindings (node kind payload children).nodes ↔
      Settled bindings (nodesAll children) := by
  rw [nodes, Settled, List.forall_mem_cons]
  constructor
  · intro both
    exact both.2
  · intro below
    refine ⟨?_, below⟩
    intro field pending
    rw [Expression.payload] at pending
    rw [pending] at other
    cases other

theorem Legal.settled {e : Expression} (legal : e.Legal) : Settled bindings e.nodes := by
  intro n member field pending
  have alone := legal.of_mem_nodes member
  obtain ⟨kind, payload, children⟩ := n
  rw [Expression.payload] at pending
  rw [pending] at alone
  cases (legal_placeholder_iff.mp alone).2

theorem childless_of_deferAll {field : String} {deferred : Bool}
    (writable : (node kind (.placeholder field deferred) children).deferAll.Legal) :
    children = [] ∧ (node kind (.placeholder field true) []).Legal := by
  have shape : (node kind (.placeholder field deferred) children).deferAll =
      node kind (.placeholder field true) (deferEach children) := rfl
  rw [shape] at writable
  generalize below : deferEach children = es at writable
  cases writable with
  | placeholder substitution filled chars =>
      exact ⟨deferEach_eq_nil_iff.mp below, .placeholder substitution filled chars⟩

theorem legal_placeholder_expand_iff {field : String} {deferred : Bool} {filled : Expression}
    (writable : (node kind (.placeholder field true) []).Legal)
    (values : ∀ field value, bindings.get? field = some (.literal value) → (literal value).Legal)
    (expanded : expand bindings (node kind (.placeholder field deferred) []) = .ok filled) :
    filled.Legal ↔ Settled bindings (node kind (.placeholder field deferred) []).nodes := by
  have alone : Settled bindings (node kind (.placeholder field deferred) []).nodes ↔
      (deferred = false → ∃ binding, bindings.get? field = some binding) := by
    simp [Settled, nodes, nodesAll, Expression.payload]
  rw [alone]
  rcases expand_placeholder_eq_ok_iff.mp expanded with ⟨free, rfl⟩ | ⟨binding, bound, taken⟩
  · rw [legal_placeholder_iff, free]
    simp [writable]
  · have legal : filled.Legal := by
      rcases fill_cases taken with ⟨c, -, rfl, -⟩ | ⟨value, rfl, rfl, -⟩
      · exact .concept c
      · exact values field value bound
    simp [legal, bound]

mutual

theorem legal_expand_iff {e filled : Expression} (writable : e.deferAll.Legal)
    (values : ∀ field value, bindings.get? field = some (.literal value) → (literal value).Legal)
    (expanded : expand bindings e = .ok filled) :
    filled.Legal ↔ Settled bindings e.nodes := by
  obtain ⟨kind, payload, children⟩ := e
  rcases payload.placeholder_or with ⟨field, deferred, rfl⟩ | other
  · obtain ⟨rfl, alone⟩ := childless_of_deferAll writable
    exact legal_placeholder_expand_iff alone values expanded
  · obtain ⟨es, below, rfl⟩ := (expand_node_eq_ok_iff other).mp expanded
    rw [deferAll_of_field other, legal_node_iff] at writable
    -- Neither deferring nor expanding changes what the node's own rules see.
    have own : violation? kind payload es = none := by
      rw [← violation_eq_none_congr ((carriers_deferEach children).trans
        (carriers_expandAll below).symm)]
      exact writable.1
    rw [legal_node_iff, settled_of_field other,
      ← legal_expandAll_iff writable.2 values below]
    exact and_iff_right own

theorem legal_expandAll_iff {es filled : List Expression}
    (writable : ∀ e ∈ deferEach es, e.Legal)
    (values : ∀ field value, bindings.get? field = some (.literal value) → (literal value).Legal)
    (expanded : expandAll bindings es = .ok filled) :
    (∀ e ∈ filled, e.Legal) ↔ Settled bindings (nodesAll es) := by
  cases es with
  | nil =>
      cases expanded
      simp [Settled, nodesAll]
  | cons e es =>
      obtain ⟨first, others, here, behind, rfl⟩ := expandAll_cons_eq_ok_iff.mp expanded
      obtain ⟨writable_first, writable_others⟩ := List.forall_mem_cons.mp writable
      rw [List.forall_mem_cons, nodesAll, settled_append,
        legal_expand_iff writable_first values here,
        legal_expandAll_iff writable_others values behind]

end

mutual

theorem size_expand {e filled : Expression} (writable : e.deferAll.Legal)
    (expanded : expand bindings e = .ok filled) :
    filled.nodeCount = e.nodeCount ∧ filled.depth = e.depth := by
  obtain ⟨kind, payload, children⟩ := e
  rcases payload.placeholder_or with ⟨field, deferred, rfl⟩ | other
  · obtain ⟨rfl, -⟩ := childless_of_deferAll writable
    rcases expand_placeholder_eq_ok_iff.mp expanded with ⟨-, rfl⟩ | ⟨binding, -, taken⟩
    · exact ⟨rfl, rfl⟩
    · rcases fill_cases taken with ⟨c, -, rfl, -⟩ | ⟨value, -, rfl, -⟩
      · exact ⟨rfl, rfl⟩
      · exact ⟨rfl, rfl⟩
  · obtain ⟨es, below, rfl⟩ := (expand_node_eq_ok_iff other).mp expanded
    rw [deferAll_of_field other, legal_node_iff] at writable
    obtain ⟨count, levels⟩ := size_expandAll writable.2 below
    constructor
    · rw [nodeCount, nodeCount, count]
    · rw [depth, depth, levels]

theorem size_expandAll {es filled : List Expression} (writable : ∀ e ∈ deferEach es, e.Legal)
    (expanded : expandAll bindings es = .ok filled) :
    nodeCountAll filled = nodeCountAll es ∧ depthAll filled = depthAll es := by
  cases es with
  | nil =>
      cases expanded
      exact ⟨rfl, rfl⟩
  | cons e es =>
      obtain ⟨first, others, here, behind, rfl⟩ := expandAll_cons_eq_ok_iff.mp expanded
      obtain ⟨writable_first, writable_others⟩ := List.forall_mem_cons.mp writable
      obtain ⟨count, levels⟩ := size_expand writable_first here
      obtain ⟨counts, depths⟩ := size_expandAll writable_others behind
      constructor
      · rw [nodeCountAll, nodeCountAll, count, counts]
      · rw [depthAll, depthAll, levels, depths]

end

/-- A tree that could be written if its placeholders were left open can be written once it is
expanded exactly if everything pending was bound, and it keeps its size. A valid tree stays
valid. -/
theorem validate_expand_iff {e filled : Expression}
    (values : ∀ field value, bindings.get? field = some (.literal value) →
      (literal value).validate = .ok ())
    (expanded : expand bindings e = .ok filled) :
    (e.deferAll.validate = .ok () →
      (filled.validate = .ok () ↔ Settled bindings e.nodes) ∧
        filled.nodeCount = e.nodeCount ∧ filled.depth = e.depth) ∧
      (e.validate = .ok () → filled.validate = .ok ()) := by
  have checked (e : Expression) : e.validate = .ok () ↔ e.Legal := validateAt_eq_ok_iff _ e
  simp only [checked] at values ⊢
  constructor
  · intro writable
    exact ⟨legal_expand_iff writable values expanded, size_expand writable expanded⟩
  · intro legal
    have writable : e.deferAll.Legal := by
      rw [legal.deferAll_eq]
      exact legal
    exact (legal_expand_iff writable values expanded).mpr legal.settled

/-- A bound value below a feature, a bound concept below a role, and a field that is open on
purpose beside one that is pending. -/
theorem validate_expand_iff_mixed :
    let f : ConceptRef := ⟨⟨1⟩⟩
    let open_field := (placeholder .substitutionString "note").deferred
    let pending := placeholder .substitutionFloat "weight"
    let bindings : Bindings := [("limit", .literal (.integer 3)), ("range", .concept f)]
    let e := connective .and [feature f .lessThan (placeholder .substitutionInteger "limit"),
      roleSome f (placeholder .substitutionConcept "range"), open_field, pending]
    let filled := connective .and [feature f .lessThan (literal (.integer 3)),
      roleSome f (concept f), open_field, pending]
    expand bindings e = .ok filled ∧ e.deferAll.validate = .ok () ∧
      (filled.validate = .ok () ↔ Settled bindings e.nodes) ∧
        filled.nodeCount = e.nodeCount ∧ filled.depth = e.depth := by
  intro f open_field pending bindings e filled
  have values : ∀ field value, bindings.get? field = some (.literal value) →
      (literal value).validate = .ok () := by
    intro field value bound
    rw [Bindings.get?, List.lookup_cons] at bound
    split at bound
    · cases bound
      rfl
    · rw [List.lookup_cons] at bound
      split at bound
      · cases bound
      · cases bound
  have expanded : expand bindings e = .ok filled := rfl
  have writable : e.deferAll.validate = .ok () := rfl
  exact ⟨expanded, writable, (validate_expand_iff values expanded).1 writable⟩

end Expression

end Terminology
