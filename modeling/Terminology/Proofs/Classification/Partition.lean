import Mathlib.Data.Finset.Card
import Terminology.Classification.Result
import Terminology.Proofs.Classification.Draft

/-!
Which findings make a classification, and what it holds of them. The check of the equivalent sets
goes through them once and keeps the owner of every member it has met; it lets pass exactly the
families of sets with two members or more of which no two meet.
-/

namespace Terminology

open Ordered

namespace Draft

variable {position : Nat} {owners owners' : List (ConceptSequence × Nat)}

theorem lookup_cons_eq_none_iff {c other : ConceptSequence} :
    ((c, position) :: owners).lookup other = none ↔ other ≠ c ∧ owners.lookup other = none := by
  rw [List.lookup_cons]
  by_cases same : other = c
  · simp [same]
  · have different : (other == c) = false := by simpa using same
    simp [different, same]

theorem lookup_members {set : ConceptSet} {other : ConceptSequence} :
    (set.map (·, position) ++ owners).lookup other =
      if other ∈ set then some position else owners.lookup other := by
  induction set with
  | nil => simp
  | cons c cs ih =>
      rw [List.map_cons, List.cons_append, List.lookup_cons, ih]
      by_cases same : other = c
      · simp [same]
      · have different : (other == c) = false := by simpa using same
        simp [different, same]

theorem lookup_append_eq_none_iff {set : ConceptSet} {other : ConceptSequence} :
    (set.map (·, position) ++ owners).lookup other = none ↔
      other ∉ set ∧ owners.lookup other = none := by
  rw [lookup_members]
  split
  · rename_i member
    simp [member]
  · rename_i outside
    simp [outside]

theorem claim_eq_ok_iff {set : ConceptSet} :
    claim position owners set = .ok owners' ↔
      set.Nodup ∧ (∀ c ∈ set, owners.lookup c = none) ∧
        owners' = set.reverse.map (·, position) ++ owners := by
  induction set generalizing owners with
  | nil =>
      simp only [claim, Except.ok.injEq, List.nodup_nil, List.not_mem_nil, false_implies, true_and,
        implies_true, List.reverse_nil, List.map_nil, List.nil_append]
      exact eq_comm
  | cons c cs ih =>
      rw [claim, List.nodup_cons, List.forall_mem_cons]
      cases owned : owners.lookup c with
      | some earlier => simp
      | none =>
          have fresh : (∀ other ∈ cs, ((c, position) :: owners).lookup other = none) ↔
              c ∉ cs ∧ ∀ other ∈ cs, owners.lookup other = none := by
            simp only [lookup_cons_eq_none_iff, forall_and, and_congr_left_iff]
            intro _
            constructor
            · intro apart member
              exact apart c member rfl
            · intro unused other member same
              exact unused (same ▸ member)
          simp only [ih, fresh, List.reverse_cons, List.map_append, List.map_cons, List.map_nil,
            List.append_assoc, List.singleton_append, true_and]
          tauto

/-- The sets pass if each has two members or more and all their members are different, and none of
them has an owner yet. -/
theorem checkFrom_eq_ok_iff {sets : List ConceptSet} :
    checkFrom position owners sets = .ok () ↔
      (∀ set ∈ sets, 2 ≤ set.length ∧ set.Nodup ∧ ∀ c ∈ set, owners.lookup c = none) ∧
        sets.Pairwise List.Disjoint := by
  induction sets generalizing position owners with
  | nil => simp [checkFrom]
  | cons set sets ih =>
      rw [checkFrom, List.forall_mem_cons, List.pairwise_cons]
      by_cases small : set.length < 2
      · simp [small, Nat.not_le.mpr small]
      · rw [if_neg small]
        cases claimed : claim position owners set with
        | error e =>
            have refused : ¬(set.Nodup ∧ ∀ c ∈ set, owners.lookup c = none) := by
              intro free
              rw [claim_eq_ok_iff.mpr ⟨free.1, free.2, rfl⟩] at claimed
              cases claimed
            simp only [reduceCtorEq, false_iff]
            intro both
            exact refused both.1.1.2
        | ok owned =>
            obtain ⟨nodup, free, rfl⟩ := claim_eq_ok_iff.mp claimed
            -- The sets that follow meet no earlier owner exactly if they meet neither this set nor
            -- an owner before it.
            simp only [ih, lookup_append_eq_none_iff, List.mem_reverse, nodup, Nat.not_lt.mp small,
              true_and]
            constructor
            · intro behind
              obtain ⟨each, apart⟩ := behind
              refine ⟨⟨free, fun other member => ?_⟩, fun other member => ?_, apart⟩
              · obtain ⟨large, distinct, unowned⟩ := each other member
                exact ⟨large, distinct, fun c inside => (unowned c inside).2⟩
              · intro c here there
                exact ((each other member).2.2 c there).1 here
            · intro all
              obtain ⟨⟨-, each⟩, first_apart, apart⟩ := all
              refine ⟨fun other member => ?_, apart⟩
              obtain ⟨large, distinct, unowned⟩ := each other member
              refine ⟨large, distinct, fun c inside => ⟨?_, unowned c inside⟩⟩
              intro here
              exact first_apart other member here inside

theorem build_eq_ok_iff {d : Draft} {c : Classification} :
    d.build = .ok c ↔ checkFrom 0 [] d.equivalentSets = .ok () ∧
      c = ⟨d.affected, Ordered.ofList ConceptSet.lt d.equivalentSets, d.orphans, d.cycles,
        d.commit⟩ := by
  rw [build]
  cases checkFrom 0 [] d.equivalentSets with
  | error e => simp
  | ok checked => simp [eq_comm]

theorem mem_set {x : ConceptSequence} {concepts : List ConceptSequence} :
    x ∈ ConceptSet.ofList concepts ↔ x ∈ concepts := mem_ofList ConceptSequence.strict_lt

theorem ascending_set (concepts : List ConceptSequence) :
    Ascending ConceptSequence.lt (ConceptSet.ofList concepts) :=
  ascending_ofList ConceptSequence.strict_lt concepts

theorem toFinset_set (concepts : List ConceptSequence) :
    (ConceptSet.ofList concepts).toFinset = concepts.toFinset := by
  ext x
  rw [List.mem_toFinset, List.mem_toFinset, mem_set]

theorem two_le_length_iff {concepts : List ConceptSequence} :
    2 ≤ (ConceptSet.ofList concepts).length ↔ ∃ a ∈ concepts, ∃ b ∈ concepts, a ≠ b := by
  have nodup := (ascending_set concepts).nodup ConceptSequence.strict_lt
  rw [← List.toFinset_card_of_nodup nodup, toFinset_set]
  have card := Finset.one_lt_card (s := concepts.toFinset)
  simp only [List.mem_toFinset] at card
  exact card

theorem disjoint_set_iff {a b : List ConceptSequence} :
    List.Disjoint (ConceptSet.ofList a) (ConceptSet.ofList b) ↔ List.Disjoint a b := by
  constructor
  · intro apart x here there
    exact apart (mem_set.mpr here) (mem_set.mpr there)
  · intro apart x here there
    exact apart (mem_set.mp here) (mem_set.mp there)

/-- The families of sets that pass: each has two different members, and no two meet. -/
def Separate (sets : List (List ConceptSequence)) : Prop :=
  (∀ set ∈ sets, ∃ a ∈ set, ∃ b ∈ set, a ≠ b) ∧ sets.Pairwise List.Disjoint

theorem checkFrom_eq_ok_iff_separate {sets : List (List ConceptSequence)} :
    checkFrom 0 [] (sets.map ConceptSet.ofList) = .ok () ↔ Separate sets := by
  rw [checkFrom_eq_ok_iff, List.forall_mem_map, List.pairwise_map, Separate]
  simp only [disjoint_set_iff, two_le_length_iff, List.lookup_nil, implies_true, and_true,
    (ascending_set _).nodup ConceptSequence.strict_lt]

theorem Separate.nodup {sets : List (List ConceptSequence)} (separate : Separate sets) :
    (sets.map ConceptSet.ofList).Nodup := by
  rw [List.Nodup, List.pairwise_map]
  apply separate.2.imp_of_mem
  intro a b member _ apart same
  obtain ⟨x, inside, -⟩ := separate.1 a member
  have there : x ∈ ConceptSet.ofList b := same ▸ mem_set.mpr inside
  exact apart inside (mem_set.mp there)

end Draft

namespace Classification

/-- The classification holds all that was found and nothing else. -/
structure Collects (c : Classification) (findings : List Finding) : Prop where
  affected : ∀ x, x ∈ c.affected ↔ ∃ concepts, .affected concepts ∈ findings ∧ x ∈ concepts
  orphans : ∀ x, x ∈ c.orphans ↔ ∃ concepts, .orphans concepts ∈ findings ∧ x ∈ concepts
  equivalentSets :
    (c.equivalentSets.map List.toFinset).Perm ((addedSets findings).map List.toFinset)
  cycles : ∀ concept cycle, (∃ set, (concept, set) ∈ c.cycles ∧ cycle ∈ set) ↔
    .cycle concept cycle ∈ findings
  no_empty_cycles : ∀ entry ∈ c.cycles, entry.2 ≠ []
  commit : c.commit = (findings.filterMap Finding.commit?).getLast?

/-- Its lists stand for sets and maps: they are in ascending order, without repetitions. -/
structure Canonical (c : Classification) : Prop where
  affected : Ascending ConceptSequence.lt c.affected
  orphans : Ascending ConceptSequence.lt c.orphans
  members : ∀ set ∈ c.equivalentSets, Ascending ConceptSequence.lt set
  equivalentSets : Ascending ConceptSet.lt c.equivalentSets
  concepts : Ascending ConceptSequence.lt (c.cycles.map Prod.fst)
  cycles : ∀ entry ∈ c.cycles, Ascending ConceptSet.lt entry.2

variable {findings : List Finding} {c : Classification}

theorem build_ofFindings_eq_ok_iff :
    (Draft.ofFindings findings).build = .ok c ↔ Draft.Separate (addedSets findings) ∧
      c = ⟨(Draft.ofFindings findings).affected,
        Ordered.ofList ConceptSet.lt ((addedSets findings).map ConceptSet.ofList),
        (Draft.ofFindings findings).orphans, (Draft.ofFindings findings).cycles,
        (Draft.ofFindings findings).commit⟩ := by
  rw [Draft.build_eq_ok_iff, Draft.equivalentSets_ofFindings, Draft.checkFrom_eq_ok_iff_separate]

theorem collects_of_build (built : (Draft.ofFindings findings).build = .ok c) :
    c.Collects findings := by
  obtain ⟨separate, rfl⟩ := build_ofFindings_eq_ok_iff.mp built
  have lists := Draft.lists_cycles findings
  refine ⟨?_, ?_, ?_, ?_, ?_, Draft.commit_ofFindings findings⟩
  · intro x
    exact Draft.gathers_affected.mem_iff
  · intro x
    exact Draft.gathers_orphans.mem_iff
  · have members : ((addedSets findings).map ConceptSet.ofList).map List.toFinset =
        (addedSets findings).map List.toFinset := by
      rw [List.map_map]
      exact List.map_congr_left fun set _ => Draft.toFinset_set set
    rw [← members]
    exact (perm_ofList ConceptSet.strict_lt separate.nodup).map List.toFinset
  · intro concept cycle
    rw [← Draft.mem_cycles_iff findings]
    constructor
    · intro present
      obtain ⟨set, entry, inside⟩ := present
      exact ((lists.entries concept set entry).2.2 cycle).mp inside
    · intro recorded
      obtain ⟨set, entry⟩ := lists.known concept cycle recorded
      exact ⟨set, entry, ((lists.entries concept set entry).2.2 cycle).mpr recorded⟩
  · intro entry member
    exact (lists.entries entry.1 entry.2 member).1

theorem canonical_of_build (built : (Draft.ofFindings findings).build = .ok c) :
    c.Canonical := by
  obtain ⟨separate, rfl⟩ := build_ofFindings_eq_ok_iff.mp built
  have lists := Draft.lists_cycles findings
  refine ⟨Draft.gathers_affected.ascending findings, Draft.gathers_orphans.ascending findings,
    ?_, ?_, lists.ascending, ?_⟩
  · intro set member
    obtain ⟨concepts, -, rfl⟩ :=
      List.mem_map.mp ((mem_ofList ConceptSet.strict_lt).mp member)
    exact Draft.ascending_set concepts
  · exact ascending_ofList ConceptSet.strict_lt _
  · intro entry member
    exact (lists.entries entry.1 entry.2 member).2.1

/-- Findings make a classification exactly if each of their equivalent sets has two different
members and no two of them meet, and it holds exactly these findings. -/
theorem build_iff_separate (findings : List Finding) :
    ((∃ c, (Draft.ofFindings findings).build = .ok c) ↔
        (∀ set ∈ addedSets findings, ∃ a ∈ set, ∃ b ∈ set, a ≠ b) ∧
          (addedSets findings).Pairwise List.Disjoint) ∧
      (∀ c, (Draft.ofFindings findings).build = .ok c → c.Collects findings ∧ c.Canonical) ∧
        ∀ affected sets commit, new affected sets commit = (Draft.ofFindings
          (.affected affected :: sets.map .equivalentSet ++ commit.toList.map .commit)).build := by
  refine ⟨?_, ?_, fun _ _ _ => rfl⟩
  · constructor
    · intro built
      obtain ⟨c, built⟩ := built
      exact (build_ofFindings_eq_ok_iff.mp built).1
    · intro separate
      exact ⟨_, build_ofFindings_eq_ok_iff.mpr ⟨separate, rfl⟩⟩
  · intro c built
    exact ⟨collects_of_build built, canonical_of_build built⟩

/-- Two sets that do not meet, the second one added in another order and with repetitions, a cycle
recorded twice, and two commits. -/
theorem build_iff_separate_twice :
    let findings : List Finding := [.commit ⟨"first"⟩, .affected [⟨2⟩, ⟨1⟩], .affected [⟨2⟩],
      .equivalentSet [⟨1⟩, ⟨2⟩], .cycle ⟨4⟩ [⟨4⟩, ⟨3⟩], .cycle ⟨4⟩ [⟨4⟩, ⟨3⟩],
      .equivalentSet [⟨4⟩, ⟨3⟩, ⟨4⟩], .commit ⟨"second"⟩]
    ∃ c, (Draft.ofFindings findings).build = .ok c ∧ c.Collects findings ∧ c.Canonical ∧
      c.equivalentSets = [[⟨1⟩, ⟨2⟩], [⟨3⟩, ⟨4⟩]] ∧ c.commit = some ⟨"second"⟩ := by
  intro findings
  have built : (Draft.ofFindings findings).build = .ok ⟨[⟨1⟩, ⟨2⟩], [[⟨1⟩, ⟨2⟩], [⟨3⟩, ⟨4⟩]], [],
      [(⟨4⟩, [[⟨4⟩, ⟨3⟩]])], some ⟨"second"⟩⟩ := rfl
  obtain ⟨collects, canonical⟩ := (build_iff_separate findings).2.1 _ built
  exact ⟨_, built, collects, canonical, rfl, rfl⟩

end Classification

end Terminology
