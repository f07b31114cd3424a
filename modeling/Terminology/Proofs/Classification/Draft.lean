import Terminology.Classification.Draft
import Terminology.Proofs.Ordered

/-!
What a draft holds of the findings it was made of. Each part of it depends only on the findings
of its own sort, in the order in which they were added.
-/

namespace Terminology

open Ordered

theorem ConceptSequence.strict_lt : Strict ConceptSequence.lt where
  irrefl := by
    intro c
    simp [ConceptSequence.lt]
  trans := by
    intro a b c first second
    rw [ConceptSequence.lt, decide_eq_true_eq] at first second ⊢
    exact UInt32.lt_trans first second
  connected := by
    intro a b first second
    rw [ConceptSequence.lt, decide_eq_false_iff_not, UInt32.not_lt] at first second
    have same : a.value = b.value := UInt32.le_antisymm second first
    cases a
    cases b
    cases same
    rfl

theorem ConceptSet.strict_lt : Strict ConceptSet.lt := ConceptSequence.strict_lt.listLt

namespace Finding

def equivalentSet? : Finding → Option (List ConceptSequence)
  | .equivalentSet concepts => some concepts
  | _ => none

def cycle? : Finding → Option (ConceptSequence × List ConceptSequence)
  | .cycle concept path => some (concept, path)
  | _ => none

def commit? : Finding → Option Commit
  | .commit record => some record
  | _ => none

end Finding

/-- The equivalent sets among the findings, in the order in which they were added. -/
def addedSets (findings : List Finding) : List (List ConceptSequence) :=
  findings.filterMap Finding.equivalentSet?

theorem addedSets_new (affected : List ConceptSequence) (sets : List (List ConceptSequence))
    (commit : Option Commit) :
    addedSets (.affected affected :: sets.map .equivalentSet ++ commit.toList.map .commit) =
      sets := by
  have own : (sets.map Finding.equivalentSet).filterMap Finding.equivalentSet? = sets := by
    rw [List.filterMap_map]
    exact List.filterMap_some
  have none_behind : (commit.toList.map Finding.commit).filterMap Finding.equivalentSet? = [] := by
    cases commit <;> rfl
  rw [addedSets, List.cons_append, List.filterMap_cons_none rfl, List.filterMap_append, own,
    none_behind, List.append_nil]

namespace Draft

/-- A part of a draft that collects the concepts of one sort of findings. -/
structure Gathers (part : Draft → ConceptSet) (sort : List ConceptSequence → Finding) : Prop where
  nothing : part empty = []
  own : ∀ d concepts, part (d.add (sort concepts)) = (part d).union concepts
  other : ∀ d f, (∀ concepts, f ≠ sort concepts) → part (d.add f) = part d
  injective : ∀ {concepts concepts'}, sort concepts = sort concepts' → concepts = concepts'

theorem gathers_affected : Gathers affected .affected where
  nothing := rfl
  own _ _ := rfl
  other d f different := by
    cases f with
    | affected concepts => exact absurd rfl (different concepts)
    | _ => rfl
  injective := Finding.affected.inj

theorem gathers_orphans : Gathers orphans .orphans where
  nothing := rfl
  own _ _ := rfl
  other d f different := by
    cases f with
    | orphans concepts => exact absurd rfl (different concepts)
    | _ => rfl
  injective := Finding.orphans.inj

section

variable {part : Draft → ConceptSet} {sort : List ConceptSequence → Finding}

theorem Gathers.mem_foldl (gathers : Gathers part sort) {d : Draft} {findings : List Finding}
    {x : ConceptSequence} : x ∈ part (findings.foldl add d) ↔
      x ∈ part d ∨ ∃ concepts, sort concepts ∈ findings ∧ x ∈ concepts := by
  induction findings generalizing d with
  | nil => simp
  | cons f fs ih =>
      rw [List.foldl_cons, ih]
      by_cases own : ∃ concepts, f = sort concepts
      · obtain ⟨concepts, rfl⟩ := own
        have same (concepts' : List ConceptSequence) :
            sort concepts' = sort concepts ↔ concepts' = concepts :=
          ⟨gathers.injective, congrArg sort⟩
        rw [gathers.own, ConceptSet.union, mem_insertAll ConceptSequence.strict_lt, or_assoc]
        simp only [List.mem_cons, same, or_and_right, exists_or, exists_eq_left]
      · have different (concepts : List ConceptSequence) : sort concepts ≠ f := by
          intro same
          exact own ⟨concepts, same.symm⟩
        rw [gathers.other d f fun concepts => (different concepts).symm]
        simp only [List.mem_cons, different, false_or]

theorem Gathers.ascending_foldl (gathers : Gathers part sort) {d : Draft}
    (findings : List Finding) (ascending : Ascending ConceptSequence.lt (part d)) :
    Ascending ConceptSequence.lt (part (findings.foldl add d)) := by
  induction findings generalizing d with
  | nil => exact ascending
  | cons f fs ih =>
      apply ih
      by_cases own : ∃ concepts, f = sort concepts
      · obtain ⟨concepts, rfl⟩ := own
        rw [gathers.own]
        exact ascending_insertAll ConceptSequence.strict_lt concepts ascending
      · rw [gathers.other d f fun concepts same => own ⟨concepts, same⟩]
        exact ascending

theorem Gathers.mem_iff (gathers : Gathers part sort) {findings : List Finding}
    {x : ConceptSequence} : x ∈ part (ofFindings findings) ↔
      ∃ concepts, sort concepts ∈ findings ∧ x ∈ concepts := by
  rw [ofFindings, gathers.mem_foldl, gathers.nothing]
  simp

theorem Gathers.ascending (gathers : Gathers part sort) (findings : List Finding) :
    Ascending ConceptSequence.lt (part (ofFindings findings)) := by
  apply gathers.ascending_foldl
  rw [gathers.nothing]
  exact .nil

end

theorem foldl_equivalentSets (d : Draft) (findings : List Finding) :
    (findings.foldl add d).equivalentSets =
      d.equivalentSets ++ (addedSets findings).map ConceptSet.ofList := by
  induction findings generalizing d with
  | nil => simp [addedSets]
  | cons f fs ih =>
      rw [List.foldl_cons, ih]
      cases f <;> simp [add, addedSets, Finding.equivalentSet?, List.filterMap_cons]

theorem foldl_cycles (d : Draft) (findings : List Finding) :
    (findings.foldl add d).cycles =
      (findings.filterMap Finding.cycle?).foldl (fun cycles c => cycles.add c.1 c.2) d.cycles := by
  induction findings generalizing d with
  | nil => rfl
  | cons f fs ih =>
      rw [List.foldl_cons, ih]
      cases f <;> rfl

theorem foldl_commit (d : Draft) (findings : List Finding) :
    (findings.foldl add d).commit = (findings.filterMap Finding.commit?).getLast?.or d.commit := by
  induction findings generalizing d with
  | nil => rfl
  | cons f fs ih =>
      rw [List.foldl_cons, ih]
      cases f with
      | commit record =>
          have first : (Finding.commit record :: fs).filterMap Finding.commit? =
              record :: fs.filterMap Finding.commit? := rfl
          rw [first, List.getLast?_cons]
          cases (fs.filterMap Finding.commit?).getLast? <;> rfl
      | _ => rfl

end Draft

/-- The map has each concept that a cycle was recorded for, with exactly its cycles. -/
structure Cycles.Lists (cycles : Cycles)
    (recorded : List (ConceptSequence × List ConceptSequence)) : Prop where
  ascending : Ascending ConceptSequence.lt (cycles.map Prod.fst)
  entries : ∀ concept set, (concept, set) ∈ cycles → set ≠ [] ∧ Ascending ConceptSet.lt set ∧
    ∀ cycle, cycle ∈ set ↔ (concept, cycle) ∈ recorded
  known : ∀ concept cycle, (concept, cycle) ∈ recorded → ∃ set, (concept, set) ∈ cycles

namespace Cycles

variable {cycles : Cycles} {recorded : List (ConceptSequence × List ConceptSequence)}

theorem Lists.absent (lists : cycles.Lists recorded) {concept : ConceptSequence}
    (absent : ∀ set, (concept, set) ∉ cycles) (cycle : List ConceptSequence) :
    (concept, cycle) ∉ recorded := by
  intro member
  obtain ⟨set, entry⟩ := lists.known concept cycle member
  exact absent set entry

theorem Lists.add (lists : cycles.Lists recorded) (concept : ConceptSequence)
    (cycle : List ConceptSequence) :
    (cycles.add concept cycle).Lists (recorded ++ [(concept, cycle)]) where
  ascending := by
    rw [Cycles.add, keys_alter]
    exact ascending_insert ConceptSequence.strict_lt lists.ascending
  entries := by
    intro other set entry
    by_cases same : other = concept
    · subst same
      rcases (mem_alter_self ConceptSequence.strict_lt lists.ascending).mp entry with
        ⟨old, known, rfl⟩ | ⟨absent, rfl⟩
      · obtain ⟨-, ascending, members⟩ := lists.entries other old known
        refine ⟨?_, ascending_insert ConceptSet.strict_lt ascending, ?_⟩
        · apply List.ne_nil_of_mem
          exact (mem_insert ConceptSet.strict_lt).mpr (.inl rfl)
        · intro path
          rw [Option.getD_some, mem_insert ConceptSet.strict_lt, members, List.mem_append, or_comm]
          simp
      · refine ⟨nofun, List.pairwise_singleton _ _, ?_⟩
        intro path
        simp [Ordered.insert, lists.absent absent]
    · have before := (mem_alter_of_ne ConceptSequence.strict_lt same).mp entry
      obtain ⟨filled, ascending, members⟩ := lists.entries other set before
      refine ⟨filled, ascending, ?_⟩
      intro path
      rw [members, List.mem_append]
      simp [same]
  known := by
    intro other path member
    by_cases same : other = concept
    · subst same
      have key : other ∈ (cycles.add other cycle).map Prod.fst := by
        rw [Cycles.add, keys_alter]
        exact (mem_insert ConceptSequence.strict_lt).mpr (.inl rfl)
      obtain ⟨⟨_, set⟩, entry, rfl⟩ := List.mem_map.mp key
      exact ⟨set, entry⟩
    · have earlier : (other, path) ∈ recorded := by simpa [same] using member
      obtain ⟨set, entry⟩ := lists.known other path earlier
      exact ⟨set, (mem_alter_of_ne ConceptSequence.strict_lt same).mpr entry⟩

theorem Lists.foldl (lists : cycles.Lists recorded)
    (more : List (ConceptSequence × List ConceptSequence)) :
    Lists (more.foldl (fun cycles c => cycles.add c.1 c.2) cycles) (recorded ++ more) := by
  induction more generalizing cycles recorded with
  | nil => simpa using lists
  | cons c more ih =>
      have next := ih (lists.add c.1 c.2)
      rw [List.append_assoc] at next
      exact next

end Cycles

namespace Draft

variable (findings : List Finding)

theorem equivalentSets_ofFindings : (ofFindings findings).equivalentSets =
    (addedSets findings).map ConceptSet.ofList := by
  rw [ofFindings, foldl_equivalentSets]
  rfl

theorem commit_ofFindings :
    (ofFindings findings).commit = (findings.filterMap Finding.commit?).getLast? := by
  rw [ofFindings, foldl_commit]
  exact Option.or_none

theorem lists_cycles :
    (ofFindings findings).cycles.Lists (findings.filterMap Finding.cycle?) := by
  have nothing : Cycles.Lists [] [] := ⟨.nil, nofun, nofun⟩
  rw [ofFindings, foldl_cycles]
  exact nothing.foldl _

theorem mem_cycles_iff {concept : ConceptSequence} {cycle : List ConceptSequence} :
    (concept, cycle) ∈ findings.filterMap Finding.cycle? ↔ .cycle concept cycle ∈ findings := by
  rw [List.mem_filterMap]
  constructor
  · intro listed
    obtain ⟨f, member, found⟩ := listed
    cases f with
    | cycle concept path =>
        cases found
        exact member
    | _ => cases found
  · intro member
    exact ⟨_, member, rfl⟩

end Draft

end Terminology
