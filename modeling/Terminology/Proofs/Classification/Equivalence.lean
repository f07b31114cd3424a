import Mathlib.Data.List.Pairwise
import Terminology.Proofs.Classification.Partition

/-!
Queries for the class of a concept. Whatever findings a classification was made of, its classes do
not meet, so that the first class found is the only one, and to be in the class of each other is an
equivalence on the concepts of the sets that were added.
-/

namespace Terminology

open Ordered

namespace Classification

/-- The classifications that can be made, each with the equivalent sets that were added for it. -/
inductive Made : List (List ConceptSequence) → Classification → Prop
  | build {findings : List Finding} {c : Classification}
      (built : (Draft.ofFindings findings).build = .ok c) : Made (addedSets findings) c
  | new {affected : List ConceptSequence} {sets : List (List ConceptSequence)}
      {commit : Option Commit} {c : Classification}
      (built : Classification.new affected sets commit = .ok c) : Made sets c

/-- The class of the one concept has the other in it. -/
def Equivalent (c : Classification) (a b : ConceptSequence) : Prop :=
  ∃ set, c.classOf? a = some set ∧ b ∈ set

variable {sets : List (List ConceptSequence)} {c : Classification} {a b : ConceptSequence}
  {set other : ConceptSet}

/-- The classes are the sets that were added, and no two of these meet. -/
theorem Made.classes (made : Made sets c) :
    Draft.Separate sets ∧
      ∀ set, set ∈ c.equivalentSets ↔ ∃ concepts ∈ sets, ConceptSet.ofList concepts = set := by
  have of_build {findings : List Finding} (built : (Draft.ofFindings findings).build = .ok c) :
      Draft.Separate (addedSets findings) ∧ ∀ set, set ∈ c.equivalentSets ↔
        ∃ concepts ∈ addedSets findings, ConceptSet.ofList concepts = set := by
    rcases build_ofFindings_eq_ok_iff.mp built with ⟨separate, rfl⟩
    refine ⟨separate, fun set => ?_⟩
    rw [mem_ofList ConceptSet.strict_lt, List.mem_map]
  cases made with
  | build built => exact of_build built
  | @new affected _ commit _ built =>
      have classes := of_build built
      rwa [addedSets_new] at classes

theorem Made.unique (made : Made sets c) (member : set ∈ c.equivalentSets)
    (member' : other ∈ c.equivalentSets) (inside : a ∈ set) (inside' : a ∈ other) :
    set = other := by
  rcases made.classes with ⟨separate, classes⟩
  rcases (classes set).mp member with ⟨concepts, added, rfl⟩
  rcases (classes other).mp member' with ⟨concepts', added', rfl⟩
  have : Std.Symm (@List.Disjoint ConceptSequence) := ⟨fun _ _ => List.Disjoint.symm⟩
  by_contra apart
  have different : concepts ≠ concepts' := fun same => apart (congrArg ConceptSet.ofList same)
  have disjoint := separate.2.forall added added' different
  exact disjoint (Draft.mem_set.mp inside) (Draft.mem_set.mp inside')

theorem Made.two_members (made : Made sets c) (member : set ∈ c.equivalentSets) :
    2 ≤ set.toFinset.card := by
  rcases made.classes with ⟨separate, classes⟩
  rcases (classes set).mp member with ⟨concepts, added, rfl⟩
  have large := Draft.two_le_length_iff.mpr (separate.1 concepts added)
  have nodup := (Draft.ascending_set concepts).nodup ConceptSequence.strict_lt
  rwa [List.toFinset_card_of_nodup nodup]

theorem classOf_of_eq_some (found : c.classOf? a = some set) :
    set ∈ c.equivalentSets ∧ a ∈ set := by
  have inside := List.find?_some found
  exact ⟨List.mem_of_find?_eq_some found, List.contains_iff_mem.mp inside⟩

theorem classOf_eq_none_iff : c.classOf? a = none ↔ ∀ set ∈ c.equivalentSets, a ∉ set := by
  rw [classOf?, List.find?_eq_none]
  simp only [List.contains_iff_mem]

theorem Made.classOf_eq_some_iff (made : Made sets c) :
    c.classOf? a = some set ↔ set ∈ c.equivalentSets ∧ a ∈ set := by
  constructor
  · exact classOf_of_eq_some
  · intro both
    rcases both with ⟨member, inside⟩
    cases found : c.classOf? a with
    | none => exact absurd inside (classOf_eq_none_iff.mp found set member)
    | some first =>
        rcases classOf_of_eq_some found with ⟨member', inside'⟩
        rw [made.unique member' member inside' inside]

theorem Made.equivalent_iff (made : Made sets c) :
    c.Equivalent a b ↔ ∃ set, c.classOf? a = some set ∧ c.classOf? b = some set := by
  apply exists_congr
  intro set
  apply and_congr_right
  intro found
  rw [made.classOf_eq_some_iff, and_iff_right (classOf_of_eq_some found).1]

theorem Made.classOf_eq_none_iff (made : Made sets c) :
    c.classOf? a = none ↔ ∀ concepts ∈ sets, a ∉ concepts := by
  rw [Classification.classOf_eq_none_iff]
  constructor
  · intro absent concepts added inside
    exact absent _ ((made.classes.2 _).mpr ⟨concepts, added, rfl⟩) (Draft.mem_set.mpr inside)
  · intro absent set member inside
    rcases (made.classes.2 set).mp member with ⟨concepts, added, rfl⟩
    exact absent concepts added (Draft.mem_set.mp inside)

theorem Made.equivalent_self_iff (made : Made sets c) :
    c.Equivalent a a ↔ ∃ concepts ∈ sets, a ∈ concepts := by
  rw [made.equivalent_iff]
  simp only [and_self]
  calc (∃ set, c.classOf? a = some set)
      ↔ ¬ c.classOf? a = none := Option.ne_none_iff_exists'.symm
    _ ↔ ¬ ∀ concepts ∈ sets, a ∉ concepts := not_congr made.classOf_eq_none_iff
    _ ↔ ∃ concepts ∈ sets, a ∈ concepts := by push Not; rfl

/-- The queries of a classification see an equivalence relation, whose classes are the equivalent
sets. The class of a concept is the only set that has it, and it has others in it. Two concepts
are in the class of each other exactly if both have a class and the classes are equal, so that
the relation is symmetric and transitive, and a concept has no class exactly if it is in no set that
was added. -/
theorem classOf_equivalence (made : Made sets c) :
    (∀ a set, c.classOf? a = some set ↔ set ∈ c.equivalentSets ∧ a ∈ set) ∧
    (∀ a, ∀ set ∈ c.equivalentSets, ∀ other ∈ c.equivalentSets,
      a ∈ set → a ∈ other → set = other) ∧
    (∀ set ∈ c.equivalentSets, 2 ≤ set.toFinset.card) ∧
    (∀ a b, c.Equivalent a b ↔
      ∃ set, c.classOf? a = some set ∧ c.classOf? b = some set) ∧
    (∀ a, c.Equivalent a a ↔ ∃ concepts ∈ sets, a ∈ concepts) ∧
    (∀ a b, c.Equivalent a b → c.Equivalent b a) ∧
    (∀ a b d, c.Equivalent a b → c.Equivalent b d → c.Equivalent a d) ∧
    ∀ a, c.classOf? a = none ↔ ∀ concepts ∈ sets, a ∉ concepts := by
  refine ⟨fun a set => made.classOf_eq_some_iff, ?_, fun set => made.two_members,
    fun a b => made.equivalent_iff, fun a => made.equivalent_self_iff, ?_, ?_,
    fun a => made.classOf_eq_none_iff⟩
  · intro a set member other member' inside inside'
    exact made.unique member member' inside inside'
  · intro a b related
    rw [made.equivalent_iff] at related ⊢
    exact related.imp fun set both => ⟨both.2, both.1⟩
  · intro a b d first second
    rw [made.equivalent_iff] at first second ⊢
    rcases first with ⟨set, found, between⟩
    rcases second with ⟨other, between', found'⟩
    cases between.symm.trans between'
    exact ⟨set, found, found'⟩

/-- Two sets, one of them added with a repetition; an affected concept without a class. -/
theorem classOf_equivalence_two :
    let findings : List Finding :=
      [.equivalentSet [⟨3⟩, ⟨1⟩, ⟨3⟩], .affected [⟨5⟩], .equivalentSet [⟨4⟩, ⟨2⟩]]
    ∃ c, Made [[⟨3⟩, ⟨1⟩, ⟨3⟩], [⟨4⟩, ⟨2⟩]] c ∧ (Draft.ofFindings findings).build = .ok c ∧
      c.classOf? ⟨3⟩ = some [⟨1⟩, ⟨3⟩] ∧ c.Equivalent ⟨3⟩ ⟨1⟩ ∧ c.Equivalent ⟨1⟩ ⟨3⟩ ∧
      ¬ c.Equivalent ⟨3⟩ ⟨2⟩ ∧ c.classOf? ⟨5⟩ = none := by
  intro findings
  have built : (Draft.ofFindings findings).build =
      .ok ⟨[⟨5⟩], [[⟨1⟩, ⟨3⟩], [⟨2⟩, ⟨4⟩]], [], [], none⟩ := rfl
  have made := Made.build built
  rcases classOf_equivalence made with ⟨found, -, -, same, -, symmetric, -, without⟩
  have class_three := (found ⟨3⟩ [⟨1⟩, ⟨3⟩]).mpr (by decide)
  have related : Equivalent _ ⟨3⟩ ⟨1⟩ := ⟨_, class_three, by decide⟩
  refine ⟨_, made, built, class_three, related, symmetric _ _ related, ?_,
    (without ⟨5⟩).mpr (by decide)⟩
  intro across
  rcases (same ⟨3⟩ ⟨2⟩).mp across with ⟨set, first, second⟩
  have class_two := (found ⟨2⟩ set).mp second
  cases first.symm.trans class_three
  exact absurd class_two.2 (by decide)

end Classification

end Terminology
