import Terminology.Proofs.Classification.Partition

/-!
The order of findings. Which classification they make depends on the concepts that are affected
or orphans, on the cycles, on the equivalent sets however they are ordered, and on the last
commit; only an error tells in which order sets were added.
-/

namespace Terminology

open Ordered

theorem Cycles.Lists.unique {cycles cycles' : Cycles}
    {recorded recorded' : List (ConceptSequence × List ConceptSequence)}
    (lists : cycles.Lists recorded) (lists' : cycles'.Lists recorded')
    (same : ∀ entry, entry ∈ recorded ↔ entry ∈ recorded') : cycles = cycles' := by
  -- An entry of one map has a cycle, so its concept has an entry in the other map too, and both
  -- have the same cycles.
  have shared {one other : Cycles} {here there : List (ConceptSequence × List ConceptSequence)}
      (lists : one.Lists here) (lists' : other.Lists there)
      (same : ∀ entry, entry ∈ here ↔ entry ∈ there) {concept : ConceptSequence}
      {set : List (List ConceptSequence)} (member : (concept, set) ∈ one) :
      (concept, set) ∈ other := by
    obtain ⟨filled, ascending, cycles⟩ := lists.entries concept set member
    obtain ⟨cycle, inside⟩ := List.exists_mem_of_ne_nil set filled
    obtain ⟨set', member'⟩ :=
      lists'.known concept cycle ((same _).mp ((cycles cycle).mp inside))
    obtain ⟨-, ascending', cycles'⟩ := lists'.entries concept set' member'
    have equal : set = set' := by
      apply Ascending.ext ConceptSet.strict_lt.asymm ascending ascending'
      intro cycle
      rw [cycles, cycles', same]
    rw [equal]
    exact member'
  apply map_ext ConceptSequence.strict_lt lists.ascending lists'.ascending
  intro concept set
  exact ⟨shared lists lists' same, shared lists' lists fun entry => (same entry).symm⟩

namespace Draft

variable {findings findings' : List Finding}

theorem Gathers.congr {part : Draft → ConceptSet} {sort : List ConceptSequence → Finding}
    (gathers : Gathers part sort)
    (same : ∀ x, (∃ concepts, sort concepts ∈ findings ∧ x ∈ concepts) ↔
      ∃ concepts, sort concepts ∈ findings' ∧ x ∈ concepts) :
    part (ofFindings findings) = part (ofFindings findings') := by
  apply Ascending.ext ConceptSequence.strict_lt.asymm (gathers.ascending findings)
    (gathers.ascending findings')
  intro x
  rw [gathers.mem_iff, gathers.mem_iff, same]

theorem cycles_congr
    (same : ∀ concept cycle, .cycle concept cycle ∈ findings ↔ .cycle concept cycle ∈ findings') :
    (ofFindings findings).cycles = (ofFindings findings').cycles := by
  apply (lists_cycles findings).unique (lists_cycles findings')
  intro entry
  rw [mem_cycles_iff, mem_cycles_iff, same]

theorem ofFindings_congr
    (affected : ∀ x, (∃ concepts, .affected concepts ∈ findings ∧ x ∈ concepts) ↔
      ∃ concepts, .affected concepts ∈ findings' ∧ x ∈ concepts)
    (orphans : ∀ x, (∃ concepts, .orphans concepts ∈ findings ∧ x ∈ concepts) ↔
      ∃ concepts, .orphans concepts ∈ findings' ∧ x ∈ concepts)
    (sets : (addedSets findings).map ConceptSet.ofList =
      (addedSets findings').map ConceptSet.ofList)
    (cycles : ∀ concept cycle,
      .cycle concept cycle ∈ findings ↔ .cycle concept cycle ∈ findings')
    (commit : (findings.filterMap Finding.commit?).getLast? =
      (findings'.filterMap Finding.commit?).getLast?) :
    ofFindings findings = ofFindings findings' := by
  have same_affected := gathers_affected.congr affected
  have same_orphans := gathers_orphans.congr orphans
  have same_cycles := cycles_congr cycles
  rw [← equivalentSets_ofFindings, ← equivalentSets_ofFindings] at sets
  rw [← commit_ofFindings, ← commit_ofFindings] at commit
  generalize ofFindings findings = d at *
  generalize ofFindings findings' = d' at *
  cases d
  cases d'
  simp_all

theorem checkFrom_perm {sets sets' : List ConceptSet} (perm : sets.Perm sets') :
    checkFrom 0 [] sets = .ok () ↔ checkFrom 0 [] sets' = .ok () := by
  rw [checkFrom_eq_ok_iff, checkFrom_eq_ok_iff, perm.pairwise_iff List.Disjoint.symm]
  simp only [perm.mem_iff]

theorem build_perm {d d' : Draft} (affected : d.affected = d'.affected)
    (sets : d.equivalentSets.Perm d'.equivalentSets) (orphans : d.orphans = d'.orphans)
    (cycles : d.cycles = d'.cycles) (commit : d.commit = d'.commit) {c : Classification} :
    d.build = .ok c ↔ d'.build = .ok c := by
  have same : Ordered.ofList ConceptSet.lt d.equivalentSets =
      Ordered.ofList ConceptSet.lt d'.equivalentSets :=
    ofList_congr ConceptSet.strict_lt fun _ => sets.mem_iff
  rw [build_eq_ok_iff, build_eq_ok_iff, checkFrom_perm sets, same, affected, orphans, cycles,
    commit]

/-- The same findings in another order make the same classification, or none either, as long as
the last commit stays the last. -/
theorem build_ofFindings_perm (perm : findings.Perm findings')
    (commit : (findings.filterMap Finding.commit?).getLast? =
      (findings'.filterMap Finding.commit?).getLast?) {c : Classification} :
    (ofFindings findings).build = .ok c ↔ (ofFindings findings').build = .ok c := by
  apply build_perm
  · exact gathers_affected.congr fun x => by simp only [perm.mem_iff]
  · rw [equivalentSets_ofFindings, equivalentSets_ofFindings]
    exact (perm.filterMap _).map _
  · exact gathers_orphans.congr fun x => by simp only [perm.mem_iff]
  · exact cycles_congr fun concept cycle => perm.mem_iff
  · rw [commit_ofFindings, commit_ofFindings, commit]

theorem filterMap_pieces {β : Type} {part : Finding → Option β}
    {sort : List ConceptSequence → Finding} (nothing : ∀ concepts, part (sort concepts) = none)
    (front back : List Finding) (concepts : List ConceptSequence)
    (pieces : List (List ConceptSequence)) :
    (front ++ sort concepts :: back).filterMap part =
      (front ++ pieces.map sort ++ back).filterMap part := by
  have skipped : (pieces.map sort).filterMap part = [] := by simp [nothing]
  rw [List.filterMap_append, List.filterMap_append, List.filterMap_append, skipped,
    List.filterMap_cons_none (nothing concepts), List.append_nil]

theorem ofFindings_pieces {sort : List ConceptSequence → Finding}
    (gathered : sort = .affected ∨ sort = .orphans) (front back : List Finding)
    {concepts : List ConceptSequence} {pieces : List (List ConceptSequence)}
    (same : ∀ x, x ∈ concepts ↔ ∃ piece, piece ∈ pieces ∧ x ∈ piece) :
    ofFindings (front ++ sort concepts :: back) =
      ofFindings (front ++ pieces.map sort ++ back) := by
  rcases gathered with rfl | rfl
  · apply ofFindings_congr
    · intro x
      simp [or_and_right, exists_or, same]
    · simp
    · exact congrArg _ (filterMap_pieces (fun _ => rfl) front back concepts pieces)
    · simp
    · exact congrArg _ (filterMap_pieces (fun _ => rfl) front back concepts pieces)
  · apply ofFindings_congr
    · simp
    · intro x
      simp [or_and_right, exists_or, same]
    · exact congrArg _ (filterMap_pieces (fun _ => rfl) front back concepts pieces)
    · simp
    · exact congrArg _ (filterMap_pieces (fun _ => rfl) front back concepts pieces)

theorem ofFindings_members (front back : List Finding) {members members' : List ConceptSequence}
    (perm : members.Perm members') :
    ofFindings (front ++ .equivalentSet members :: back) =
      ofFindings (front ++ .equivalentSet members' :: back) := by
  have same : ConceptSet.ofList members = ConceptSet.ofList members' :=
    ofList_congr ConceptSequence.strict_lt fun _ => perm.mem_iff
  apply ofFindings_congr
  · simp
  · simp
  · simp [addedSets, Finding.equivalentSet?, same]
  · simp
  · simp [List.filterMap_cons, Finding.commit?]

end Draft

namespace Classification

/-- The steps of building commute. In another order with the same last commit they make the same
classification, so with the same summary and text, or none either. Adding concepts in pieces or
more than once and listing the members of a set in another order changes nothing, not even an
error. -/
theorem build_commutes :
    (∀ findings findings' : List Finding, findings.Perm findings' →
      (findings.filterMap Finding.commit?).getLast? =
        (findings'.filterMap Finding.commit?).getLast? →
      ∀ c, (Draft.ofFindings findings).build = .ok c ↔ (Draft.ofFindings findings').build = .ok c) ∧
    (∀ sort, sort = Finding.affected ∨ sort = Finding.orphans →
      ∀ front back concepts, ∀ pieces : List (List ConceptSequence),
      (∀ x, x ∈ concepts ↔ ∃ piece, piece ∈ pieces ∧ x ∈ piece) →
      (Draft.ofFindings (front ++ sort concepts :: back)).build =
        (Draft.ofFindings (front ++ pieces.map sort ++ back)).build) ∧
    ∀ front back members members', members.Perm members' →
      (Draft.ofFindings (front ++ .equivalentSet members :: back)).build =
        (Draft.ofFindings (front ++ .equivalentSet members' :: back)).build := by
  refine ⟨?_, ?_, ?_⟩
  · intro findings findings' perm commit c
    exact Draft.build_ofFindings_perm perm commit
  · intro sort gathered front back concepts pieces same
    rw [Draft.ofFindings_pieces gathered front back same]
  · intro front back members members' perm
    rw [Draft.ofFindings_members front back perm]

/-- Two sets that change places, one of two commits, a step in pieces and a set listed backwards. -/
theorem build_commutes_shuffled :
    let cycle := Finding.cycle ⟨4⟩ [⟨4⟩, ⟨3⟩]
    let front : List Finding := [.commit ⟨"first"⟩, .equivalentSet [⟨3⟩, ⟨4⟩], .affected [⟨2⟩, ⟨1⟩]]
    let one := front ++ .equivalentSet [⟨1⟩, ⟨2⟩] :: [cycle, .commit ⟨"last"⟩]
    let other : List Finding := [.equivalentSet [⟨1⟩, ⟨2⟩], .affected [⟨2⟩, ⟨1⟩], cycle,
      .commit ⟨"first"⟩, .commit ⟨"last"⟩, .equivalentSet [⟨3⟩, ⟨4⟩]]
    let pieces := [.equivalentSet [⟨1⟩, ⟨2⟩]] ++ [[⟨1⟩], [⟨2⟩, ⟨1⟩]].map .affected ++
      [cycle, .commit ⟨"first"⟩, .commit ⟨"last"⟩, .equivalentSet [⟨3⟩, ⟨4⟩]]
    let backwards := front ++ .equivalentSet [⟨2⟩, ⟨1⟩] :: [cycle, .commit ⟨"last"⟩]
    ∃ c, (Draft.ofFindings one).build = .ok c ∧ (Draft.ofFindings other).build = .ok c ∧
      (Draft.ofFindings pieces).build = .ok c ∧ (Draft.ofFindings backwards).build = .ok c ∧
      c.equivalentSets = [[⟨1⟩, ⟨2⟩], [⟨3⟩, ⟨4⟩]] ∧ c.commit = some ⟨"last"⟩ := by
  intro cycle front one other pieces backwards
  let c : Classification :=
    ⟨[⟨1⟩, ⟨2⟩], [[⟨1⟩, ⟨2⟩], [⟨3⟩, ⟨4⟩]], [], [(⟨4⟩, [[⟨4⟩, ⟨3⟩]])], some ⟨"last"⟩⟩
  have built : (Draft.ofFindings one).build = .ok c := rfl
  have perm : one.Perm other := by decide
  obtain ⟨orders, splits, lists⟩ := build_commutes
  have again := (orders one other perm rfl c).mp built
  have same (x : ConceptSequence) : x ∈ ([⟨2⟩, ⟨1⟩] : List ConceptSequence) ↔
      ∃ piece, piece ∈ ([[⟨1⟩], [⟨2⟩, ⟨1⟩]] : List (List ConceptSequence)) ∧ x ∈ piece := by
    simp [or_comm]
  have split := splits .affected (.inl rfl) [.equivalentSet [⟨1⟩, ⟨2⟩]]
    [cycle, .commit ⟨"first"⟩, .commit ⟨"last"⟩, .equivalentSet [⟨3⟩, ⟨4⟩]] _ _ same
  have listed := lists front [cycle, .commit ⟨"last"⟩] [⟨1⟩, ⟨2⟩] [⟨2⟩, ⟨1⟩] (.swap _ _ _)
  exact ⟨c, built, again, split.symm.trans again, listed.symm.trans built, rfl, rfl⟩

end Classification

end Terminology
