import Terminology.Proofs.Classification.Partition

/-!
Whom a refused family of sets blames. The error names the first position whose set is too small
or meets an earlier set. Of the members that it shares with earlier sets the smallest one is
named, and the one position before that has it too.
-/

namespace Terminology

open Ordered

/-- The set at a position has the concept. -/
def SetAt (sets : List (List ConceptSequence)) (i : Nat) (c : ConceptSequence) : Prop :=
  ∃ set, sets[i]? = some set ∧ c ∈ set

/-- How many different concepts there are in the set at a position. -/
def sizeAt? (sets : List (List ConceptSequence)) (i : Nat) : Option Nat :=
  sets[i]?.map fun set => set.toFinset.card

/-- Nothing is wrong at a position: a set there has two different members, and none of its members
is in an earlier set. -/
structure SoundAt (sets : List (List ConceptSequence)) (i : Nat) : Prop where
  large : ∀ n, sizeAt? sets i = some n → 2 ≤ n
  apart : ∀ c, SetAt sets i c → ∀ j < i, ¬ SetAt sets j c

/-- The error says what is wrong at the first position where something is. -/
inductive Blames (sets : List (List ConceptSequence)) : PartitionError → Prop
  | tooSmall {i n : Nat} (first : ∀ k < i, SoundAt sets k) (size : sizeAt? sets i = some n)
      (small : n < 2) : Blames sets (.tooSmall i n)
  | shared {i j n : Nat} {c : ConceptSequence} (first : ∀ k < i, SoundAt sets k)
      (size : sizeAt? sets i = some n) (large : 2 ≤ n) (member : SetAt sets i c)
      (smallest : ∀ d, SetAt sets i d → d.lt c = true → ∀ k < i, ¬ SetAt sets k d)
      (before : j < i) (owner : SetAt sets j c) (only : ∀ k < i, SetAt sets k c → k = j) :
      Blames sets (.shared c j i)

section

variable {sets : List (List ConceptSequence)}

theorem setAt_ofList : SetAt (sets.map ConceptSet.ofList) = SetAt sets := by
  funext i c
  apply propext
  rw [SetAt, SetAt, List.getElem?_map]
  cases sets[i]? with
  | none => simp
  | some set => simp [Draft.mem_set]

theorem sizeAt_ofList : sizeAt? (sets.map ConceptSet.ofList) = sizeAt? sets := by
  funext i
  rw [sizeAt?, sizeAt?, List.getElem?_map, Option.map_map]
  apply congrArg (Option.map · sets[i]?)
  funext set
  exact congrArg Finset.card (Draft.toFinset_set set)

theorem soundAt_ofList {i : Nat} : SoundAt (sets.map ConceptSet.ofList) i ↔ SoundAt sets i := by
  constructor
  · intro sound
    have large := sound.large
    have apart := sound.apart
    rw [sizeAt_ofList] at large
    rw [setAt_ofList] at apart
    exact ⟨large, apart⟩
  · intro sound
    constructor
    · rw [sizeAt_ofList]
      exact sound.large
    · rw [setAt_ofList]
      exact sound.apart

theorem Blames.of_ofList {e : PartitionError} (blames : Blames (sets.map ConceptSet.ofList) e) :
    Blames sets e := by
  cases blames with
  | tooSmall first size small =>
      rw [sizeAt_ofList] at size
      exact .tooSmall (fun k less => soundAt_ofList.mp (first k less)) size small
  | shared first size large member smallest before owner only =>
      rw [sizeAt_ofList] at size
      rw [setAt_ofList] at member smallest owner only
      exact .shared (fun k less => soundAt_ofList.mp (first k less)) size large member smallest
        before owner only

theorem SetAt.lt_length {i : Nat} {c : ConceptSequence} (member : SetAt sets i c) :
    i < sets.length := by
  rcases member with ⟨set, found, -⟩
  exact (List.getElem?_eq_some_iff.mp found).1

theorem setAt_concat {set : List ConceptSequence} {i : Nat} {c : ConceptSequence} :
    SetAt (sets ++ [set]) i c ↔ SetAt sets i c ∨ i = sets.length ∧ c ∈ set := by
  rcases Nat.lt_trichotomy i sets.length with before | rfl | behind
  · have other : i ≠ sets.length := Nat.ne_of_lt before
    simp [SetAt, List.getElem?_append_left before, other]
  · simp [SetAt]
  · have other : i ≠ sets.length := (Nat.ne_of_lt behind).symm
    have none_here : sets[i]? = none := List.getElem?_eq_none (Nat.le_of_lt behind)
    have none_there : (sets ++ [set])[i]? = none := by
      apply List.getElem?_eq_none
      rwa [List.length_append, List.length_singleton]
    simp [SetAt, none_here, none_there, other]

theorem setAt_append {rest : List (List ConceptSequence)} {i : Nat} {c : ConceptSequence}
    (before : i < sets.length) : SetAt (sets ++ rest) i c ↔ SetAt sets i c := by
  rw [SetAt, SetAt, List.getElem?_append_left before]

theorem setAt_length {set : List ConceptSequence} {rest : List (List ConceptSequence)}
    {c : ConceptSequence} : SetAt (sets ++ set :: rest) sets.length c ↔ c ∈ set := by
  simp [SetAt]

theorem sizeAt_length {set : List ConceptSequence} {rest : List (List ConceptSequence)} :
    sizeAt? (sets ++ set :: rest) sets.length = some set.toFinset.card := by
  simp [sizeAt?]

end

namespace Draft

variable {before : List ConceptSet} {owners owners' : List (ConceptSequence × Nat)}
  {set : ConceptSet} {e : PartitionError} {position : Nat}

/-- The owners are the positions of the sets so far that have the concepts. -/
def Owns (owners : List (ConceptSequence × Nat)) (before : List ConceptSet) : Prop :=
  ∀ c i, owners.lookup c = some i ↔ SetAt before i c

theorem Owns.claim (owns : Owns owners before)
    (claimed : Draft.claim before.length owners set = .ok owners') :
    Owns owners' (before ++ [set]) := by
  rcases claim_eq_ok_iff.mp claimed with ⟨-, free, rfl⟩
  intro c i
  rw [lookup_members, setAt_concat, ← owns]
  simp only [List.mem_reverse]
  by_cases member : c ∈ set
  · simp [member, free c member, eq_comm]
  · simp [member]

/-- A set is refused for the smallest of its members that have an owner. -/
theorem claim_eq_error_iff (ascending : Ascending ConceptSequence.lt set) :
    Draft.claim position owners set = .error e ↔
      ∃ c earlier, c ∈ set ∧ owners.lookup c = some earlier ∧
        (∀ d ∈ set, d.lt c = true → owners.lookup d = none) ∧
          e = .shared c earlier position := by
  induction set generalizing owners with
  | nil => simp [Draft.claim]
  | cons first others ih =>
      rcases List.pairwise_cons.mp ascending with ⟨least, ascending_others⟩
      rw [Draft.claim]
      cases owned : owners.lookup first with
      | some owner =>
          constructor
          · intro refused
            cases refused
            refine ⟨first, owner, List.mem_cons_self, owned, ?_, rfl⟩
            intro d member less
            rcases List.mem_cons.mp member with rfl | behind
            · rw [ConceptSequence.strict_lt.irrefl] at less
              cases less
            · rw [ConceptSequence.strict_lt.asymm (least d behind)] at less
              cases less
          · intro named
            rcases named with ⟨c, earlier, member, found, smallest, rfl⟩
            rcases List.mem_cons.mp member with rfl | behind
            · cases owned.symm.trans found
              rfl
            · have unowned := smallest first List.mem_cons_self (least c behind)
              cases owned.symm.trans unowned
      | none =>
          have apart {d : ConceptSequence} (member : d ∈ others) :
              ((first, position) :: owners).lookup d = owners.lookup d := by
            have different : (d == first) = false := by
              simpa using (ConceptSequence.strict_lt.ne (least d member)).symm
            rw [List.lookup_cons, different]
          simp only [ih ascending_others]
          constructor
          · intro named
            rcases named with ⟨c, earlier, member, found, smallest, rfl⟩
            rw [apart member] at found
            refine ⟨c, earlier, List.mem_cons_of_mem first member, found, ?_, rfl⟩
            intro d inside less
            rcases List.mem_cons.mp inside with rfl | behind
            · exact owned
            · rw [← apart behind]
              exact smallest d behind less
          · intro named
            rcases named with ⟨c, earlier, member, found, smallest, rfl⟩
            rcases List.mem_cons.mp member with rfl | behind
            · cases owned.symm.trans found
            · refine ⟨c, earlier, behind, (apart behind).trans found, ?_, rfl⟩
              intro d inside less
              rw [apart inside]
              exact smallest d (List.mem_cons_of_mem first inside) less

theorem blames_of_checkFrom {rest : List ConceptSet} (owns : Owns owners before)
    (sound : ∀ i < before.length, SoundAt (before ++ rest) i)
    (ascending : ∀ set ∈ rest, Ascending ConceptSequence.lt set)
    (refused : checkFrom before.length owners rest = .error e) : Blames (before ++ rest) e := by
  induction rest generalizing before owners with
  | nil => cases refused
  | cons set rest ih =>
      rcases List.forall_mem_cons.mp ascending with ⟨here, behind⟩
      have nodup := here.nodup ConceptSequence.strict_lt
      have size : sizeAt? (before ++ set :: rest) before.length = some set.length := by
        rw [sizeAt_length, List.toFinset_card_of_nodup nodup]
      have earlier {c : ConceptSequence} {i : Nat} (less : i < before.length) :
          SetAt (before ++ set :: rest) i c ↔ owners.lookup c = some i := by
        rw [setAt_append less, owns]
      rw [checkFrom] at refused
      split at refused
      · rename_i small
        cases refused
        exact .tooSmall sound size small
      · rename_i large
        have large : 2 ≤ set.length := Nat.not_lt.mp large
        cases claimed : claim before.length owners set with
        | error found =>
            rw [claimed] at refused
            cases refused
            rcases (claim_eq_error_iff here).mp claimed with ⟨c, i, member, found, smallest, rfl⟩
            have less : i < before.length := ((owns c i).mp found).lt_length
            apply Blames.shared sound size large (setAt_length.mpr member) _ less
              ((earlier less).mpr found)
            · intro k before_it other
              exact Option.some.inj (((earlier before_it).mp other).symm.trans found)
            · intro d inside smaller k before_it other
              have unowned := smallest d (setAt_length.mp inside) smaller
              cases unowned.symm.trans ((earlier before_it).mp other)
        | ok owned =>
            rw [claimed] at refused
            have whole : before ++ set :: rest = before ++ [set] ++ rest := by simp
            have sound_here : SoundAt (before ++ set :: rest) before.length := by
              constructor
              · intro n found
                cases size.symm.trans found
                exact large
              · intro c member i less other
                have free := (claim_eq_ok_iff.mp claimed).2.1 c (setAt_length.mp member)
                cases free.symm.trans ((earlier less).mp other)
            rw [whole] at sound sound_here ⊢
            apply ih (owns.claim claimed) _ behind
            · rwa [List.length_append]
            · intro i less
              rw [List.length_append, List.length_singleton] at less
              rcases Nat.lt_succ_iff_lt_or_eq.mp less with before_it | rfl
              · exact sound i before_it
              · exact sound_here

end Draft

section

variable {sets : List (List ConceptSequence)} {e e' : PartitionError}

/-- The position that an error speaks of. -/
def PartitionError.position : PartitionError → Nat
  | tooSmall position _ => position
  | shared _ _ later => later

theorem Blames.first (blames : Blames sets e) : ∀ k < e.position, SoundAt sets k := by
  cases blames with
  | tooSmall first _ _ => exact first
  | shared first _ _ _ _ _ _ _ => exact first

theorem Blames.unsound (blames : Blames sets e) : ¬ SoundAt sets e.position := by
  intro sound
  cases blames with
  | tooSmall _ size small => exact absurd (sound.large _ size) (Nat.not_le.mpr small)
  | shared _ _ _ member _ before owner _ => exact sound.apart _ member _ before owner

theorem Blames.unique (blames : Blames sets e) (blames' : Blames sets e') : e = e' := by
  have position : e.position = e'.position := by
    rcases Nat.lt_trichotomy e.position e'.position with less | same | greater
    · exact absurd (blames'.first _ less) blames.unsound
    · exact same
    · exact absurd (blames.first _ greater) blames'.unsound
  cases blames with
  | @tooSmall i n first size small =>
      cases blames' with
      | tooSmall _ size' _ =>
          cases position
          cases size.symm.trans size'
          rfl
      | shared _ size' large _ _ _ _ _ =>
          cases position
          cases size.symm.trans size'
          exact absurd large (Nat.not_le.mpr small)
  | @shared i j n c first size large member smallest before owner only =>
      cases blames' with
      | tooSmall _ size' small =>
          cases position
          cases size.symm.trans size'
          exact absurd large (Nat.not_le.mpr small)
      | @shared _ j' _ c' _ _ _ member' smallest' before' owner' only' =>
          cases position
          have not_less {c d : ConceptSequence} {k : Nat} (member : SetAt sets i d)
              (smallest : ∀ d, SetAt sets i d → d.lt c = true → ∀ k < i, ¬ SetAt sets k d)
              (before : k < i) (owner : SetAt sets k d) : d.lt c = false := by
            rw [Bool.eq_false_iff]
            intro less
            exact smallest d member less k before owner
          have same : c = c' := ConceptSequence.strict_lt.connected
            (not_less member smallest' before owner) (not_less member' smallest before' owner')
          rw [← same] at owner' ⊢
          rw [only j' before' owner']

theorem Draft.Separate.soundAt (separate : Draft.Separate sets) (i : Nat) : SoundAt sets i := by
  constructor
  · intro n size
    rcases Option.map_eq_some_iff.mp size with ⟨set, found, rfl⟩
    rcases separate.1 set (List.mem_of_getElem? found) with ⟨a, inside, b, inside', apart⟩
    apply Finset.one_lt_card.mpr
    exact ⟨a, List.mem_toFinset.mpr inside, b, List.mem_toFinset.mpr inside', apart⟩
  · intro c member j before owner
    rcases member with ⟨set, found, inside⟩
    rcases owner with ⟨earlier, found', inside'⟩
    rcases List.getElem?_eq_some_iff.mp found with ⟨bound, rfl⟩
    rcases List.getElem?_eq_some_iff.mp found' with ⟨bound', rfl⟩
    exact List.pairwise_iff_getElem.mp separate.2 j i bound' bound before inside' inside

/-- Sets are refused with the error that is to blame, and with no other. -/
theorem Draft.checkFrom_eq_error_iff :
    Draft.checkFrom 0 [] (sets.map ConceptSet.ofList) = .error e ↔ Blames sets e := by
  have reported {e : PartitionError}
      (refused : Draft.checkFrom 0 [] (sets.map ConceptSet.ofList) = .error e) :
      Blames sets e := by
    have none_owned : Draft.Owns [] [] := by
      intro c i
      simp [SetAt]
    have ascending : ∀ set ∈ sets.map ConceptSet.ofList, Ascending ConceptSequence.lt set :=
      List.forall_mem_map.mpr fun set _ => Draft.ascending_set set
    exact .of_ofList (Draft.blames_of_checkFrom none_owned nofun ascending refused)
  constructor
  · exact reported
  · intro blames
    cases checked : Draft.checkFrom 0 [] (sets.map ConceptSet.ofList) with
    | ok _ =>
        have separate := Draft.checkFrom_eq_ok_iff_separate.mp checked
        exact absurd (separate.soundAt _) blames.unsound
    | error found => rw [blames.unique (reported checked)]

end

namespace Classification

/-- Building fails with the error that is to blame for the sets that were added, and with no
other. The text of the error has the position and the size of a set that is too small, or the
concept and both positions. -/
theorem build_blames_first :
    (∀ findings e, (Draft.ofFindings findings).build = .error e ↔ Blames (addedSets findings) e) ∧
    (∀ affected sets commit e, new affected sets commit = .error e ↔ Blames sets e) ∧
    (∀ i n : Nat, (PartitionError.tooSmall i n).message =
      s!"invalid equivalence partition: equivalent set #{i} has {n} member(s), " ++
        "at least 2 are required") ∧
    ∀ (c : ConceptSequence) (j i : Nat), (PartitionError.shared c j i).message =
      s!"invalid equivalence partition: concept {c.value} appears in equivalent sets " ++
        s!"#{j} and #{i}" := by
  have built (findings : List Finding) (e : PartitionError) :
      (Draft.ofFindings findings).build = .error e ↔ Blames (addedSets findings) e := by
    rw [← Draft.checkFrom_eq_error_iff, ← Draft.equivalentSets_ofFindings, Draft.build]
    cases Draft.checkFrom 0 [] (Draft.ofFindings findings).equivalentSets <;> simp
  refine ⟨built, ?_, fun _ _ => rfl, fun _ _ _ => rfl⟩
  intro affected sets commit e
  rw [new, built, addedSets_new]

/-- Of the two members that the last set shares the smaller one is named, with the set that has it,
although a bigger one is listed first and is in a set further up. -/
example : new [] [[⟨8⟩, ⟨9⟩], [⟨3⟩, ⟨4⟩], [⟨9⟩, ⟨7⟩, ⟨4⟩]] none = .error (.shared ⟨4⟩ 1 2) := rfl

end Classification

end Terminology
