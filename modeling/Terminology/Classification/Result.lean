import Terminology.Classification.Draft

/-!
The outcome of a classification run. A draft becomes a result only if its equivalent sets are a
partition: each has at least two members and no two share one.
-/

namespace Terminology

/-- Why equivalent sets are no partition. Positions count the sets in the order they were
added. -/
inductive PartitionError where
  | tooSmall (position size : Nat)
  | shared (concept : ConceptSequence) (earlier later : Nat)
  deriving DecidableEq

def PartitionError.message : PartitionError → String
  | tooSmall position size =>
      s!"invalid equivalence partition: equivalent set #{position} has {size} member(s), " ++
        "at least 2 are required"
  | shared concept earlier later =>
      s!"invalid equivalence partition: concept {concept.value} appears in equivalent sets " ++
        s!"#{earlier} and #{later}"

/-- A checked draft; the equivalent sets are in ascending order. -/
structure Classification where
  affected : ConceptSet
  equivalentSets : List ConceptSet
  orphans : ConceptSet
  cycles : Cycles
  commit : Option Commit
  deriving DecidableEq

structure Summary where
  affected : Nat
  equivalentSets : Nat
  orphans : Nat
  conceptsWithCycles : Nat
  committed : Bool
  deriving DecidableEq

namespace Draft

/-- Records that the members of a set belong to it; `owners` says where the members of earlier
sets belong. -/
def claim (position : Nat) (owners : List (ConceptSequence × Nat)) :
    ConceptSet → Except PartitionError (List (ConceptSequence × Nat))
  | [] => .ok owners
  | c :: cs =>
      match owners.lookup c with
      | some earlier => .error (.shared c earlier position)
      | none => claim position ((c, position) :: owners) cs

def checkFrom (position : Nat) (owners : List (ConceptSequence × Nat)) :
    List ConceptSet → Except PartitionError Unit
  | [] => .ok ()
  | set :: sets =>
      if set.length < 2 then .error (.tooSmall position set.length)
      else match claim position owners set with
        | .error e => .error e
        | .ok owners => checkFrom (position + 1) owners sets

def build (d : Draft) : Except PartitionError Classification :=
  match checkFrom 0 [] d.equivalentSets with
  | .error e => .error e
  | .ok () =>
      .ok ⟨d.affected, Ordered.ofList ConceptSet.lt d.equivalentSets, d.orphans, d.cycles, d.commit⟩

end Draft

namespace Classification

def new (affected : List ConceptSequence) (equivalentSets : List (List ConceptSequence))
    (commit : Option Commit) : Except PartitionError Classification :=
  let findings := .affected affected :: equivalentSets.map .equivalentSet ++
    commit.toList.map .commit
  (Draft.ofFindings findings).build

def isAffected (c : Classification) (concept : ConceptSequence) : Bool :=
  c.affected.contains concept

/-- The concepts equivalent to `concept`, itself included, if there are others. -/
def classOf? (c : Classification) (concept : ConceptSequence) : Option ConceptSet :=
  c.equivalentSets.find? fun set => set.contains concept

def isCommitted (c : Classification) : Bool := c.commit.isSome

def summary (c : Classification) : Summary :=
  ⟨c.affected.length, c.equivalentSets.length, c.orphans.length, c.cycles.length, c.isCommitted⟩

/-- The counts in one line; orphans and cycles appear only if there are some. -/
def text (c : Classification) : String :=
  let s := c.summary
  let orphans := if 0 < s.orphans then ", orphans: " ++ toString s.orphans else ""
  let cycles :=
    if 0 < s.conceptsWithCycles then ", concepts with cycles: " ++ toString s.conceptsWithCycles
    else ""
  "ClassificationResult \x7b affected concepts: " ++ toString s.affected ++
    ", equivalent sets: " ++ toString s.equivalentSets ++ orphans ++ cycles ++
    ", committed: " ++ (if s.committed then "yes" else "no") ++ " \x7d"

end Classification

end Terminology
