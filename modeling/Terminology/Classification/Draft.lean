import Terminology.Concept
import Terminology.Ordered

/-!
What a classifier found, collected step by step and not yet checked.
-/

namespace Terminology

structure Commit where
  label : String
  deriving DecidableEq

def Commit.diagnostic (c : Commit) : String :=
  let escaped := c.label.toList.flatMap fun ch => if ch = '"' ∨ ch = '\\' then ['\\', ch] else [ch]
  String.ofList ("Commit(\"".toList ++ escaped ++ "\")".toList)

abbrev ConceptSet := List ConceptSequence

namespace ConceptSet

def ofList (concepts : List ConceptSequence) : ConceptSet :=
  Ordered.ofList ConceptSequence.lt concepts

def union (set : ConceptSet) (concepts : List ConceptSequence) : ConceptSet :=
  Ordered.insertAll ConceptSequence.lt set concepts

/-- Order by the smallest concept that differs. -/
def lt (a b : List ConceptSequence) : Bool := Ordered.listLt ConceptSequence.lt a b

end ConceptSet

/-- Concepts on a cycle, each with every cycle found for it, in ascending order. -/
abbrev Cycles := List (ConceptSequence × List (List ConceptSequence))

def Cycles.add (cycles : Cycles) (concept : ConceptSequence) (cycle : List ConceptSequence) :
    Cycles :=
  let record (known : Option (List (List ConceptSequence))) :=
    Ordered.insert ConceptSet.lt cycle (known.getD [])
  Ordered.alter ConceptSequence.lt concept record cycles

inductive Finding where
  | affected (concepts : List ConceptSequence)
  | equivalentSet (concepts : List ConceptSequence)
  | orphans (concepts : List ConceptSequence)
  | cycle (concept : ConceptSequence) (cycle : List ConceptSequence)
  | commit (record : Commit)
  deriving DecidableEq

/-- The findings so far; the equivalent sets are in the order they were added. -/
structure Draft where
  affected : ConceptSet
  equivalentSets : List ConceptSet
  orphans : ConceptSet
  cycles : Cycles
  commit : Option Commit
  deriving DecidableEq

namespace Draft

def empty : Draft := ⟨[], [], [], [], none⟩

/-- Adds a finding; of several commits the last one counts. -/
def add (d : Draft) : Finding → Draft
  | .affected concepts => { d with affected := d.affected.union concepts }
  | .equivalentSet concepts =>
      { d with equivalentSets := d.equivalentSets ++ [.ofList concepts] }
  | .orphans concepts => { d with orphans := d.orphans.union concepts }
  | .cycle concept cycle => { d with cycles := d.cycles.add concept cycle }
  | .commit record => { d with commit := some record }

def ofFindings (findings : List Finding) : Draft := findings.foldl add empty

end Draft

end Terminology
