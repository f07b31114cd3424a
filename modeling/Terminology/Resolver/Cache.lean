import Terminology.Concept

/-!
Handles that were looked up, by identifier. Every entry carries the epoch that its lookup began
in, and only entries of the current epoch are read; a reset begins a new epoch.
-/

namespace Terminology

/-- A handle and the epoch that its lookup began in. -/
structure CachedHandle where
  handle : Handle
  epoch : UInt64
  deriving DecidableEq

/-- At most one entry for each identifier. -/
structure HandleCache where
  entries : List (Uuid × CachedHandle)
  epoch : UInt64

namespace HandleCache

def empty : HandleCache := ⟨[], 0⟩

/-- The handle of an identifier, if its entry is of the given epoch. -/
def getIn? (cache : HandleCache) (epoch : UInt64) (id : Uuid) : Option Handle :=
  match cache.entries.lookup id with
  | some entry => if entry.epoch = epoch then some entry.handle else none
  | none => none

def get? (cache : HandleCache) (id : Uuid) : Option Handle := cache.getIn? cache.epoch id

/-- Sets the entry of an identifier, whatever its epoch is. -/
def insert (cache : HandleCache) (id : Uuid) (entry : CachedHandle) : HandleCache :=
  { cache with entries := (id, entry) :: cache.entries.filter fun old => old.1 != id }

def reset (cache : HandleCache) : HandleCache := ⟨[], cache.epoch + 1⟩

/-- Number of entries, those of earlier epochs included. -/
def size (cache : HandleCache) : Nat := cache.entries.length

end HandleCache

end Terminology
