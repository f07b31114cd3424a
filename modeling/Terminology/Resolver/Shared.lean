import Terminology.Resolver.Session

/-!
A resolver that several callers share. A lookup loads the epoch, reads the cache, asks the service
and stores the answer; between any two of these steps the other callers go on, with lookups and
resets of their own. A lookup on another thread is one of these. So is a look into the cache: it
ends where a lookup asks. A batch is a row of lookups, and finding the kind of a handle a row of
looks. A reset first begins the next epoch and then takes the entries away, some at a time.
-/

namespace Terminology

/-- Where a lookup stands: it has loaded the epoch, found a handle in the cache, found none, asked
the service, or ended with what the service answered. -/
inductive Stage where
  | begun
  | found (handle : Handle)
  | missed
  | asked (answer : Answer)
  | ended (answer : Answer)
  deriving DecidableEq

/-- A lookup with the epoch that it loaded. One that does not ask is over once it missed. -/
structure Lookup where
  kind : Kind
  asks : Bool
  epoch : UInt64
  stage : Stage
  deriving DecidableEq

/-- What is seen of resets and of lookups: that they begin, and what the service answers them. They
are numbered in the order in which they begin. -/
inductive Mark where
  | reset
  | began (number : Nat) (kind : Kind)
  | answered (number : Nat) (kind : Kind) (answer : Answer)
  deriving DecidableEq

def Answer.result (kind : Kind) : Answer → Except ResolveError Handle
  | .assigned handle => .ok handle
  | .unassigned => .error (.notAssigned kind kind.stableId)
  | .unavailable reason => .error (.unavailable kind kind.stableId reason)

/-- Stores a handle under the epoch that its lookup loaded. -/
def Session.settle (s : Session) (id : Uuid) (epoch : UInt64) : Answer → Session
  | .assigned handle => { s with cache := s.cache.insert id ⟨handle, epoch⟩ }
  | .unassigned | .unavailable _ => s

namespace Lookup

/-- What a lookup has returned, if it has. -/
def result? (l : Lookup) : Option (Except ResolveError Handle) :=
  match l.stage with
  | .found handle => some (.ok handle)
  | .ended answer => some (answer.result l.kind)
  | .begun | .missed | .asked _ => none

/-- The next step of a lookup: what it makes of the session, where it then stands, and what is seen
of it. -/
def step (number : Nat) (l : Lookup) (s : Session) : Session × Stage × List Mark :=
  let id := l.kind.stableId
  match l.stage with
  | .begun =>
      match s.cache.getIn? l.epoch id with
      | some handle => (s, .found handle, [])
      | none => (s, .missed, [])
  | .missed =>
      if l.asks then
        let answer := s.service.answer id
        ({ s with service := s.service.ask id }, .asked answer, [.answered number l.kind answer])
      else (s, .missed, [])
  | .asked answer => (s.settle id l.epoch answer, .ended answer, [])
  | .found _ | .ended _ => (s, l.stage, [])

end Lookup

namespace HandleCache

/-- The first half of a reset. -/
def nextEpoch (cache : HandleCache) : HandleCache := { cache with epoch := cache.epoch + 1 }

/-- Takes the entries of some identifiers away. -/
def forget (cache : HandleCache) (ids : List Uuid) : HandleCache :=
  { cache with entries := cache.entries.filter fun old => !ids.contains old.1 }

end HandleCache

inductive Act where
  | start (kind : Kind) (asks : Bool)
  | advance (number : Nat)
  | nextEpoch
  | forget (ids : List Uuid)
  | assign (id : Uuid) (handle : Option Handle)
  | offline (reason : Option String)

structure Shared where
  session : Session
  lookups : List Lookup

namespace Shared

def new (service : Service) : Shared := ⟨.new service, []⟩

def withCache (x : Shared) (cache : HandleCache) : Shared :=
  { x with session := { x.session with cache } }

def withService (x : Shared) (service : Service) : Shared :=
  { x with session := { x.session with service } }

/-- What somebody does, and what is seen of it. -/
def act (x : Shared) : Act → Shared × List Mark
  | .start kind asks =>
      let begun : Lookup := ⟨kind, asks, x.session.cache.epoch, .begun⟩
      ({ x with lookups := x.lookups ++ [begun] }, [.began x.lookups.length kind])
  | .advance number =>
      match x.lookups[number]? with
      | none => (x, [])
      | some l =>
          let (session, stage, seen) := l.step number x.session
          (⟨session, x.lookups.set number { l with stage }⟩, seen)
  | .nextEpoch => (x.withCache x.session.cache.nextEpoch, [.reset])
  | .forget ids => (x.withCache (x.session.cache.forget ids), [])
  | .assign id handle => (x.withService (x.session.service.assign id handle), [])
  | .offline reason => (x.withService (x.session.service.turn reason), [])

def after (x : Shared) : List Act → Shared
  | [] => x
  | a :: acts => (x.act a).1.after acts

def seen (x : Shared) : List Act → List Mark
  | [] => []
  | a :: acts => (x.act a).2 ++ (x.act a).1.seen acts

end Shared

end Terminology
