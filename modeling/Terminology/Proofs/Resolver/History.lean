import Terminology.Resolver.Session

/-!
What can be seen of a resolver at work: reads of its cache, calls of the service with all that
happens during them, and resets. The moments of a run are told by the operations themselves.
-/

namespace Terminology

/-- One thing that can be seen of a resolver. Calls of the service are numbered; the answer of a
call is settled when it begins, and what stands between `asked` and `answered` happens during
the call. -/
inductive Moment where
  | reset
  | read (kind : Kind) (found : Option Handle)
  | asked (call : Nat) (id : Uuid) (answer : Answer)
  | answered (call : Nat) (id : Uuid) (answer : Answer)
  deriving DecidableEq

namespace Session

/-- The moments of resolving a kind, where `during` tells those of the events of a call. -/
def resolveMoments (during : List Event → Session → List Moment) (kind : Kind) (s : Session) :
    List Moment :=
  let id := kind.stableId
  match s.cached? kind with
  | some handle => [.read kind (some handle)]
  | none =>
      let call := s.service.asked.length
      let answer := s.service.answer id
      let events := s.service.hooks.head?.getD []
      .read kind none :: .asked call id answer ::
        during events { s with service := s.service.ask id } ++ [.answered call id answer]

def eventMoments (resolving : Kind → Session → List Moment) (s : Session) : Event → List Moment
  | .reset => [.reset]
  | .resolve kind => resolving kind s
  | .assign .. | .offline _ => []

def eventsMoments (resolve : Kind → Session → Except ResolveError Handle × Session)
    (resolving : Kind → Session → List Moment) : List Event → Session → List Moment
  | [], _ => []
  | e :: es, s =>
      eventMoments resolving s e ++ eventsMoments resolve resolving es (happen resolve s e)

def nestedMoments : Nat → Kind → Session → List Moment
  | 0 => resolveMoments fun _ _ => []
  | depth + 1 => resolveMoments (eventsMoments (resolveNested depth) (nestedMoments depth))

def lookupMoments (kind : Kind) (s : Session) : List Moment :=
  nestedMoments s.service.hooks.length kind s

def lookupAllMoments : List Kind → Session → List Moment
  | [], _ => []
  | kind :: kinds, s =>
      lookupMoments kind s ++
        match s.resolve kind with
        | (.error _, _) => []
        | (.ok _, s) => lookupAllMoments kinds s

end Session

/-- What one caller can do with a resolver and with the service it asks. -/
inductive Operation where
  | resolve (kind : Kind)
  | resolveAll (kinds : List Kind)
  | preload
  | cached (kind : Kind)
  | kindForHandle (handle : Handle)
  | reset
  | assign (id : Uuid) (handle : Option Handle)
  | offline (reason : Option String)
  | hook (events : List Event)

namespace Operation

def perform (s : Session) : Operation → Session
  | resolve kind => (s.resolve kind).2
  | resolveAll kinds => (s.resolveAll kinds).2
  | preload => s.preload.2
  | cached _ | kindForHandle _ => s
  | reset => s.reset
  | assign id handle => { s with service := s.service.assign id handle }
  | offline reason => { s with service := s.service.turn reason }
  | hook events => { s with service := { s.service with hooks := s.service.hooks ++ [events] } }

/-- The moments of an operation. Finding the kind of a handle is seen as the read that found the
handle. -/
def moments (s : Session) : Operation → List Moment
  | resolve kind => s.lookupMoments kind
  | resolveAll kinds => s.lookupAllMoments kinds
  | preload => s.lookupAllMoments Kind.all
  | cached kind => [.read kind (s.cached? kind)]
  | kindForHandle handle =>
      ((s.kindForHandle? handle).map fun kind => Moment.read kind (some handle)).toList
  | reset => [.reset]
  | assign .. | offline _ | hook _ => []

end Operation

namespace Session

def history : List Operation → Session → List Moment
  | [], _ => []
  | op :: ops, s => op.moments s ++ history ops (op.perform s)

def performAll (ops : List Operation) (s : Session) : Session := ops.foldl Operation.perform s

end Session

end Terminology
