import Terminology.Resolver.Cache
import Terminology.Resolver.Service

/-!
Resolving kinds to handles. A kind is looked up once in an epoch and then answered from the
cache. The service may let other things happen to the resolver before it answers, resets and
further lookups among them; the answer is stored under the epoch that its lookup began in.
-/

namespace Terminology

inductive ResolveError where
  | unavailable (kind : Kind) (id : Uuid) (reason : String)
  | notAssigned (kind : Kind) (id : Uuid)
  deriving DecidableEq

namespace ResolveError

def message : ResolveError → String
  | unavailable kind id reason =>
      s!"identifier lookup unavailable for `{kind.name}` ({id.text}): {reason}"
  | notAssigned kind id => s!"no handle assigned to `{kind.name}` ({id.text})"

def isRetryable : ResolveError → Bool
  | unavailable .. => true
  | notAssigned .. => false

def kind : ResolveError → Kind
  | unavailable kind .. => kind
  | notAssigned kind _ => kind

end ResolveError

structure Session where
  cache : HandleCache
  service : Service

namespace Session

def new (service : Service) : Session := ⟨.empty, service⟩

/-- The handle of a kind, if it is in the cache; asks nobody. -/
def cached? (s : Session) (kind : Kind) : Option Handle := s.cache.get? kind.stableId

/-- The first kind that the cache holds the handle for. -/
def kindForHandle? (s : Session) (handle : Handle) : Option Kind :=
  Kind.all.find? fun kind => s.cached? kind == some handle

def reset (s : Session) : Session := { s with cache := s.cache.reset }

/-- Resolves a kind where `during` says what the events of a call do. The epoch is read before
the service is asked, and the service settles its answer before the events happen. -/
def resolveWith (during : List Event → Session → Session) (kind : Kind) (s : Session) :
    Except ResolveError Handle × Session :=
  let id := kind.stableId
  let epoch := s.cache.epoch
  match s.cache.getIn? epoch id with
  | some handle => (.ok handle, s)
  | none =>
      let events := s.service.hooks.head?.getD []
      let after := during events { s with service := s.service.ask id }
      match s.service.answer id with
      | .assigned handle =>
          (.ok handle, { after with cache := after.cache.insert id ⟨handle, epoch⟩ })
      | .unassigned => (.error (.notAssigned kind id), after)
      | .unavailable reason => (.error (.unavailable kind id reason), after)

/-- Lets an event happen; the result of a lookup is not looked at. -/
def happen (resolve : Kind → Session → Except ResolveError Handle × Session) (s : Session) :
    Event → Session
  | .reset => s.reset
  | .resolve kind => (resolve kind s).2
  | .assign id handle => { s with service := s.service.assign id handle }
  | .offline reason => { s with service := s.service.turn reason }

/-- Resolves a kind with events nested to the given depth. Each call takes one entry off the
events to come, so their number is depth enough. -/
def resolveNested : Nat → Kind → Session → Except ResolveError Handle × Session
  | 0 => resolveWith fun _ s => s
  | depth + 1 => resolveWith fun events s => events.foldl (happen (resolveNested depth)) s

def resolve (kind : Kind) (s : Session) : Except ResolveError Handle × Session :=
  resolveNested s.service.hooks.length kind s

def resolveAll : List Kind → Session → Except ResolveError (List (Kind × Handle)) × Session
  | [], s => (.ok [], s)
  | kind :: kinds, s =>
      match s.resolve kind with
      | (.error e, s) => (.error e, s)
      | (.ok handle, s) =>
          match s.resolveAll kinds with
          | (.error e, s) => (.error e, s)
          | (.ok others, s) => (.ok ((kind, handle) :: others), s)

def preload (s : Session) : Except ResolveError Unit × Session :=
  match s.resolveAll Kind.all with
  | (.error e, s) => (.error e, s)
  | (.ok _, s) => (.ok (), s)

/-- A resolver made to order, with every kind resolved if `preloaded` asks for it. -/
def make (preloaded : Bool) (service : Service) : Except ResolveError Unit × Session :=
  if preloaded then (new service).preload else (.ok (), new service)

def diagnostic (s : Session) : String :=
  "IdentityResolver \x7b cached: " ++ toString s.cache.size ++ ", epoch: " ++
    toString s.cache.epoch.toNat ++ ", .. \x7d"

end Session

end Terminology
