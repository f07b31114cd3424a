import Terminology.Concept
import Terminology.Kind

/-!
The service that assigns handles to identifiers, as the resolver meets it: what it answers, what
it was asked for, and what else happens to the resolver before it answers.
-/

namespace Terminology

/-- Something that happens to a resolver or to the service while the service is answering. -/
inductive Event where
  | reset
  | resolve (kind : Kind)
  | assign (id : Uuid) (handle : Option Handle)
  | offline (reason : Option String)
  deriving DecidableEq

inductive Answer where
  | assigned (handle : Handle)
  | unassigned
  | unavailable (reason : String)
  deriving DecidableEq

/-- The handles that are assigned, the reason for being out of reach if there is one, the events
that happen during the calls to come, call by call, and the identifiers asked for so far. -/
structure Service where
  table : List (Uuid × Handle)
  offline : Option String
  hooks : List (List Event)
  asked : List Uuid

namespace Service

def answer (service : Service) (id : Uuid) : Answer :=
  match service.offline with
  | some reason => .unavailable reason
  | none =>
      match service.table.lookup id with
      | some handle => .assigned handle
      | none => .unassigned

def assign (service : Service) (id : Uuid) (handle : Option Handle) : Service :=
  let others := service.table.filter fun old => old.1 != id
  match handle with
  | some h => { service with table := (id, h) :: others }
  | none => { service with table := others }

/-- Puts the service out of reach for a reason, or back within reach. -/
def turn (service : Service) (reason : Option String) : Service :=
  { service with offline := reason }

/-- The service once it was asked for an identifier and the events of the call are taken off. -/
def ask (service : Service) (id : Uuid) : Service :=
  { service with hooks := service.hooks.tail, asked := service.asked ++ [id] }

end Service

end Terminology
