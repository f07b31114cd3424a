import Mathlib.Data.List.Nodup
import Mathlib.Logic.Function.Basic
import Terminology.Proofs.Resolver.Nesting
import Terminology.Proofs.Resolver.Reads

/-!
A resolver that is not entered while it asks is a memo: a partial map from kinds to handles and
the number of resets, with neither identifiers nor stamps. Whatever is done with the resolver, and
however the service changes meanwhile, the memo gives the same replies, asks the service for the
same kinds and counts the same epochs.
-/

namespace Terminology

theorem Kind.stableId_injective : Function.Injective stableId := by
  -- The digests of all the names are computed here, once.
  have distinct : (all.map stableId).Nodup := by decide +kernel
  intro kind other same
  exact List.inj_on_of_nodup_map distinct (mem_all kind) (mem_all other) same

theorem HandleCache.get_insert_of_ne (cache : HandleCache) {id other : Uuid} (apart : other ≠ id)
    (entry : CachedHandle) : (cache.insert id entry).get? other = cache.get? other := by
  rw [get?, get?, getIn?, getIn?, lookup_insert_of_ne cache apart]
  rfl

/-- The resolver is entered during a call: reset, or asked for a kind. -/
def Event.enters : Event → Bool
  | .reset | .resolve _ => true
  | .assign .. | .offline _ => false

namespace Service

def undergo (service : Service) : Event → Service
  | .assign id handle => service.assign id handle
  | .offline reason => service.turn reason
  | .reset | .resolve _ => service

def serve (service : Service) (id : Uuid) : Service :=
  (service.hooks.head?.getD []).foldl undergo (service.ask id)

/-- None of the events to come enters the resolver. -/
def Calm (service : Service) : Prop := ∀ events ∈ service.hooks, ∀ e ∈ events, e.enters = false

theorem undergo_keeps (service : Service) (e : Event) :
    (service.undergo e).hooks = service.hooks ∧ (service.undergo e).asked = service.asked := by
  cases e with
  | assign id handle => cases handle <;> exact ⟨rfl, rfl⟩
  | offline | reset | resolve => exact ⟨rfl, rfl⟩

theorem foldl_undergo_keeps (events : List Event) (service : Service) :
    (events.foldl undergo service).hooks = service.hooks ∧
      (events.foldl undergo service).asked = service.asked := by
  induction events generalizing service with
  | nil => exact ⟨rfl, rfl⟩
  | cons e es ih =>
      obtain ⟨hooks, asked⟩ := service.undergo_keeps e
      rw [List.foldl_cons, ← hooks, ← asked]
      exact ih _

theorem asked_serve (service : Service) (id : Uuid) :
    (service.serve id).asked = service.asked ++ [id] := (foldl_undergo_keeps _ _).2

theorem Calm.serve {service : Service} (calm : service.Calm) (id : Uuid) :
    (service.serve id).Calm := by
  intro events later
  have hooks : (service.serve id).hooks = service.hooks.tail := (foldl_undergo_keeps _ _).1
  rw [hooks] at later
  exact calm events (List.mem_of_mem_tail later)

theorem Calm.during {service : Service} (calm : service.Calm) :
    ∀ e ∈ service.hooks.head?.getD [], e.enters = false := by
  cases shape : service.hooks with
  | nil => simp
  | cons events others => exact calm events (by simp [shape])

theorem Calm.assign {service : Service} (calm : service.Calm) (id : Uuid)
    (handle : Option Handle) : (service.assign id handle).Calm := by
  cases handle <;> exact calm

end Service

namespace Session

variable {s : Session}

theorem happen_of_calm (resolve : Kind → Session → Except ResolveError Handle × Session)
    {e : Event} (calm : e.enters = false) :
    happen resolve s e = { s with service := s.service.undergo e } := by
  cases e with
  | assign | offline => rfl
  | reset | resolve => simp [Event.enters] at calm

theorem events_of_calm (resolve : Kind → Session → Except ResolveError Handle × Session)
    {events : List Event} (calm : ∀ e ∈ events, e.enters = false) :
    events.foldl (happen resolve) s =
      { s with service := events.foldl Service.undergo s.service } := by
  induction events generalizing s with
  | nil => rfl
  | cons e es ih =>
      have first := happen_of_calm (s := s) resolve (calm e List.mem_cons_self)
      rw [List.foldl_cons, first]
      exact ih fun e member => calm e (List.mem_cons_of_mem _ member)

/-- A lookup that is not entered has the service's answer and one entry to set. -/
theorem resolve_of_calm (calm : s.service.Calm) (kind : Kind) :
    s.resolve kind =
      match s.cached? kind with
      | some handle => (.ok handle, s)
      | none =>
          let after := { s with service := s.service.serve kind.stableId }
          match s.service.answer kind.stableId with
          | .assigned handle =>
              (.ok handle,
                { after with cache := s.cache.insert kind.stableId ⟨handle, s.cache.epoch⟩ })
          | .unassigned => (.error (.notAssigned kind kind.stableId), after)
          | .unavailable reason => (.error (.unavailable kind kind.stableId reason), after) := by
  have during := events_of_calm (s := { s with service := s.service.ask kind.stableId }) resolve
    calm.during
  rw [resolve_eq, resolveWith]
  simp only [during]
  rfl

theorem preload_eq (s : Session) :
    s.preload = ((s.resolveAll Kind.all).1.map fun _ => (), (s.resolveAll Kind.all).2) := by
  rw [preload]
  rcases s.resolveAll Kind.all with ⟨e | pairs, last⟩ <;> rfl

end Session

structure Memo where
  table : Kind → Option Handle
  resets : Nat

namespace Memo

def empty : Memo := ⟨fun _ => none, 0⟩

def reset (m : Memo) : Memo := ⟨fun _ => none, m.resets + 1⟩

def store (m : Memo) (kind : Kind) (handle : Handle) : Memo :=
  { m with table := Function.update m.table kind (some handle) }

theorem table_store_self (m : Memo) (kind : Kind) (handle : Handle) :
    (m.store kind handle).table kind = some handle := Function.update_self ..

theorem table_store_of_ne (m : Memo) {kind other : Kind} (handle : Handle) (apart : other ≠ kind) :
    (m.store kind handle).table other = m.table other := Function.update_of_ne apart ..

def kindForHandle? (m : Memo) (handle : Handle) : Option Kind :=
  Kind.all.find? fun kind => m.table kind == some handle

/-- What is given, the kinds that the service was asked for, in order, and the memo and the
service afterwards. -/
structure Step (α : Type) where
  given : α
  asked : List Kind
  memo : Memo
  service : Service

def Step.map {α β : Type} (f : α → β) (step : Step α) : Step β :=
  ⟨f step.given, step.asked, step.memo, step.service⟩

/-- What is in the memo is given without asking. Else the service is asked once, and only a handle
is remembered. -/
def resolve (kind : Kind) (m : Memo) (service : Service) : Step (Except ResolveError Handle) :=
  match m.table kind with
  | some handle => ⟨.ok handle, [], m, service⟩
  | none =>
      let later := service.serve kind.stableId
      match service.answer kind.stableId with
      | .assigned handle => ⟨.ok handle, [kind], m.store kind handle, later⟩
      | .unassigned => ⟨.error (.notAssigned kind kind.stableId), [kind], m, later⟩
      | .unavailable reason => ⟨.error (.unavailable kind kind.stableId reason), [kind], m, later⟩

def resolveAll : List Kind → Memo → Service → Step (Except ResolveError (List (Kind × Handle)))
  | [], m, service => ⟨.ok [], [], m, service⟩
  | kind :: kinds, m, service =>
      let first := m.resolve kind service
      match first.given with
      | .error e => first.map fun _ => .error e
      | .ok handle =>
          let others := resolveAll kinds first.memo first.service
          { others with
            given := others.given.map fun pairs => (kind, handle) :: pairs
            asked := first.asked ++ others.asked }

end Memo

inductive Reply where
  | handle (handle : Handle)
  | handles (pairs : List (Kind × Handle))
  | failed (e : ResolveError)
  | cached (found : Option Handle)
  | kind (found : Option Kind)
  | done
  deriving DecidableEq

def Reply.ofResult {α : Type} (ok : α → Reply) : Except ResolveError α → Reply
  | .ok a => ok a
  | .error e => failed e

theorem Reply.ofResult_map {α β : Type} (ok : β → Reply) (f : α → β)
    (result : Except ResolveError α) : ofResult ok (result.map f) = ofResult (ok ∘ f) result := by
  cases result <;> rfl

/-- The reply to an operation, the identifiers that the service was asked for during it, and the
epoch after it. -/
structure Outcome where
  reply : Reply
  asked : List Uuid
  epoch : Nat
  deriving DecidableEq

namespace Operation

def reply (s : Session) : Operation → Reply
  | resolve kind => .ofResult .handle (s.resolve kind).1
  | resolveAll kinds => .ofResult .handles (s.resolveAll kinds).1
  | preload => .ofResult (fun _ => .done) s.preload.1
  | cached kind => .cached (s.cached? kind)
  | kindForHandle handle => .kind (s.kindForHandle? handle)
  | reset | assign .. | offline _ | hook _ => .done

def outcome (s : Session) (op : Operation) : Outcome where
  reply := op.reply s
  asked := (op.perform s).service.asked.drop s.service.asked.length
  epoch := (op.perform s).cache.epoch.toNat

def isReset : Operation → Bool
  | reset => true
  | _ => false

end Operation

def Session.outcomes : List Operation → Session → List Outcome
  | [], _ => []
  | op :: ops, s => op.outcome s :: outcomes ops (op.perform s)

namespace Memo

def perform (m : Memo) (service : Service) : Operation → Step Reply
  | .resolve kind => (m.resolve kind service).map (.ofResult .handle)
  | .resolveAll kinds => (m.resolveAll kinds service).map (.ofResult .handles)
  | .preload => (m.resolveAll Kind.all service).map (.ofResult fun _ => .done)
  | .cached kind => ⟨.cached (m.table kind), [], m, service⟩
  | .kindForHandle handle => ⟨.kind (m.kindForHandle? handle), [], m, service⟩
  | .reset => ⟨.done, [], m.reset, service⟩
  | .assign id handle => ⟨.done, [], m, service.assign id handle⟩
  | .offline reason => ⟨.done, [], m, service.turn reason⟩
  | .hook events => ⟨.done, [], m, { service with hooks := service.hooks ++ [events] }⟩

def Step.outcome (step : Step Reply) : Outcome :=
  ⟨step.given, step.asked.map Kind.stableId, step.memo.resets⟩

def outcomes : List Operation → Memo → Service → List Outcome
  | [], _, _ => []
  | op :: ops, m, service =>
      let step := m.perform service op
      step.outcome :: outcomes ops step.memo step.service

/-- The service logs what it was asked for and still has nothing in store that enters the
resolver; the memo was reset the given number of times. -/
structure Step.Served {α : Type} (m : Memo) (service : Service) (resets : Nat) (step : Step α) :
    Prop where
  asked : step.service.asked = service.asked ++ step.asked.map Kind.stableId
  calm : step.service.Calm
  resets : step.memo.resets = m.resets + resets

variable {service : Service}

theorem Step.Served.unasked {α : Type} {m memo : Memo} {after : Service} {resets : Nat} {given : α}
    (asked : after.asked = service.asked) (calm : after.Calm)
    (count : memo.resets = m.resets + resets) :
    (Step.mk given [] memo after).Served m service resets :=
  ⟨by simp [asked], calm, count⟩

theorem resolve_served (m : Memo) (calm : service.Calm) (kind : Kind) :
    (m.resolve kind service).Served m service 0 := by
  rw [resolve]
  cases m.table kind with
  | some handle => exact .unasked rfl calm rfl
  | none =>
      have asked := service.asked_serve kind.stableId
      cases service.answer kind.stableId with
      | assigned | unassigned | unavailable => exact ⟨asked, calm.serve _, rfl⟩

theorem resolveAll_served (kinds : List Kind) (m : Memo) (calm : service.Calm) :
    (m.resolveAll kinds service).Served m service 0 := by
  induction kinds generalizing m service with
  | nil => exact .unasked rfl calm rfl
  | cons kind kinds ih =>
      have first := m.resolve_served calm kind
      rw [resolveAll]
      cases (m.resolve kind service).given with
      | error e => exact ⟨first.asked, first.calm, first.resets⟩
      | ok handle =>
          have others := ih (m.resolve kind service).memo first.calm
          refine ⟨?_, others.calm, others.resets.trans first.resets⟩
          simp [others.asked, first.asked]

theorem perform_served (m : Memo) (calm : service.Calm) {op : Operation}
    (calmly : ∀ events, op = .hook events → ∀ e ∈ events, e.enters = false) :
    (m.perform service op).Served m service (if op.isReset then 1 else 0) := by
  cases op with
  | resolve kind =>
      have looked := m.resolve_served calm kind
      exact ⟨looked.asked, looked.calm, looked.resets⟩
  | resolveAll kinds =>
      have looked := m.resolveAll_served kinds calm
      exact ⟨looked.asked, looked.calm, looked.resets⟩
  | preload =>
      have looked := m.resolveAll_served Kind.all calm
      exact ⟨looked.asked, looked.calm, looked.resets⟩
  | cached kind | kindForHandle handle | reset => exact .unasked rfl calm rfl
  | assign id handle => exact .unasked (by cases handle <;> rfl) (calm.assign id handle) rfl
  | offline reason => exact .unasked rfl calm rfl
  | hook events =>
      refine .unasked rfl (fun events' member => ?_) rfl
      rcases List.mem_append.mp member with earlier | new
      · exact calm events' earlier
      · exact calmly events' (by rw [List.mem_singleton.mp new])

/-- The memo has what can be read of the cache: entries of the current epoch, by kind. -/
structure Abstracts (m : Memo) (s : Session) : Prop where
  table : ∀ kind, s.cached? kind = m.table kind
  epoch : s.cache.epoch = UInt64.ofNat m.resets

namespace Abstracts

variable {m : Memo} {s : Session}

theorem start (service : Service) : empty.Abstracts (.new service) := ⟨fun _ => rfl, rfl⟩

theorem reset (abstracts : m.Abstracts s) : m.reset.Abstracts s.reset where
  table := fun _ => rfl
  epoch := by simp [Session.reset, HandleCache.reset, Memo.reset, abstracts.epoch]

theorem serve (abstracts : m.Abstracts s) (service : Service) :
    m.Abstracts { s with service } := ⟨abstracts.table, abstracts.epoch⟩

theorem store (abstracts : m.Abstracts s) (kind : Kind) (handle : Handle) :
    (m.store kind handle).Abstracts
      { s with cache := s.cache.insert kind.stableId ⟨handle, s.cache.epoch⟩ } where
  table := by
    intro other
    rcases eq_or_ne other kind with same | apart
    · rw [same, table_store_self]
      exact HandleCache.getIn_eq_some_iff.mpr (HandleCache.lookup_insert_self _ _ _)
    · rw [table_store_of_ne m handle apart, ← abstracts.table other]
      exact HandleCache.get_insert_of_ne s.cache (Kind.stableId_injective.ne apart) _
  epoch := abstracts.epoch

theorem kindForHandle (abstracts : m.Abstracts s) (handle : Handle) :
    s.kindForHandle? handle = m.kindForHandle? handle := by
  simp only [Session.kindForHandle?, Memo.kindForHandle?, abstracts.table]

end Abstracts

/-- The session gives what the memo gives, leaves the service as the memo leaves it, and goes on
with the memo. -/
structure Step.Agrees {α : Type} (step : Step α) (outcome : α × Session) : Prop where
  given : outcome.1 = step.given
  service : outcome.2.service = step.service
  abstracts : step.memo.Abstracts outcome.2

theorem Step.Agrees.map {α β : Type} {step : Step α} {outcome : α × Session}
    (agrees : step.Agrees outcome) (f : α → β) :
    (step.map f).Agrees (f outcome.1, outcome.2) :=
  ⟨congrArg f agrees.given, agrees.service, agrees.abstracts⟩

variable {m : Memo} {s : Session}

theorem resolve_agrees (abstracts : m.Abstracts s) (calm : s.service.Calm) (kind : Kind) :
    (m.resolve kind s.service).Agrees (s.resolve kind) := by
  rw [Session.resolve_of_calm calm, resolve, abstracts.table]
  cases m.table kind with
  | some handle => exact ⟨rfl, rfl, abstracts⟩
  | none =>
      have served := abstracts.serve (s.service.serve kind.stableId)
      cases s.service.answer kind.stableId with
      | assigned handle => exact ⟨rfl, rfl, served.store kind handle⟩
      | unassigned | unavailable => exact ⟨rfl, rfl, served⟩

theorem resolveAll_agrees (kinds : List Kind) (abstracts : m.Abstracts s)
    (calm : s.service.Calm) : (m.resolveAll kinds s.service).Agrees (s.resolveAll kinds) := by
  induction kinds generalizing m s with
  | nil => exact ⟨rfl, rfl, abstracts⟩
  | cons kind kinds ih =>
      have first := resolve_agrees abstracts calm kind
      have calm' := (m.resolve_served calm kind).calm
      rw [← first.service] at calm'
      have others := ih first.abstracts calm'
      rw [first.service] at others
      rw [resolveAll, Session.resolveAll_cons, ← first.given]
      cases (s.resolve kind).1 with
      | error e => exact ⟨rfl, first.service, first.abstracts⟩
      | ok handle =>
          exact ⟨congrArg (Except.map _) others.given, others.service, others.abstracts⟩

theorem perform_agrees (op : Operation) (abstracts : m.Abstracts s) (calm : s.service.Calm) :
    (m.perform s.service op).Agrees (op.reply s, op.perform s) := by
  cases op with
  | resolve kind => exact (resolve_agrees abstracts calm kind).map _
  | resolveAll kinds => exact (resolveAll_agrees kinds abstracts calm).map _
  | preload =>
      have all := resolveAll_agrees Kind.all abstracts calm
      rw [Operation.reply, Operation.perform, Session.preload_eq, Reply.ofResult_map]
      exact all.map _
  | cached kind => exact ⟨congrArg Reply.cached (abstracts.table kind), rfl, abstracts⟩
  | kindForHandle handle =>
      exact ⟨congrArg Reply.kind (abstracts.kindForHandle handle), rfl, abstracts⟩
  | reset => exact ⟨rfl, rfl, abstracts.reset⟩
  | assign | offline | hook => exact ⟨rfl, rfl, abstracts.serve _⟩

theorem outcome_eq {op : Operation} (abstracts : m.Abstracts s) (calm : s.service.Calm)
    (calmly : ∀ events, op = .hook events → ∀ e ∈ events, e.enters = false)
    (few : m.resets + (if op.isReset then 1 else 0) < UInt64.size) :
    op.outcome s = (m.perform s.service op).outcome := by
  have agrees := perform_agrees op abstracts calm
  have served := m.perform_served calm calmly
  have asked : (op.perform s).service.asked.drop s.service.asked.length =
      (m.perform s.service op).asked.map Kind.stableId := by
    rw [agrees.service, served.asked, List.drop_left]
  have epoch : (op.perform s).cache.epoch.toNat = (m.perform s.service op).memo.resets := by
    rw [agrees.abstracts.epoch, UInt64.toNat_ofNat', Nat.mod_eq_of_lt]
    rw [served.resets]
    exact few
  rw [Operation.outcome, Step.outcome, asked, epoch]
  exact congrArg (Outcome.mk · _ _) agrees.given

theorem outcomes_eq (ops : List Operation) (abstracts : m.Abstracts s) (calm : s.service.Calm)
    (calmly : ∀ events, .hook events ∈ ops → ∀ e ∈ events, e.enters = false)
    (few : m.resets + ops.countP Operation.isReset < UInt64.size) :
    Session.outcomes ops s = Memo.outcomes ops m s.service := by
  induction ops generalizing m s with
  | nil => rfl
  | cons op ops ih =>
      have calmly' : ∀ events, op = .hook events → ∀ e ∈ events, e.enters = false := by
        intro events same
        exact calmly events (by simp [same])
      have agrees := perform_agrees op abstracts calm
      have served := m.perform_served calm calmly'
      rw [List.countP_cons] at few
      have first := outcome_eq abstracts calm calmly' (by omega)
      have others := ih agrees.abstracts (by rw [agrees.service]; exact served.calm)
        (fun events later => calmly events (List.mem_cons_of_mem _ later))
        (by rw [served.resets]; omega)
      rw [Session.outcomes, Memo.outcomes, first, others, agrees.service]

end Memo

namespace Session

/-- A resolver that is not entered while it asks is a memo, however the service changes between
its calls and during them. -/
theorem outcomes_eq_memo (service : Service) (ops : List Operation) (calm : service.Calm)
    (calmly : ∀ events, .hook events ∈ ops → ∀ e ∈ events, e.enters = false)
    (few : ops.countP Operation.isReset < UInt64.size) :
    outcomes ops (.new service) = Memo.outcomes ops .empty service :=
  Memo.outcomes_eq ops (.start service) calm calmly (by simpa [Memo.empty] using few)

/-- What was found stays found while the service is out of reach, a failure leaves nothing behind,
and `or` becomes assigned during the call for `and`. -/
theorem outcomes_eq_memo_changing :
    let and := Kind.and.stableId
    let or := Kind.or.stableId
    let ops : List Operation := [.resolve .and, .assign and (some ⟨7⟩),
      .resolveAll [.and, .and, .or], .offline (some "down"), .preload, .resolve .and,
      .kindForHandle ⟨7⟩, .reset, .cached .and, .offline none, .hook [.assign or (some ⟨8⟩)],
      .resolveAll [.and, .or]]
    let service : Service := ⟨[], none, [], []⟩
    Memo.outcomes ops .empty service =
        [⟨.failed (.notAssigned .and and), [and], 0⟩, ⟨.done, [], 0⟩,
          ⟨.failed (.notAssigned .or or), [and, or], 0⟩, ⟨.done, [], 0⟩,
          ⟨.failed (.unavailable .necessarySet Kind.necessarySet.stableId "down"),
            [Kind.necessarySet.stableId], 0⟩,
          ⟨.handle ⟨7⟩, [], 0⟩, ⟨.kind (some .and), [], 0⟩, ⟨.done, [], 1⟩, ⟨.cached none, [], 1⟩,
          ⟨.done, [], 1⟩, ⟨.done, [], 1⟩, ⟨.handles [(.and, ⟨7⟩), (.or, ⟨8⟩)], [and, or], 1⟩] ∧
      outcomes ops (.new service) = Memo.outcomes ops .empty service := by
  intro and or ops service
  have calm : service.Calm := by simp [service, Service.Calm]
  have calmly : ∀ events, .hook events ∈ ops → ∀ e ∈ events, e.enters = false := by
    simp [ops, Event.enters]
  exact ⟨by decide +kernel, outcomes_eq_memo service ops calm calmly (by decide)⟩

end Session

end Terminology
