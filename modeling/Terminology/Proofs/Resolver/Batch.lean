import Terminology.Proofs.Resolver.Memo

/-!
Batches of lookups by a resolver that is not entered while it asks. The service is asked for the
kinds that are missing in the cache, each once and in the order in which they come first, until
one has no handle; what was given before that stays. Once all kinds are there nobody is asked
again before the next reset.
-/

namespace Terminology

/-- Why a kind has no handle after an answer. -/
def Answer.refusal? (kind : Kind) : Answer → Option ResolveError
  | assigned _ => none
  | unassigned => some (.notAssigned kind kind.stableId)
  | unavailable reason => some (.unavailable kind kind.stableId reason)

theorem Answer.assigned_or_refused (answer : Answer) (kind : Kind) :
    (∃ handle, answer = .assigned handle) ∨ ∃ e, answer.refusal? kind = some e := by
  cases answer with
  | assigned handle => exact .inl ⟨handle, rfl⟩
  | unassigned | unavailable reason => exact .inr ⟨_, rfl⟩

/-- Asked for the kinds one after the other, the service gives these handles and is in the end as
its calls have left it. -/
inductive Service.Gives : Service → List (Kind × Handle) → Service → Prop
  | nil (service : Service) : Gives service [] service
  | cons {service last : Service} {kind : Kind} {handle : Handle} {others : List (Kind × Handle)}
      (first : service.answer kind.stableId = .assigned handle)
      (behind : (service.serve kind.stableId).Gives others last) :
      Gives service ((kind, handle) :: others) last

namespace Service.Gives

variable {service last : Service} {given : List (Kind × Handle)}

theorem assigned {last' : Service} {given' : List (Kind × Handle)} {kind : Kind}
    {others : List Kind} (gives : service.Gives given last) (gives' : service.Gives given' last')
    (kinds : given.map Prod.fst = given'.map Prod.fst ++ kind :: others) :
    ∃ handle, last'.answer kind.stableId = .assigned handle := by
  induction gives' generalizing given with
  | nil =>
      cases gives with
      | nil => cases kinds
      | cons first behind =>
          cases kinds
          exact ⟨_, first⟩
  | cons first' behind' ih =>
      cases gives with
      | nil => cases kinds
      | cons first behind =>
          obtain ⟨rfl, rest⟩ := List.cons.inj kinds
          exact ih behind rest

end Service.Gives

theorem Service.gives_iff_of_still {service : Service} (still : service.hooks = [])
    {kinds : List Kind} :
    (∃ given last, service.Gives given last ∧ given.map Prod.fst = kinds) ↔
      ∀ kind ∈ kinds, ∃ handle, service.answer kind.stableId = .assigned handle := by
  induction kinds generalizing service with
  | nil => simpa using ⟨service, .nil service⟩
  | cons kind kinds ih =>
      have served : service.serve kind.stableId = service.ask kind.stableId := by
        rw [serve, still]
        rfl
      have still' : (service.serve kind.stableId).hooks = [] := by simp [served, ask, still]
      have behind := ih still'
      have same (other : Kind) : (service.serve kind.stableId).answer other.stableId =
          service.answer other.stableId := by
        rw [served]
        rfl
      simp only [same] at behind
      rw [List.forall_mem_cons, ← behind]
      constructor
      · intro all
        obtain ⟨_, last, gives, listed⟩ := all
        cases gives with
        | nil => cases listed
        | cons first others =>
            cases listed
            exact ⟨⟨_, first⟩, _, last, others, rfl⟩
      · intro both
        obtain ⟨⟨handle, first⟩, given, last, others, rfl⟩ := both
        exact ⟨(kind, handle) :: given, last, .cons first others, rfl⟩

theorem lookup_map_of_mem {α β γ : Type} [DecidableEq β] (key : α → β) (value : γ) {xs : List α}
    {x : α} (member : x ∈ xs) : (xs.map fun a => (key a, value)).lookup (key x) = some value := by
  induction xs with
  | nil => cases member
  | cons a as ih =>
      rw [List.map_cons, List.lookup_cons]
      rcases List.mem_cons.mp member with rfl | behind
      · simp
      · rw [ih behind]
        cases key x == key a <;> rfl

namespace Session

variable {s after : Session} {kind : Kind} {kinds : List Kind} {handle : Handle}

/-- The kinds that are not in the cache, each once, where they come first. -/
def missing (s : Session) (kinds : List Kind) : List Kind :=
  (kinds.filter fun kind => (s.cached? kind).isNone).eraseDups

/-- What can be read afterwards is what could be read before and what was given since. -/
def Learned (s after : Session) (given : List (Kind × Handle)) : Prop :=
  ∀ kind, after.cached? kind = (s.cached? kind).or (given.lookup kind)

/-- What comes of looking up the kinds of a list. -/
inductive Batch (s : Session) (kinds : List Kind) (after : Session) :
    Except ResolveError (List (Kind × Handle)) → Prop
  | complete {given pairs : List (Kind × Handle)}
      (gives : s.service.Gives given after.service)
      (all : given.map Prod.fst = s.missing kinds)
      (asked : after.service.asked = s.service.asked ++ (s.missing kinds).map Kind.stableId)
      (learned : s.Learned after given)
      (order : pairs.map Prod.fst = kinds)
      (handles : ∀ pair ∈ pairs, after.cached? pair.1 = some pair.2) :
      Batch s kinds after (.ok pairs)
  | stopped {given : List (Kind × Handle)} {last : Service} {kind : Kind} {others : List Kind}
      {e : ResolveError}
      (gives : s.service.Gives given last)
      (next : s.missing kinds = given.map Prod.fst ++ kind :: others)
      (refused : (last.answer kind.stableId).refusal? kind = some e)
      (asked : after.service.asked =
        s.service.asked ++ (given.map Prod.fst ++ [kind]).map Kind.stableId)
      (learned : s.Learned after given) :
      Batch s kinds after (.error e)

def learn (s : Session) (kind : Kind) (handle : Handle) : Session :=
  ⟨s.cache.insert kind.stableId ⟨handle, s.cache.epoch⟩, s.service.serve kind.stableId⟩

theorem cached_learn (s : Session) (kind : Kind) (handle : Handle) (other : Kind) :
    (s.learn kind handle).cached? other =
      if other = kind then some handle else s.cached? other := by
  split
  · rename_i same
    rw [same]
    exact HandleCache.getIn_eq_some_iff.mpr (HandleCache.lookup_insert_self _ _ _)
  · rename_i apart
    exact HandleCache.get_insert_of_ne s.cache (Kind.stableId_injective.ne apart) _

theorem resolve_of_assigned (calm : s.service.Calm) (absent : s.cached? kind = none)
    (answer : s.service.answer kind.stableId = .assigned handle) :
    s.resolve kind = (.ok handle, s.learn kind handle) := by
  rw [resolve_of_calm calm, absent]
  simp only [answer]
  rfl

theorem resolve_of_refused (calm : s.service.Calm) (absent : s.cached? kind = none)
    {e : ResolveError} (refused : (s.service.answer kind.stableId).refusal? kind = some e) :
    s.resolve kind = (.error e, { s with service := s.service.serve kind.stableId }) := by
  rw [resolve_of_calm calm, absent]
  cases answer : s.service.answer kind.stableId with
  | assigned handle =>
      rw [answer] at refused
      cases refused
  | unassigned | unavailable reason =>
      rw [answer] at refused
      cases refused
      rfl

theorem missing_of_cached (cached : s.cached? kind = some handle) (kinds : List Kind) :
    s.missing (kind :: kinds) = s.missing kinds := by
  simp [missing, cached]

theorem missing_of_absent (absent : s.cached? kind = none) (handle : Handle) (kinds : List Kind) :
    s.missing (kind :: kinds) = kind :: (s.learn kind handle).missing kinds := by
  have others :
      (kinds.filter fun other => (s.cached? other).isNone).filter (fun other => !other == kind) =
      kinds.filter fun other => ((s.learn kind handle).cached? other).isNone := by
    rw [List.filter_filter]
    apply List.filter_congr
    intro other _
    by_cases same : other = kind <;> simp [cached_learn, same]
  rw [missing, missing, List.filter_cons_of_pos (by simp [absent]), List.eraseDups_cons, others]

theorem learned_nil (s : Session) (service : Service) : s.Learned { s with service } [] := by
  intro kind
  exact Option.or_none.symm

theorem Learned.learn {given : List (Kind × Handle)} (absent : s.cached? kind = none)
    (learned : (s.learn kind handle).Learned after given) :
    s.Learned after ((kind, handle) :: given) := by
  intro other
  rw [learned other, cached_learn]
  by_cases same : other = kind
  · simp [same, absent]
  · have different : (other == kind) = false := by simpa using same
    simp [same, List.lookup_cons, different]

variable {result : Except ResolveError (List (Kind × Handle))}

theorem Batch.of_cached (cached : s.cached? kind = some handle)
    (batch : Batch s kinds after result) :
    Batch s (kind :: kinds) after (result.map fun pairs => (kind, handle) :: pairs) := by
  have same := missing_of_cached cached kinds
  cases batch with
  | complete gives all asked learned order handles =>
      rw [← same] at all asked
      refine .complete gives all asked learned (congrArg _ order) ?_
      refine List.forall_mem_cons.mpr ⟨?_, handles⟩
      rw [learned kind, cached]
      rfl
  | stopped gives next refused asked learned =>
      rw [← same] at next
      exact .stopped gives next refused asked learned

theorem Batch.of_assigned (absent : s.cached? kind = none)
    (answer : s.service.answer kind.stableId = .assigned handle)
    (batch : Batch (s.learn kind handle) kinds after result) :
    Batch s (kind :: kinds) after (result.map fun pairs => (kind, handle) :: pairs) := by
  have more := missing_of_absent absent handle kinds
  have first : (s.learn kind handle).service.asked = s.service.asked ++ [kind.stableId] :=
    Service.asked_serve _ _
  cases batch with
  | complete gives all asked learned order handles =>
      refine .complete (.cons answer gives) ?_ ?_ (learned.learn absent) (congrArg _ order) ?_
      · rw [more, List.map_cons, all]
      · rw [more, asked, first]
        simp
      · refine List.forall_mem_cons.mpr ⟨?_, handles⟩
        rw [learned kind, cached_learn]
        simp
  | stopped gives next refused asked learned =>
      have next' := more.trans (congrArg (List.cons kind) next)
      refine .stopped (.cons answer gives) next' refused ?_ (learned.learn absent)
      rw [asked, first]
      simp

theorem Batch.of_refused (absent : s.cached? kind = none) {e : ResolveError}
    (refused : (s.service.answer kind.stableId).refusal? kind = some e) :
    Batch s (kind :: kinds) { s with service := s.service.serve kind.stableId } (.error e) := by
  -- The handle is not looked at; any will do to name the kinds behind this one.
  have next := missing_of_absent absent ⟨0⟩ kinds
  exact .stopped (.nil s.service) next refused (Service.asked_serve _ _) (learned_nil s _)

theorem batch_of_resolveAll (calm : s.service.Calm) (kinds : List Kind) :
    Batch s kinds (s.resolveAll kinds).2 (s.resolveAll kinds).1 := by
  induction kinds generalizing s with
  | nil => exact .complete (.nil _) rfl (by simp [missing, resolveAll]) (learned_nil s _) rfl nofun
  | cons kind kinds ih =>
      rw [resolveAll_cons]
      cases cached : s.cached? kind with
      | some handle =>
          rw [resolve_of_cached cached]
          exact (ih calm).of_cached cached
      | none =>
          rcases (s.service.answer kind.stableId).assigned_or_refused kind with
            ⟨handle, answer⟩ | ⟨e, refused⟩
          · rw [resolve_of_assigned calm cached answer]
            exact (ih (s := s.learn kind handle) (calm.serve _)).of_assigned cached answer
          · rw [resolve_of_refused calm cached refused]
            exact .of_refused cached refused

theorem resolveAll_eq_ok_iff (calm : s.service.Calm) :
    (∃ pairs, (s.resolveAll kinds).1 = .ok pairs) ↔
      ∃ given last, s.service.Gives given last ∧ given.map Prod.fst = s.missing kinds := by
  have batch := batch_of_resolveAll calm kinds
  cases outcome : (s.resolveAll kinds).1 with
  | ok pairs =>
      rw [outcome] at batch
      cases batch with
      | complete gives all asked learned order handles =>
          exact iff_of_true ⟨pairs, rfl⟩ ⟨_, _, gives, all⟩
  | error e =>
      rw [outcome] at batch
      cases batch with
      | @stopped given last kind others _ gives next refused asked learned =>
          apply iff_of_false nofun
          intro every
          obtain ⟨given', last', gives', all⟩ := every
          obtain ⟨handle, answer⟩ := gives'.assigned gives (all.trans next)
          rw [answer] at refused
          cases refused

/-- Every kind is in the cache, and whatever is done short of a reset, the service is not asked. -/
structure Loaded (s : Session) : Prop where
  cached : ∀ kind, ∃ handle, s.cached? kind = some handle
  unasked : ∀ ops, (∀ op ∈ ops, op.isReset = false) →
    (performAll ops s).service.asked = s.service.asked

theorem resolveAll_of_cached (cached : ∀ kind, ∃ handle, s.cached? kind = some handle)
    (kinds : List Kind) : (s.resolveAll kinds).2 = s := by
  induction kinds with
  | nil => rfl
  | cons kind kinds ih =>
      obtain ⟨handle, here⟩ := cached kind
      rw [resolveAll_cons, resolve_of_cached here]
      exact ih

theorem perform_of_cached (cached : ∀ kind, ∃ handle, s.cached? kind = some handle)
    {op : Operation} (kept : op.isReset = false) :
    (op.perform s).cache = s.cache ∧ (op.perform s).service.asked = s.service.asked := by
  cases op with
  | resolve kind =>
      obtain ⟨handle, here⟩ := cached kind
      rw [Operation.perform, resolve_of_cached here]
      exact ⟨rfl, rfl⟩
  | resolveAll kinds =>
      rw [Operation.perform, resolveAll_of_cached cached]
      exact ⟨rfl, rfl⟩
  | preload =>
      rw [Operation.perform, preload_eq, resolveAll_of_cached cached]
      exact ⟨rfl, rfl⟩
  | reset => cases kept
  | assign id handle => cases handle <;> exact ⟨rfl, rfl⟩
  | cached | kindForHandle | offline | hook => exact ⟨rfl, rfl⟩

theorem loaded_of_cached (cached : ∀ kind, ∃ handle, s.cached? kind = some handle) : s.Loaded := by
  refine ⟨cached, ?_⟩
  intro ops kept
  induction ops generalizing s with
  | nil => rfl
  | cons op ops ih =>
      obtain ⟨first, others⟩ := List.forall_mem_cons.mp kept
      obtain ⟨cache, asked⟩ := perform_of_cached cached first
      have cached' : ∀ kind, ∃ handle, (op.perform s).cached? kind = some handle := by
        intro kind
        rw [cached?, cache]
        exact cached kind
      exact (ih cached' others).trans asked

theorem Batch.loaded {pairs : List (Kind × Handle)} (batch : Batch s Kind.all after (.ok pairs)) :
    after.Loaded := by
  cases batch with
  | complete gives all asked learned order handles =>
      apply loaded_of_cached
      intro kind
      have listed := Kind.mem_all kind
      rw [← order] at listed
      obtain ⟨pair, member, rfl⟩ := List.mem_map.mp listed
      exact ⟨pair.2, handles pair member⟩

theorem preload_eq_ok_iff :
    s.preload.1 = .ok () ↔ ∃ pairs, (s.resolveAll Kind.all).1 = .ok pairs := by
  rw [preload_eq]
  cases (s.resolveAll Kind.all).1 <;> simp [Except.map]

theorem loaded_of_preload (calm : s.service.Calm) (done : s.preload.1 = .ok ()) :
    s.preload.2.Loaded := by
  obtain ⟨pairs, outcome⟩ := preload_eq_ok_iff.mp done
  have batch := batch_of_resolveAll calm Kind.all
  rw [outcome] at batch
  rw [preload_eq]
  exact batch.loaded

theorem missing_new (service : Service) : (new service).missing Kind.all = Kind.all := by
  have absent : ∀ kind, (new service).cached? kind = none := fun _ => rfl
  simp only [missing, absent, Option.isNone_none, List.filter_true]
  rfl

/-- A batch of lookups is lookups in order that ask for what is missing and no more: for each kind
that is not in the cache once, where it comes first, up to the first one that has no handle. So
all kinds can be preloaded exactly if the service gives a handle for each that is missing, and
then it is not asked before the next reset; and so for a resolver that is made to be preloaded. -/
theorem resolveAll_asks_missing (s : Session) (calm : s.service.Calm) :
    (∀ kinds, Batch s kinds (s.resolveAll kinds).2 (s.resolveAll kinds).1) ∧
      (s.preload.1 = .ok () ↔
        ∃ given last, s.service.Gives given last ∧ given.map Prod.fst = s.missing Kind.all) ∧
      (s.preload.1 = .ok () → s.preload.2.Loaded) ∧
      ((make true s.service).1 = .ok () ↔
        ∃ given last, s.service.Gives given last ∧ given.map Prod.fst = Kind.all) ∧
      ((make true s.service).1 = .ok () → (make true s.service).2.Loaded) := by
  have fresh : make true s.service = (new s.service).preload := rfl
  have calm' : (new s.service).service.Calm := calm
  refine ⟨batch_of_resolveAll calm, ?_, loaded_of_preload calm, ?_, loaded_of_preload calm'⟩
  · rw [preload_eq_ok_iff, resolveAll_eq_ok_iff calm]
  · rw [fresh, preload_eq_ok_iff, resolveAll_eq_ok_iff calm', missing_new]
    rfl

/-- An entry of the current epoch and a stale one, a kind that comes twice, one that becomes
assigned during the call before, and one that has no handle; and a service that has them all. -/
theorem resolveAll_asks_missing_stale :
    let and := Kind.and.stableId
    let or := Kind.or.stableId
    let concept := Kind.concept.stableId
    let s : Session := ⟨⟨[(and, ⟨⟨7⟩, 1⟩), (or, ⟨⟨9⟩, 0⟩)], 1⟩,
      ⟨[(concept, ⟨5⟩)], none, [[.assign or (some ⟨8⟩)]], []⟩⟩
    let kinds : List Kind := [.concept, .and, .concept, .or, .feature, .template]
    let all : Service := ⟨Kind.all.map fun kind => (kind.stableId, ⟨7⟩), none, [], []⟩
    s.missing kinds = [.concept, .or, .feature, .template] ∧
      (s.resolveAll kinds).1 = .error (.notAssigned .feature Kind.feature.stableId) ∧
      (s.resolveAll kinds).2.service.asked = [concept, or, Kind.feature.stableId] ∧
      (s.resolveAll kinds).2.cached? .or = some ⟨8⟩ ∧
      Batch s kinds (s.resolveAll kinds).2 (s.resolveAll kinds).1 ∧
      (make true all).1 = .ok () ∧ (make true all).2.Loaded := by
  intro and or concept s kinds all
  have calm : s.service.Calm := by simp [s, Service.Calm, Event.enters]
  have calm_all : (new all).service.Calm := by simp [new, all, Service.Calm]
  obtain ⟨-, -, -, made_iff, loaded⟩ := resolveAll_asks_missing (new all) calm_all
  have made : (make true all).1 = .ok () := by
    refine made_iff.mpr ((Service.gives_iff_of_still rfl).mpr fun kind member => ⟨⟨7⟩, ?_⟩)
    have listed := lookup_map_of_mem Kind.stableId (⟨7⟩ : Handle) member
    simp only [new, all, Service.answer, listed]
  refine ⟨by decide +kernel, by decide +kernel, by decide +kernel, by decide +kernel,
    (resolveAll_asks_missing s calm).1 kinds, made, loaded made⟩

end Session

end Terminology
