import Terminology.Proofs.Resolver.Freshness
import Terminology.Proofs.Resolver.Memo
import Terminology.Resolver.Shared

/-!
What lookups that overlap find in the cache. An entry is found only by a lookup that loaded the
epoch of the entry, which is the epoch that the lookup behind the entry loaded. So what is found is
as old as the lookup that finds it: a lookup that a reset overtook before it read the cache may find
what was asked before the reset, and no other lookup does.
-/

namespace Terminology

def Began (past : List Mark) (number : Nat) (kind : Kind) (resets : Nat) : Prop :=
  ∃ before after, past = before ++ .began number kind :: after ∧ before.count .reset = resets

/-- A lookup began after the last reset. -/
def BeganSinceReset (past : List Mark) (number : Nat) (kind : Kind) : Prop :=
  ∃ before after, past = before ++ .began number kind :: after ∧ .reset ∉ after

/-- The service answered a lookup with the handle of an entry, and that lookup loaded the epoch of
the entry. -/
def Stored (past : List Mark) (id : Uuid) (entry : CachedHandle) : Prop :=
  ∃ number kind resets, kind.stableId = id ∧
    .answered number kind (.assigned entry.handle) ∈ past ∧
      Began past number kind resets ∧ entry.epoch = UInt64.ofNat resets

section

variable {past : List Mark} {number resets : Nat} {kind : Kind}

theorem Began.append (began : Began past number kind resets) (more : List Mark) :
    Began (past ++ more) number kind resets := by
  rcases began with ⟨before, after, shape, count⟩
  exact ⟨before, after ++ more, by simp [shape], count⟩

theorem Began.le (began : Began past number kind resets) : resets ≤ past.count .reset := by
  rcases began with ⟨before, after, rfl, rfl⟩
  rw [List.count_append]
  exact Nat.le_add_right _ _

theorem beganSinceReset_iff :
    BeganSinceReset past number kind ↔ Began past number kind (past.count .reset) := by
  refine exists_congr fun before => exists_congr fun after => and_congr_right fun shape => ?_
  have total : past.count .reset = before.count .reset + after.count .reset := by
    simp [shape, List.count_append]
  rw [total, ← List.count_eq_zero]
  omega

theorem Stored.append {id : Uuid} {entry : CachedHandle} (stored : Stored past id entry)
    (more : List Mark) : Stored (past ++ more) id entry := by
  rcases stored with ⟨number, kind, resets, same, answered, began, loaded⟩
  exact ⟨number, kind, resets, same, List.mem_append_left _ answered, began.append more, loaded⟩

end

theorem getElem?_snoc_eq_some {α : Type} {xs : List α} {a b : α} {i : Nat}
    (there : (xs ++ [a])[i]? = some b) : xs[i]? = some b ∨ i = xs.length ∧ b = a := by
  rw [List.getElem?_append] at there
  split at there
  · exact .inl there
  · rename_i behind
    rw [List.getElem?_singleton] at there
    split at there
    · exact .inr ⟨by omega, (Option.some.inj there).symm⟩
    · cases there

theorem getElem?_set_eq_some {α : Type} {xs : List α} {a b : α} {i j : Nat}
    (there : (xs.set i a)[j]? = some b) : i = j ∧ b = a ∨ xs[j]? = some b := by
  rw [List.getElem?_set] at there
  split at there
  · rename_i same
    split at there
    · exact .inl ⟨same, (Option.some.inj there).symm⟩
    · cases there
  · exact .inr there

theorem HandleCache.lookup_of_lookup_forget {cache : HandleCache} {ids : List Uuid} {id : Uuid}
    {entry : CachedHandle} (found : (cache.forget ids).entries.lookup id = some entry) :
    cache.entries.lookup id = some entry := by
  rw [forget, lookup_filter fun key => !ids.contains key] at found
  split at found
  · exact found
  · cases found

/-- A step leaves the session alone, or asks the service, or ends a call. -/
theorem Lookup.step_cases (number : Nat) (l : Lookup) (s : Session) :
    let answer := s.service.answer l.kind.stableId
    (∃ stage, l.step number s = (s, stage, []) ∧ ∀ answer, stage ≠ .asked answer) ∨
      l.step number s = ({ s with service := s.service.ask l.kind.stableId }, .asked answer,
        [.answered number l.kind answer]) ∨
      ∃ answer, l.stage = .asked answer ∧
        l.step number s = (s.settle l.kind.stableId l.epoch answer, .ended answer, []) := by
  cases stage : l.stage with
  | begun =>
      left
      cases read : s.cache.getIn? l.epoch l.kind.stableId with
      | none => exact ⟨.missed, by simp [step, stage, read], nofun⟩
      | some handle => exact ⟨.found handle, by simp [step, stage, read], nofun⟩
  | missed =>
      by_cases asks : l.asks
      · right
        left
        simp [step, stage, asks]
      · left
        exact ⟨.missed, by simp [step, stage, asks], nofun⟩
  | asked answer =>
      right
      right
      exact ⟨answer, rfl, by simp [step, stage]⟩
  | found handle =>
      left
      exact ⟨.found handle, by simp [step, stage], nofun⟩
  | ended answer =>
      left
      exact ⟨.ended answer, by simp [step, stage], nofun⟩

/-- The act begins or carries on a lookup, or belongs to one of the events. -/
def Act.Serves (events : List Event) : Act → Prop
  | .start .. | .advance _ => True
  | .nextEpoch | .forget _ => .reset ∈ events
  | .assign id handle => .assign id handle ∈ events
  | .offline reason => .offline reason ∈ events

theorem Act.Serves.mono {events more : List Event} {a : Act} (serves : a.Serves events)
    (subset : events ⊆ more) : a.Serves more := by
  cases a with
  | start | advance => trivial
  | nextEpoch | forget | assign | offline => exact subset serves

namespace Shared

theorem act_advance {x : Shared} {number : Nat} {l : Lookup} (here : x.lookups[number]? = some l) :
    x.act (.advance number) =
      (⟨(l.step number x.session).1,
        x.lookups.set number { l with stage := (l.step number x.session).2.1 }⟩,
        (l.step number x.session).2.2) := by
  simp only [act, here]

/-- What was seen accounts for the epochs that lookups loaded and for the entries of the cache. -/
structure Traced (past : List Mark) (x : Shared) : Prop where
  epoch : x.session.cache.epoch = UInt64.ofNat (past.count .reset)
  numbered : ∀ number kind, .began number kind ∈ past → number < x.lookups.length
  once : ∀ number kind, past.count (.began number kind) ≤ 1
  loaded : ∀ (number : Nat) (l : Lookup), x.lookups[number]? = some l →
    ∃ resets, Began past number l.kind resets ∧ l.epoch = UInt64.ofNat resets
  asked : ∀ (number : Nat) (l : Lookup) answer, x.lookups[number]? = some l →
    l.stage = .asked answer → .answered number l.kind answer ∈ past
  entries : ∀ id entry, x.session.cache.entries.lookup id = some entry → Stored past id entry

namespace Traced

variable {past : List Mark} {x : Shared}

theorem new (service : Service) : Traced [] (.new service) where
  epoch := rfl
  numbered := by simp
  once := by simp
  loaded := by simp [Shared.new]
  asked := by simp [Shared.new]
  entries := by simp [Shared.new, Session.new, HandleCache.empty]

theorem loaded_append (traced : Traced past x) (more : List Mark) {number : Nat} {l : Lookup}
    (there : x.lookups[number]? = some l) :
    ∃ resets, Began (past ++ more) number l.kind resets ∧ l.epoch = UInt64.ofNat resets := by
  rcases traced.loaded number l there with ⟨resets, began, loaded⟩
  exact ⟨resets, began.append more, loaded⟩

theorem began_unique (traced : Traced past x) {number resets resets' : Nat} {kind : Kind}
    (began : Began past number kind resets) (began' : Began past number kind resets') :
    resets = resets' := by
  rcases began with ⟨before, after, here, rfl⟩
  rcases began' with ⟨before', after', there, rfl⟩
  rw [front_unique (traced.once number kind) here there]

theorem answered (traced : Traced past x) (number : Nat) (kind : Kind) (answer : Answer) :
    Traced (past ++ [.answered number kind answer]) x where
  epoch := by simpa [List.count_append] using traced.epoch
  numbered := by simpa using traced.numbered
  once := by simpa [List.count_append] using traced.once
  loaded _ _ there := traced.loaded_append _ there
  asked number l answer there stage :=
    List.mem_append_left _ (traced.asked number l answer there stage)
  entries id entry found := (traced.entries id entry found).append _

theorem start (traced : Traced past x) (kind : Kind) (asks : Bool) :
    Traced (past ++ [.began x.lookups.length kind])
      { x with lookups := x.lookups ++ [⟨kind, asks, x.session.cache.epoch, .begun⟩] } where
  epoch := by simpa [List.count_append] using traced.epoch
  numbered := by
    intro number other member
    rw [List.length_append, List.length_singleton]
    rcases List.mem_append.mp member with earlier | now
    · exact Nat.lt_succ_of_lt (traced.numbered number other earlier)
    · rcases Mark.began.inj (List.mem_singleton.mp now) with ⟨rfl, -⟩
      exact Nat.lt_succ_self _
  once := by
    intro number other
    rw [List.count_append]
    by_cases now : Mark.began number other = .began x.lookups.length kind
    · have fresh : Mark.began number other ∉ past := by
        intro earlier
        have bound := traced.numbered number other earlier
        rw [(Mark.began.inj now).1] at bound
        exact Nat.lt_irrefl _ bound
      rw [List.count_eq_zero.mpr fresh, ← now]
      simp
    · have apart : [Mark.began x.lookups.length kind].count (.began number other) = 0 := by
        rw [List.count_eq_zero]
        simpa using now
      rw [apart]
      exact traced.once number other
  loaded := by
    intro number l there
    rcases getElem?_snoc_eq_some there with there | ⟨rfl, rfl⟩
    · exact traced.loaded_append _ there
    · exact ⟨past.count .reset, ⟨past, [], rfl, rfl⟩, traced.epoch⟩
  asked := by
    intro number l answer there stage
    rcases getElem?_snoc_eq_some there with there | ⟨rfl, rfl⟩
    · exact List.mem_append_left _ (traced.asked number l answer there stage)
    · cases stage
  entries id entry found := (traced.entries id entry found).append _

theorem nextEpoch (traced : Traced past x) :
    Traced (past ++ [.reset]) (x.withCache x.session.cache.nextEpoch) where
  epoch := by simp [withCache, HandleCache.nextEpoch, traced.epoch]
  numbered := by simpa [withCache] using traced.numbered
  once := by simpa [List.count_append] using traced.once
  loaded _ _ there := traced.loaded_append _ there
  asked number l answer there stage :=
    List.mem_append_left _ (traced.asked number l answer there stage)
  entries id entry found := (traced.entries id entry found).append _

theorem forget (traced : Traced past x) (ids : List Uuid) :
    Traced past (x.withCache (x.session.cache.forget ids)) where
  epoch := traced.epoch
  numbered := traced.numbered
  once := traced.once
  loaded := traced.loaded
  asked := traced.asked
  entries id entry found := traced.entries id entry (HandleCache.lookup_of_lookup_forget found)

theorem withService (traced : Traced past x) (service : Service) :
    Traced past (x.withService service) :=
  ⟨traced.epoch, traced.numbered, traced.once, traced.loaded, traced.asked, traced.entries⟩

variable {number : Nat} {l : Lookup}

theorem set (traced : Traced past x) (here : x.lookups[number]? = some l) (stage : Stage)
    (asked : ∀ answer, stage = .asked answer → .answered number l.kind answer ∈ past) :
    Traced past { x with lookups := x.lookups.set number { l with stage } } where
  epoch := traced.epoch
  numbered := by simpa using traced.numbered
  once := traced.once
  loaded := by
    intro other l' there
    rcases getElem?_set_eq_some there with ⟨rfl, rfl⟩ | there
    · exact traced.loaded number l here
    · exact traced.loaded other l' there
  asked := by
    intro other l' answer there
    rcases getElem?_set_eq_some there with ⟨rfl, rfl⟩ | there
    · exact asked answer
    · exact traced.asked other l' answer there
  entries := traced.entries

theorem settle (traced : Traced past x) (here : x.lookups[number]? = some l) {answer : Answer}
    (stage : l.stage = .asked answer) :
    Traced past { x with session := x.session.settle l.kind.stableId l.epoch answer } := by
  cases answer with
  | unassigned | unavailable reason => exact traced
  | assigned handle =>
      refine ⟨traced.epoch, traced.numbered, traced.once, traced.loaded, traced.asked, ?_⟩
      intro id entry found
      by_cases same : id = l.kind.stableId
      · subst same
        have set : some ⟨handle, l.epoch⟩ = some entry :=
          (HandleCache.lookup_insert_self _ _ _).symm.trans found
        cases set
        -- The entry is stamped with the epoch that the lookup loaded when it began.
        rcases traced.loaded number l here with ⟨resets, began, loaded⟩
        exact ⟨number, l.kind, resets, rfl, traced.asked number l _ here stage, began, loaded⟩
      · exact traced.entries id entry ((HandleCache.lookup_insert_of_ne _ same _).symm.trans found)

theorem advance (traced : Traced past x) (here : x.lookups[number]? = some l) :
    Traced (past ++ (x.act (.advance number)).2) (x.act (.advance number)).1 := by
  rw [act_advance here]
  rcases l.step_cases number x.session with ⟨stage, stepped, not_asked⟩ | stepped |
    ⟨answer, waits, stepped⟩
  · rw [stepped, List.append_nil]
    apply traced.set here
    intro answer same
    exact absurd same (not_asked answer)
  · let answer := x.session.service.answer l.kind.stableId
    have served := (traced.answered number l.kind answer).withService
      (x.session.service.ask l.kind.stableId)
    rw [stepped]
    apply served.set here
    intro _ same
    cases same
    exact List.mem_append_right _ List.mem_cons_self
  · rw [stepped, List.append_nil]
    exact (traced.settle here waits).set here (.ended answer) nofun

theorem act (traced : Traced past x) (a : Act) : Traced (past ++ (x.act a).2) (x.act a).1 := by
  cases a with
  | start kind asks => exact traced.start kind asks
  | advance number =>
      cases here : x.lookups[number]? with
      | none => simpa only [Shared.act, here, List.append_nil] using traced
      | some l => exact traced.advance here
  | nextEpoch => exact traced.nextEpoch
  | forget ids => simpa only [Shared.act, List.append_nil] using traced.forget ids
  | assign id handle => simpa only [Shared.act, List.append_nil] using traced.withService _
  | offline reason => simpa only [Shared.act, List.append_nil] using traced.withService _

theorem run (traced : Traced past x) (acts : List Act) :
    Traced (past ++ x.seen acts) (x.after acts) := by
  induction acts generalizing past x with
  | nil => simpa only [seen, after, List.append_nil] using traced
  | cons a acts ih =>
      have behind := ih (traced.act a)
      rwa [List.append_assoc] at behind

end Traced

variable {past : List Mark} {x : Shared} {number : Nat} {kind : Kind} {handle : Handle}

/-- The next step of a lookup returns a handle; the lookup has not asked anybody by then. -/
def Hits (x : Shared) (number : Nat) (kind : Kind) (handle : Handle) : Prop :=
  ∃ l l', x.lookups[number]? = some l ∧ l.kind = kind ∧ l.stage = .begun ∧
    (x.act (.advance number)).1.lookups[number]? = some l' ∧ l'.result? = some (.ok handle)

theorem Hits.entry (hits : x.Hits number kind handle) :
    ∃ l, x.lookups[number]? = some l ∧ l.kind = kind ∧
      x.session.cache.entries.lookup kind.stableId = some ⟨handle, l.epoch⟩ := by
  rcases hits with ⟨l, l', here, rfl, stage, there, returned⟩
  refine ⟨l, here, rfl, HandleCache.getIn_eq_some_iff.mp ?_⟩
  rcases List.getElem?_eq_some_iff.mp here with ⟨bound, -⟩
  rw [act_advance here, List.getElem?_set_self bound, Option.some.injEq] at there
  subst there
  cases read : x.session.cache.getIn? l.epoch l.kind.stableId with
  | none => simp [Lookup.step, stage, read, Lookup.result?] at returned
  | some found => simpa [Lookup.step, stage, read, Lookup.result?] using returned

/-- What a lookup finds was answered in a lookup for the same kind, and no reset came between the
beginnings of the two. -/
theorem Traced.hits (traced : Traced past x) (few : past.count .reset < UInt64.size)
    (hits : x.Hits number kind handle) :
    ∃ earlier, .answered earlier kind (.assigned handle) ∈ past ∧
      (BeganSinceReset past earlier kind ↔ BeganSinceReset past number kind) := by
  rcases hits.entry with ⟨l, here, rfl, entry⟩
  rcases traced.entries _ _ entry with ⟨earlier, kind, resets, same, answered, began, stamp⟩
  cases Kind.stableId_injective same
  rcases traced.loaded number l here with ⟨resets', began', loaded⟩
  -- Both lookups loaded one epoch, and there are too few resets for its number to come round.
  have counts : resets = resets' := by
    have epochs : UInt64.ofNat resets = UInt64.ofNat resets' := stamp.symm.trans loaded
    have least := began.le
    have least' := began'.le
    rw [← UInt64.toNat_inj, UInt64.toNat_ofNat', UInt64.toNat_ofNat'] at epochs
    rw [UInt64.size] at few
    omega
  subst counts
  refine ⟨earlier, answered, ?_⟩
  rw [beganSinceReset_iff, beganSinceReset_iff]
  constructor
  · intro last
    rwa [traced.began_unique last began]
  · intro last
    rwa [traced.began_unique last began']

theorem after_append (x : Shared) (acts acts' : List Act) :
    x.after (acts ++ acts') = (x.after acts).after acts' := by
  induction acts generalizing x with
  | nil => rfl
  | cons a acts ih => exact ih (x.act a).1

/-- Acts of some events and of lookups lead from one session to another, whatever lookups are under
way, and leave those where they are. -/
def Leads (events : List Event) (s s' : Session) : Prop :=
  ∀ lookups : List Lookup, ∃ acts others, (∀ a ∈ acts, a.Serves events) ∧
    (⟨s, lookups⟩ : Shared).after acts = ⟨s', lookups ++ others⟩

/-- A lookup can begin and read the cache at once, and then return this, while nothing happens but
what is to come during calls. -/
def Returns (kind : Kind) (s : Session) (looked : Except ResolveError Handle × Session) : Prop :=
  ∀ lookups : List Lookup, ∃ acts l others,
    (∀ a ∈ acts, a.Serves s.service.hooks.flatten) ∧
    (⟨s, lookups⟩ : Shared).after (.start kind true :: .advance lookups.length :: acts) =
        ⟨looked.2, lookups ++ l :: others⟩ ∧
      l.kind = kind ∧ l.result? = some looked.1

section

variable {events : List Event} {s s' s'' : Session}

theorem Leads.refl (events : List Event) (s : Session) : Leads events s s :=
  fun lookups => ⟨[], [], by simp, by simp [after]⟩

theorem Leads.trans (first : Leads events s s') (second : Leads events s' s'') :
    Leads events s s'' := by
  intro lookups
  rcases first lookups with ⟨acts, others, serve, led⟩
  rcases second (lookups ++ others) with ⟨acts', others', serve', led'⟩
  refine ⟨acts ++ acts', others ++ others', List.forall_mem_append.mpr ⟨serve, serve'⟩, ?_⟩
  rw [after_append, led, led', List.append_assoc]

theorem Leads.mono {more : List Event} (leads : Leads events s s') (subset : events ⊆ more) :
    Leads more s s' := by
  intro lookups
  rcases leads lookups with ⟨acts, others, serve, led⟩
  exact ⟨acts, others, fun a member => (serve a member).mono subset, led⟩

theorem leads_of_act {a : Act} (serves : a.Serves events)
    (acted : ∀ lookups, ((⟨s, lookups⟩ : Shared).act a).1 = ⟨s', lookups⟩) :
    Leads events s s' := by
  intro lookups
  refine ⟨[a], [], by simpa using serves, ?_⟩
  rw [after, after, acted, List.append_nil]

theorem leads_reset (serves : .reset ∈ events) (s : Session) : Leads events s s.reset := by
  have cleared : s.cache.nextEpoch.forget (s.cache.entries.map Prod.fst) = s.cache.reset := by
    rw [HandleCache.forget, HandleCache.nextEpoch, HandleCache.reset, HandleCache.mk.injEq]
    refine ⟨?_, rfl⟩
    rw [List.filter_eq_nil_iff]
    intro entry member
    simpa using ⟨_, member⟩
  have first : Leads events s { s with cache := s.cache.nextEpoch } :=
    leads_of_act (a := .nextEpoch) serves fun _ => rfl
  have second : Leads events { s with cache := s.cache.nextEpoch } s.reset := by
    refine leads_of_act (a := .forget (s.cache.entries.map Prod.fst)) serves fun _ => ?_
    rw [Session.reset, ← cleared]
    rfl
  exact first.trans second

theorem Returns.leads {kind : Kind} {looked : Except ResolveError Handle × Session}
    (returns : Returns kind s looked) : Leads s.service.hooks.flatten s looked.2 := by
  intro lookups
  rcases returns lookups with ⟨acts, l, others, serve, led, -⟩
  refine ⟨_, l :: others, ?_, led⟩
  exact List.forall_mem_cons.mpr ⟨trivial, List.forall_mem_cons.mpr ⟨trivial, serve⟩⟩

theorem leads_of_events {resolve : Kind → Session → Except ResolveError Handle × Session}
    (inner : ∀ kind s, Returns kind s (resolve kind s))
    (hooks : ∀ kind s, (resolve kind s).2.service.hooks <:+ s.service.hooks)
    (events : List Event) (s : Session) :
    Leads (events ++ s.service.hooks.flatten) s (events.foldl (Session.happen resolve) s) := by
  induction events generalizing s with
  | nil => exact .refl _ s
  | cons e es ih =>
      have first : Leads (e :: es ++ s.service.hooks.flatten) s (Session.happen resolve s e) := by
        cases e with
        | reset => exact leads_reset List.mem_cons_self s
        | resolve kind => exact (inner kind s).leads.mono (List.subset_append_right _ _)
        | assign id handle =>
            exact leads_of_act (a := .assign id handle) List.mem_cons_self fun _ => rfl
        | offline reason =>
            exact leads_of_act (a := .offline reason) List.mem_cons_self fun _ => rfl
      -- The events to come are only used up, so those behind `e` are among those in front of it.
      have fewer : (Session.happen resolve s e).service.hooks.flatten ⊆
          s.service.hooks.flatten := by
        intro event member
        rcases List.mem_flatten.mp member with ⟨events, there, inside⟩
        have earlier := (Session.hooks_happen hooks s e).subset there
        exact List.mem_flatten.mpr ⟨events, earlier, inside⟩
      refine first.trans ((ih _).mono ?_)
      intro event member
      rcases List.mem_append.mp member with now | later
      · exact List.mem_append_left _ (List.mem_cons_of_mem _ now)
      · exact List.mem_append_right _ (fewer later)

end

theorem act_advance_at (s : Session) (lookups others : List Lookup) (l : Lookup) :
    (⟨s, lookups ++ l :: others⟩ : Shared).act (.advance lookups.length) =
      (⟨(l.step lookups.length s).1,
        lookups ++ { l with stage := (l.step lookups.length s).2.1 } :: others⟩,
        (l.step lookups.length s).2.2) := by
  have here : (lookups ++ l :: others)[lookups.length]? = some l := by simp
  rw [act_advance here]
  simp

theorem resolveWith_of_missed {during : List Event → Session → Session} {kind : Kind}
    {s : Session} (missed : s.cache.getIn? s.cache.epoch kind.stableId = none) :
    let answer := s.service.answer kind.stableId
    let entered : Session := { s with service := s.service.ask kind.stableId }
    Session.resolveWith during kind s =
      (answer.result kind, (during (s.service.hooks.head?.getD []) entered).settle kind.stableId
        s.cache.epoch answer) := by
  simp only [Session.resolveWith, missed]
  cases s.service.answer kind.stableId with
  | assigned handle => rfl
  | unassigned => rfl
  | unavailable reason => rfl

theorem returns_resolveWith {during : List Event → Session → Session}
    (inner : ∀ events s, Leads (events ++ s.service.hooks.flatten) s (during events s))
    (kind : Kind) (s : Session) : Returns kind s (Session.resolveWith during kind s) := by
  intro lookups
  let l : Lookup := ⟨kind, true, s.cache.epoch, .begun⟩
  have began (acts : List Act) :
      (⟨s, lookups⟩ : Shared).after (.start kind true :: .advance lookups.length :: acts) =
        ((⟨s, lookups ++ [l]⟩ : Shared).act (.advance lookups.length)).1.after acts := rfl
  simp only [began, act_advance_at]
  cases read : s.cache.getIn? s.cache.epoch kind.stableId with
  | some handle =>
      have found : l.step lookups.length s = (s, .found handle, []) := by
        simp [Lookup.step, l, read]
      have looked : Session.resolveWith during kind s = (.ok handle, s) := by
        simp only [Session.resolveWith, read]
      rw [found, looked]
      exact ⟨[], { l with stage := .found handle }, [], by simp, rfl, rfl, rfl⟩
  | none =>
      let answer := s.service.answer kind.stableId
      let entered : Session := { s with service := s.service.ask kind.stableId }
      let events := s.service.hooks.head?.getD []
      let waiting : Lookup := { l with stage := .asked answer }
      have missed : l.step lookups.length s = (s, .missed, []) := by
        simp [Lookup.step, l, read]
      have asked : (⟨s, lookups ++ [{ l with stage := .missed }]⟩ : Shared).act
          (.advance lookups.length) =
            (⟨entered, lookups ++ [waiting]⟩, [.answered lookups.length kind answer]) :=
        act_advance_at s lookups [] { l with stage := .missed }
      have taken : events ++ entered.service.hooks.flatten = s.service.hooks.flatten := by
        simp only [events, entered, Service.ask]
        cases s.service.hooks with
        | nil => rfl
        | cons first others => rfl
      -- What happens during the call leaves the lookup where it waits.
      rcases inner events entered (lookups ++ [waiting]) with ⟨acts, others, serve, led⟩
      rw [List.append_assoc, List.singleton_append] at led
      have ended : (⟨entered, lookups ++ [waiting]⟩ : Shared).after
          (acts ++ [.advance lookups.length]) =
            ⟨(during events entered).settle kind.stableId s.cache.epoch answer,
              lookups ++ { l with stage := .ended answer } :: others⟩ := by
        rw [after_append, led, after, act_advance_at]
        rfl
      rw [missed, resolveWith_of_missed read]
      refine ⟨.advance lookups.length :: (acts ++ [.advance lookups.length]),
        { l with stage := .ended answer }, others, ?_, ?_, rfl, rfl⟩
      · rw [taken] at serve
        rw [List.forall_mem_cons, List.forall_mem_append, List.forall_mem_singleton]
        exact ⟨trivial, serve, trivial⟩
      · rw [after, asked]
        exact ended

theorem returns_resolve (kind : Kind) (s : Session) : Returns kind s (s.resolve kind) := by
  have nested (depth : Nat) : ∀ kind s, Returns kind s (Session.resolveNested depth kind s) := by
    induction depth with
    | zero => exact returns_resolveWith fun _ s => .refl _ s
    | succ depth ih =>
        exact returns_resolveWith (leads_of_events ih (Session.hooks_resolveNested depth))
  exact nested _ kind s

/-- A handle that a lookup finds in the cache was answered in a lookup that began after the last
reset exactly if the lookup that finds it began after that reset too. A lookup can do all it does in
`resolve` with no reset between its beginning and its reading of the cache, and where every lookup
is done so, calls within calls included, no stale handle is ever read or given. -/
theorem found_as_old_as_lookup (service : Service) :
    (∀ acts number kind handle,
      let x := (Shared.new service).after acts
      let past := (Shared.new service).seen acts
      past.count .reset < UInt64.size → x.Hits number kind handle →
        ∃ earlier, .answered earlier kind (.assigned handle) ∈ past ∧
          (BeganSinceReset past earlier kind ↔ BeganSinceReset past number kind)) ∧
    (∀ kind s, Returns kind s (s.resolve kind)) ∧
    (∀ ops past kind handle future,
      Session.history ops (.new service) = past ++ .read kind (some handle) :: future →
        past.count .reset < UInt64.size → AnsweredSinceReset past kind.stableId handle) ∧
    ∀ past s kind handle, Session.Reached past s → past.count .reset < UInt64.size →
      s.Yields kind handle → AnsweredSinceReset past kind.stableId handle := by
  refine ⟨?_, returns_resolve, ?_, ?_⟩
  · intro acts number kind handle x past few hits
    exact ((Traced.new service).run acts).hits few hits
  · intro ops past kind handle future seen few
    exact Session.read_answeredSinceReset seen few
  · intro past s kind handle reached few yields
    exact reached.yields_answeredSinceReset few yields

/-- While an old lookup waits for its answer, what was asked since the reset is found; so it is in a
lookup during a call for another kind. -/
theorem found_as_old_as_lookup_meanwhile :
    let id := Kind.and.stableId
    let service : Service := ⟨[(id, ⟨7⟩)], none, [], []⟩
    let acts : List Act := [.start .and true, .advance 0, .advance 0, .nextEpoch, .forget [id],
      .start .and true, .advance 1, .advance 1, .advance 1, .start .and false]
    let x := (Shared.new service).after acts
    let past := (Shared.new service).seen acts
    let entered : Service := ⟨[(id, ⟨7⟩), (Kind.or.stableId, ⟨8⟩)], none,
      [[.resolve .or, .reset, .resolve .or, .resolve .or]], []⟩
    let nested := Session.history [.resolve .and] (.new entered)
    x.Hits 2 .and ⟨7⟩ ∧
      (∃ earlier, .answered earlier .and (.assigned ⟨7⟩) ∈ past ∧
        BeganSinceReset past earlier .and) ∧
      nested[9]? = some (.read .or (some ⟨8⟩)) ∧
        AnsweredSinceReset (nested.take 9) Kind.or.stableId ⟨8⟩ := by
  intro id service acts x past entered nested
  have hits : x.Hits 2 .and ⟨7⟩ := by
    refine ⟨⟨.and, false, 1, .begun⟩, ⟨.and, false, 1, .found ⟨7⟩⟩, ?_, rfl, rfl, ?_, rfl⟩
    · decide +kernel
    · decide +kernel
  have last : BeganSinceReset past 2 .and := ⟨past.dropLast, [], by decide +kernel, by simp⟩
  have split : nested = nested.take 9 ++ .read .or (some ⟨8⟩) :: nested.drop 10 := by decide +kernel
  obtain ⟨earlier, answered, same⟩ :=
    (found_as_old_as_lookup service).1 acts 2 .and ⟨7⟩ (by decide +kernel) hits
  have in_place := (found_as_old_as_lookup entered).2.2.1
  exact ⟨hits, ⟨earlier, answered, same.mpr last⟩, by decide +kernel,
    in_place _ _ _ _ _ split (by decide +kernel)⟩

theorem not_beganSinceReset (past : List Mark) (number : Nat) (kind : Kind) :
    ¬BeganSinceReset (past ++ [.reset]) number kind := by
  intro began
  rcases began with ⟨before, after, shape, no_reset⟩
  rcases List.eq_nil_or_concat after with rfl | ⟨others, last, rfl⟩
  · rcases List.append_inj' shape rfl with ⟨-, same⟩
    simp at same
  · have parts : past ++ [.reset] = (before ++ .began number kind :: others) ++ [last] := by
      simpa using shape
    rcases List.append_inj' parts rfl with ⟨-, same⟩
    simp [← List.singleton_inj.mp same] at no_reset

/-- A lookup that a reset overtook before it read the cache is given a handle that another lookup
asked for before the reset, although the service assigns another one by now. -/
theorem found_before_reset :
    let id := Kind.and.stableId
    let service : Service := ⟨[(id, ⟨7⟩)], none, [], []⟩
    let acts : List Act := [.start .and true, .start .and true, .advance 1, .advance 1,
      .assign id (some ⟨8⟩), .nextEpoch, .forget [id], .advance 1]
    let x := (Shared.new service).after acts
    let past := (Shared.new service).seen acts
    past.count .reset = 1 ∧ x.Hits 0 .and ⟨7⟩ ∧ x.session.service.answer id = .assigned ⟨8⟩ ∧
      ¬∃ earlier, .answered earlier .and (.assigned ⟨7⟩) ∈ past ∧
        BeganSinceReset past earlier .and := by
  intro id service acts x past
  have hits : x.Hits 0 .and ⟨7⟩ := by
    refine ⟨⟨.and, true, 0, .begun⟩, ⟨.and, true, 0, .found ⟨7⟩⟩, ?_, rfl, rfl, ?_, rfl⟩
    · decide +kernel
    · decide +kernel
  have told : past = past.dropLast ++ [.reset] := by decide +kernel
  refine ⟨by decide +kernel, hits, by decide +kernel, ?_⟩
  intro since
  rcases since with ⟨earlier, -, began⟩
  rw [told] at began
  exact not_beganSinceReset _ _ _ began

end Shared

end Terminology
