import Terminology.Proofs.Resolver.Reads

/-!
What resets mean for what is read as long as every lookup runs to its end before its caller goes on.
Nothing is read that was asked before the last reset. What was asked since stays readable until an
older call for the same identifier ends: such a call takes the entry away, and exactly such a call
does.
-/

namespace Terminology

/-- A call for an identifier ended with a handle; `during` was seen while it was in flight, and
`after` since. -/
def Ended (past : List Moment) (id : Uuid) (handle : Handle) (during after : List Moment) : Prop :=
  ∃ before call, past = before ++ .asked call id (.assigned handle) ::
    (during ++ .answered call id (.assigned handle) :: after)

/-- The handle is what the service answered for the identifier in a call that began after the last
reset. -/
def AnsweredSinceReset (past : List Moment) (id : Uuid) (handle : Handle) : Prop :=
  ∃ during after, Ended past id handle during after ∧ .reset ∉ during ∧ .reset ∉ after

theorem Kept.answeredSinceReset {past : List Moment} {id : Uuid} {handle : Handle}
    (kept : Kept past id handle) (few : past.count .reset < UInt64.size) :
    AnsweredSinceReset past id handle := by
  obtain ⟨before, during, brought, turns⟩ := kept
  have total := brought.count
  have none_during := Nat.eq_zero_of_dvd_of_lt turns (by omega)
  obtain ⟨call, after, quiet, shape⟩ := brought
  exact ⟨during, after, ⟨before, call, shape⟩, List.count_eq_zero.mp none_during, quiet.1⟩

theorem Recorded.answeredSinceReset {past : List Moment} {s : Session}
    (recorded : Recorded past s) (few : past.count .reset < UInt64.size) {kind : Kind}
    {handle : Handle} (cached : s.cached? kind = some handle) :
    AnsweredSinceReset past kind.stableId handle :=
  (recorded.cached_eq_some_iff.mp cached).answeredSinceReset few

namespace Session

/-- A handle is given for a kind without asking the service. Behind its first kind a batch goes on
as a batch of the others. -/
inductive Yields (s : Session) (kind : Kind) (handle : Handle) : Prop
  | cached (found : s.cached? kind = some handle)
  | kindForHandle (found : s.kindForHandle? handle = some kind)
  | resolve (given : (s.resolve kind).1 = .ok handle)
      (unasked : (s.resolve kind).2.service.asked = s.service.asked)
  | resolveAll {kinds : List Kind} {pairs : List (Kind × Handle)}
      (given : (s.resolveAll (kind :: kinds)).1 = .ok ((kind, handle) :: pairs))
      (unasked : (s.resolve kind).2.service.asked = s.service.asked)

theorem Yields.cached_eq {s : Session} {kind : Kind} {handle : Handle}
    (yields : s.Yields kind handle) : s.cached? kind = some handle := by
  have of_resolve (given : (s.resolve kind).1 = .ok handle)
      (unasked : (s.resolve kind).2.service.asked = s.service.asked) :
      s.cached? kind = some handle := by
    have seen := lookupMoments_eq_read_iff_given.mpr ⟨given, unasked⟩
    exact lookupMoments_eq_read_iff_cached.mp seen
  cases yields with
  | cached found => exact found
  | kindForHandle found => simpa using List.find?_some found
  | resolve given unasked => exact of_resolve given unasked
  | resolveAll given unasked => exact of_resolve (resolve_of_resolveAll given) unasked

theorem Reached.yields_answeredSinceReset {past : List Moment} {s : Session}
    (reached : Reached past s) (few : past.count .reset < UInt64.size) {kind : Kind}
    {handle : Handle} (yields : s.Yields kind handle) :
    AnsweredSinceReset past kind.stableId handle :=
  reached.records.2.answeredSinceReset few yields.cached_eq

theorem read_answeredSinceReset {service : Service} {ops : List Operation}
    {past future : List Moment} {kind : Kind} {handle : Handle}
    (seen : history ops (.new service) = past ++ .read kind (some handle) :: future)
    (few : past.count .reset < UInt64.size) : AnsweredSinceReset past kind.stableId handle := by
  obtain ⟨-, s, recorded, cached⟩ := recorded_at_read seen
  exact recorded.answeredSinceReset few cached

end Session

/-- The last call for an identifier to end with a handle since the last reset began before that
reset. -/
def Overtaken (past : List Moment) (id : Uuid) : Prop :=
  ∃ handle before during, Brought past id handle before during ∧ .reset ∈ during

/-- A lookup of a kind that began after the last reset has given a handle, from the service or
from the cache. -/
inductive ResolvedSinceReset (past : List Moment) (kind : Kind) (handle : Handle) : Prop
  | asked {during after : List Moment} (ended : Ended past kind.stableId handle during after)
      (during_quiet : .reset ∉ during) (after_quiet : .reset ∉ after)
  | cached {before after : List Moment} (found : past = before ++ .read kind (some handle) :: after)
      (after_quiet : .reset ∉ after)

theorem Ended.later {past during after : List Moment} {id : Uuid} {handle : Handle}
    (ended : Ended past id handle during after) (more : List Moment) :
    Ended (past ++ more) id handle during (after ++ more) := by
  obtain ⟨before, call, shape⟩ := ended
  exact ⟨before, call, by simp [shape]⟩

/-- The answers for an identifier do not change between two resets. -/
def Steady (past : List Moment) (id : Uuid) : Prop :=
  ∀ before call answer between call' answer' after,
    past = before ++ .asked call id answer :: (between ++ .asked call' id answer' :: after) →
      .reset ∉ between → answer = answer'

theorem steady_of_constant {past : List Moment} {id : Uuid} (constant : Answer)
    (same : ∀ call answer, .asked call id answer ∈ past → answer = constant) : Steady past id := by
  intro before call answer between call' answer' after shape _
  rw [same call answer (by simp [shape]), same call' answer' (by simp [shape])]

theorem exists_last_answered {id : Uuid} (seen : List Moment) {call : Nat} {handle : Handle}
    {front after : List Moment}
    (ended : seen = front ++ .answered call id (.assigned handle) :: after)
    (no_reset : .reset ∉ after) :
    ∃ call' handle' front' after', Quiet id after' ∧
      seen = front' ++ .answered call' id (.assigned handle') :: after' := by
  by_cases quiet : Quiet id after
  · exact ⟨call, handle, front, after, quiet, ended⟩
  -- A later call ended with a handle too: go on from there, where less is left.
  · have later : ∃ call' handle', .answered call' id (.assigned handle') ∈ after := by
      simpa [Quiet, no_reset] using quiet
    obtain ⟨call', handle', member⟩ := later
    obtain ⟨between, rest, split⟩ := List.append_of_mem member
    have shape : seen = (front ++ .answered call id (.assigned handle) :: between) ++
        .answered call' id (.assigned handle') :: rest := by simp [ended, split]
    have no_reset' : .reset ∉ rest := by
      intro member
      rw [split] at no_reset
      exact no_reset (List.mem_append_right _ (List.mem_cons_of_mem _ member))
    have shorter : rest.length < after.length := by
      rw [split, List.length_append, List.length_cons]
      omega
    exact exists_last_answered seen shape no_reset'
termination_by after.length

theorem places {α : Type} {l before before' after after' : List α} {a b : α}
    (here : l = before ++ a :: after) (there : l = before' ++ b :: after') :
    a = b ∧ after = after' ∨ (∃ between, after = between ++ b :: after') ∨
      ∃ between, after' = between ++ a :: after := by
  rcases List.append_eq_append_iff.mp (here.symm.trans there) with
    ⟨between, -, split⟩ | ⟨between, -, split⟩
  · cases between with
    | nil => exact .inl (List.cons.inj split)
    | cons c between => exact .inr (.inl ⟨between, (List.cons.inj split).2⟩)
  · cases between with
    | nil =>
        obtain ⟨same, rest⟩ := List.cons.inj split
        exact .inl ⟨same.symm, rest.symm⟩
    | cons c between => exact .inr (.inr ⟨between, (List.cons.inj split).2⟩)

namespace Recorded

variable {past : List Moment} {s : Session}

theorem exists_brought (recorded : Recorded past s) {id : Uuid} {handle : Handle}
    {during after : List Moment} (ended : Ended past id handle during after)
    (no_reset : .reset ∉ after) :
    ∃ handle' before' during', Brought past id handle' before' during' := by
  obtain ⟨before, call, shape⟩ := ended
  have split : past = (before ++ .asked call id (.assigned handle) :: during) ++
      .answered call id (.assigned handle) :: after := by simp [shape]
  obtain ⟨call', handle', front, after', quiet, last⟩ :=
    exists_last_answered past split no_reset
  obtain ⟨before', during', begun⟩ :=
    List.append_of_mem (recorded.begun front call' id _ after' last)
  exact ⟨handle', before', during', call', after', quiet, by simp [last, begun]⟩

theorem brought_epoch (recorded : Recorded past s) (few : past.count .reset < UInt64.size)
    {id : Uuid} {handle handle' : Handle} {before before' during during' : List Moment}
    (brought : Brought past id handle before during)
    (brought' : Brought past id handle' before' during') :
    during.count .reset = during'.count .reset := by
  have entry := (recorded.entries id handle _).mpr ⟨before, during, brought, rfl⟩
  have entry' := (recorded.entries id handle' _).mpr ⟨before', during', brought', rfl⟩
  rw [entry, Option.some.injEq, CachedHandle.mk.injEq] at entry'
  -- One entry has one stamp, so the two counts agree modulo 2^64, and both are below it.
  have same := congrArg UInt64.toNat entry'.2
  rw [UInt64.toNat_ofNat', UInt64.toNat_ofNat'] at same
  have total := brought.count
  have total' := brought'.count
  rw [UInt64.size] at few
  omega

theorem cached_of_overtaken (recorded : Recorded past s) (few : past.count .reset < UInt64.size)
    {kind : Kind} (overtaken : Overtaken past kind.stableId) : s.cached? kind = none := by
  obtain ⟨handle, before, during, brought, reset_during⟩ := overtaken
  cases cached : s.cached? kind with
  | none => rfl
  | some found =>
      obtain ⟨before', during', brought', turns⟩ := recorded.cached_eq_some_iff.mp cached
      have same := recorded.brought_epoch few brought brought'
      have some_reset := List.count_pos_iff.mpr reset_during
      have total := brought.count
      have turned := Nat.eq_zero_of_dvd_of_lt turns (by omega)
      omega

theorem cached_of_not_overtaken (recorded : Recorded past s) {kind : Kind} {handle : Handle}
    {during after : List Moment} (ended : Ended past kind.stableId handle during after)
    (during_quiet : .reset ∉ during) (after_quiet : .reset ∉ after)
    (steady : Steady past kind.stableId) (kept : ¬Overtaken past kind.stableId) :
    s.cached? kind = some handle := by
  obtain ⟨handle', before', during', brought⟩ := recorded.exists_brought ended after_quiet
  have in_epoch : .reset ∉ during' := fun member =>
    kept ⟨handle', before', during', brought, member⟩
  have cached : s.cached? kind = some handle' := by
    refine recorded.cached_eq_some_iff.mpr ⟨before', during', brought, ?_⟩
    rw [List.count_eq_zero.mpr in_epoch]
    exact Nat.dvd_zero _
  obtain ⟨before, call, here⟩ := ended
  obtain ⟨call', after', quiet', there⟩ := brought
  -- Both calls began after the last reset, so there is none between their beginnings.
  have same : Answer.assigned handle = .assigned handle' := by
    rcases places here there with ⟨one, -⟩ | ⟨between, later⟩ | ⟨between, later⟩
    · exact (Moment.asked.inj one).2.2
    · refine steady before call _ between call' _ _ (by rw [here, later]) ?_
      intro member
      have inside : Moment.reset ∈
          during ++ .answered call kind.stableId (.assigned handle) :: after := by
        rw [later]
        exact List.mem_append_left _ member
      simp [during_quiet, after_quiet] at inside
    · refine (steady before' call' _ between call _ _ (by rw [there, later]) ?_).symm
      intro member
      have inside : Moment.reset ∈
          during' ++ .answered call' kind.stableId (.assigned handle') :: after' := by
        rw [later]
        exact List.mem_append_left _ member
      simp [in_epoch, quiet'.1] at inside
  rw [cached, Answer.assigned.inj same]

theorem cached_iff_not_overtaken (recorded : Recorded past s) (sound : Sound [] past)
    (few : past.count .reset < UInt64.size) {kind : Kind} {handle : Handle}
    (steady : Steady past kind.stableId) (resolved : ResolvedSinceReset past kind handle) :
    (s.cached? kind = some handle ↔ ¬Overtaken past kind.stableId) ∧
      (s.cached? kind = none ↔ Overtaken past kind.stableId) := by
  have lost : Overtaken past kind.stableId → s.cached? kind = none :=
    recorded.cached_of_overtaken few
  have kept : ¬Overtaken past kind.stableId → s.cached? kind = some handle := by
    intro kept
    cases resolved with
    | asked ended during_quiet after_quiet =>
        exact recorded.cached_of_not_overtaken ended during_quiet after_quiet steady kept
    | @cached before after found after_quiet =>
        obtain ⟨s', recorded', cached'⟩ := (found ▸ sound).at
        have fewer : before.count .reset < UInt64.size := by
          rw [found, List.count_append] at few
          omega
        obtain ⟨during, since, ended, during_quiet, since_quiet⟩ :=
          recorded'.answeredSinceReset fewer cached'
        have later := ended.later (.read kind (some handle) :: after)
        rw [List.nil_append, ← found] at later
        exact recorded.cached_of_not_overtaken later during_quiet
          (by simp [since_quiet, after_quiet]) steady kept
  by_cases overtaken : Overtaken past kind.stableId
  · simp [lost overtaken, overtaken]
  · simp [kept overtaken, overtaken]

end Recorded

namespace Session

/-- While the answers are steady, a kind that was resolved since the last reset is read from the
cache exactly if its entry was not overtaken. So it is at every read of a run, and in every session
that a run goes through a lookup then gives the handle without asking. -/
theorem read_iff_not_overtaken {past : List Moment} {kind : Kind} {handle : Handle}
    (few : past.count .reset < UInt64.size) (steady : Steady past kind.stableId)
    (resolved : ResolvedSinceReset past kind handle) :
    (∀ service ops found future,
        history ops (.new service) = past ++ .read kind found :: future →
          (found = some handle ↔ ¬Overtaken past kind.stableId) ∧
            (found = none ↔ Overtaken past kind.stableId)) ∧
      ∀ s, Reached past s →
        (s.cached? kind = some handle ↔ ¬Overtaken past kind.stableId) ∧
          (s.cached? kind = none ↔ Overtaken past kind.stableId) ∧
            ((s.resolve kind).1 = .ok handle ∧
              (s.resolve kind).2.service.asked = s.service.asked ↔
                ¬Overtaken past kind.stableId) := by
  constructor
  · intro service ops found future seen
    obtain ⟨sound, s, recorded, cached⟩ := recorded_at_read seen
    rw [← cached]
    exact recorded.cached_iff_not_overtaken sound few steady resolved
  · intro s reached
    obtain ⟨sound, recorded⟩ := reached.records
    obtain ⟨kept, lost⟩ := recorded.cached_iff_not_overtaken sound few steady resolved
    refine ⟨kept, lost, ?_⟩
    rw [← kept, ← lookupMoments_eq_read_iff_given, lookupMoments_eq_read_iff_cached]

theorem read_iff_not_overtaken_twice :
    let id := Kind.and.stableId
    let given := Answer.assigned ⟨7⟩
    let service : Service := ⟨[(id, ⟨7⟩)], none, [[.reset]], []⟩
    let past : List Moment := [.read .and none, .asked 0 id given, .reset, .answered 0 id given,
      .read .and none, .asked 1 id given, .answered 1 id given]
    let s := performAll [.resolve .and, .resolve .and] (.new service)
    history [.resolve .and, .resolve .and, .cached .and] (.new service) =
        past ++ [.read .and (some ⟨7⟩)] ∧
      Reached past s ∧ ¬Overtaken past id ∧ (s.resolve .and).1 = .ok ⟨7⟩ ∧
        (s.resolve .and).2.service.asked = s.service.asked := by
  intro id given service past s
  have seen : history [.resolve .and, .resolve .and, .cached .and] (.new service) =
      past ++ [.read .and (some ⟨7⟩)] := by decide +kernel
  have steady : Steady past id := by
    apply steady_of_constant given
    intro call answer asked
    have calls : (call = 0 ∧ answer = given) ∨ (call = 1 ∧ answer = given) := by
      simpa [past] using asked
    exact calls.elim And.right And.right
  have ended : Ended past id ⟨7⟩ [] [] :=
    ⟨[.read .and none, .asked 0 id given, .reset, .answered 0 id given, .read .and none], 1, rfl⟩
  have reached : Reached past s := by
    have run := (Reached.start service).run [.resolve .and, .resolve .and]
    have told : [] ++ history [.resolve .and, .resolve .and] (.new service) = past := by
      decide +kernel
    rwa [told] at run
  obtain ⟨at_read, in_session⟩ :=
    read_iff_not_overtaken (by decide) steady (.asked ended (by simp) (by simp))
  have kept := (at_read service _ _ _ seen).1.mp rfl
  obtain ⟨given, unasked⟩ := (in_session s reached).2.2.mpr kept
  exact ⟨seen, reached, kept, given, unasked⟩

/-- A lookup that a reset overtook takes away what was asked since: the next lookup asks again,
although nothing was reset and the answers are all the same. -/
theorem overtaken_entry_is_lost :
    let id := Kind.and.stableId
    let service : Service := ⟨[(id, ⟨7⟩)], none, [[.reset, .resolve .and]], []⟩
    let past := history [.resolve .and] (.new service)
    let s := performAll [.resolve .and] (.new service)
    ResolvedSinceReset past .and ⟨7⟩ ∧ Steady past id ∧ past.count .reset = 1 ∧
      s.cached? .and = none ∧ s.service.asked = [id, id] ∧
        (s.resolve .and).2.service.asked = [id, id, id] := by
  intro id service past s
  let given := Answer.assigned ⟨7⟩
  have seen : past = [.read .and none, .asked 0 id given, .reset, .read .and none,
      .asked 1 id given, .answered 1 id given, .answered 0 id given] := by decide +kernel
  have steady : Steady past id := by
    apply steady_of_constant given
    intro call answer asked
    have calls : (call = 0 ∧ answer = given) ∨ (call = 1 ∧ answer = given) := by
      simpa [seen] using asked
    exact calls.elim And.right And.right
  have ended : Ended past id ⟨7⟩ [] [.answered 0 id given] :=
    ⟨[.read .and none, .asked 0 id given, .reset, .read .and none], 1, seen⟩
  exact ⟨.asked ended (by simp) (by simp), steady, by rw [seen]; rfl, by decide +kernel,
    by decide +kernel, by decide +kernel⟩

end Session

end Terminology
