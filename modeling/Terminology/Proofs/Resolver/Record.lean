import Mathlib.Data.List.Basic
import Terminology.Proofs.Resolver.History

/-!
What the cache has to do with what was seen. An entry is the answer of the last call for its
identifier that ended with a handle since the last reset, stamped with the number of resets
before that call began. One lemma for each thing that can happen keeps this so; runs are made of
those things.
-/

namespace Terminology

namespace HandleCache

theorem lookup_insert_self (cache : HandleCache) (id : Uuid) (entry : CachedHandle) :
    (cache.insert id entry).entries.lookup id = some entry := List.lookup_cons_self

theorem lookup_filter (keep : Uuid → Bool) (entries : List (Uuid × CachedHandle)) (id : Uuid) :
    (entries.filter fun old => keep old.1).lookup id =
      if keep id then entries.lookup id else none := by
  induction entries with
  | nil => simp
  | cons entry entries ih =>
      obtain ⟨key, value⟩ := entry
      rw [List.filter_cons]
      by_cases same : id = key
      · subst same
        by_cases kept : keep id
        · simp [kept]
        · simp [kept, ih]
      · have different : (id == key) = false := by simpa using same
        by_cases kept : keep key
        · simp [kept, List.lookup_cons, different, ih]
        · simp [kept, List.lookup_cons, different, ih]

theorem lookup_insert_of_ne (cache : HandleCache) {id other : Uuid} (apart : other ≠ id)
    (entry : CachedHandle) :
    (cache.insert id entry).entries.lookup other = cache.entries.lookup other := by
  have different : (other == id) = false := by simpa using apart
  rw [insert, List.lookup_cons, different, lookup_filter fun key => key != id]
  simp [apart]

end HandleCache

/-- Nothing among the moments replaces or removes the entry of an identifier. -/
def Quiet (id : Uuid) (seen : List Moment) : Prop :=
  .reset ∉ seen ∧ ∀ call handle, .answered call id (.assigned handle) ∉ seen

/-- The last call for an identifier that ended with a handle, if there was no reset since; `before`
was seen when the call began, and `during` until it ended. -/
def Brought (past : List Moment) (id : Uuid) (handle : Handle) (before during : List Moment) :
    Prop :=
  ∃ call after, Quiet id after ∧
    past = before ++ .asked call id (.assigned handle) ::
      (during ++ .answered call id (.assigned handle) :: after)

/-- What is recorded of the past in the cache of a session. -/
structure Recorded (past : List Moment) (s : Session) : Prop where
  epoch : s.cache.epoch = UInt64.ofNat (past.count .reset)
  calls : ∀ call id answer, .asked call id answer ∈ past → call < s.service.asked.length
  once : ∀ call id answer, past.count (.asked call id answer) ≤ 1
  begun : ∀ front call id answer after, past = front ++ .answered call id answer :: after →
    .asked call id answer ∈ front
  entries : ∀ id handle epoch, s.cache.entries.lookup id = some ⟨handle, epoch⟩ ↔
    ∃ before during, Brought past id handle before during ∧
      epoch = UInt64.ofNat (before.count .reset)

theorem front_unique {α : Type} [DecidableEq α] {l before before' after after' : List α} {a : α}
    (once : l.count a ≤ 1) (here : l = before ++ a :: after) (there : l = before' ++ a :: after') :
    before = before' := by
  rw [there, List.count_append, List.count_cons_self] at once
  have unseen : a ∉ before' := List.count_eq_zero.mp (by omega)
  have later : a ∉ after' := List.count_eq_zero.mp (by omega)
  exact ((List.append_cons_inj_of_notMem unseen later).mp (there.symm.trans here)).1.symm

theorem quiet_snoc {id : Uuid} {seen : List Moment} {m : Moment} :
    Quiet id (seen ++ [m]) ↔ Quiet id seen ∧ Quiet id [m] := by
  simp only [Quiet, List.mem_append, not_or, forall_and]
  tauto

theorem brought_snoc {past before during : List Moment} {m : Moment} {id : Uuid}
    {handle : Handle} :
    Brought (past ++ [m]) id handle before during ↔
      (Brought past id handle before during ∧ Quiet id [m]) ∨
        ∃ call, m = .answered call id (.assigned handle) ∧
          past = before ++ .asked call id (.assigned handle) :: during := by
  constructor
  · intro brought
    obtain ⟨call, after, quiet, shape⟩ := brought
    rcases List.eq_nil_or_concat after with rfl | ⟨others, last, rfl⟩
    · right
      have parts : past ++ [m] = (before ++ .asked call id (.assigned handle) :: during) ++
          [.answered call id (.assigned handle)] := by simpa using shape
      obtain ⟨same, last⟩ := List.append_inj' parts rfl
      exact ⟨call, by simpa using last, same⟩
    · left
      rw [List.concat_eq_append] at quiet shape
      have parts : past ++ [m] = (before ++ .asked call id (.assigned handle) ::
          (during ++ .answered call id (.assigned handle) :: others)) ++ [last] := by
        simpa using shape
      obtain ⟨same, end_eq⟩ := List.append_inj' parts rfl
      obtain ⟨first, ended⟩ := quiet_snoc.mp quiet
      rw [end_eq]
      exact ⟨⟨call, others, first, same⟩, ended⟩
  · intro last
    rcases last with ⟨⟨call, after, quiet, rfl⟩, ended⟩ | ⟨call, rfl, rfl⟩
    · exact ⟨call, after ++ [m], quiet_snoc.mpr ⟨quiet, ended⟩, by simp⟩
    · exact ⟨call, [], by simp [Quiet], by simp⟩

theorem brought_snoc_quiet {past before during : List Moment} {m : Moment} {id : Uuid}
    {handle : Handle} (quiet : Quiet id [m]) :
    Brought (past ++ [m]) id handle before during ↔ Brought past id handle before during := by
  rw [brought_snoc]
  constructor
  · intro last
    rcases last with ⟨brought, -⟩ | ⟨call, rfl, -⟩
    · exact brought
    · exact absurd List.mem_cons_self (quiet.2 call handle)
  · exact fun brought => .inl ⟨brought, quiet⟩

namespace Recorded

variable {past : List Moment} {s : Session}

theorem start (service : Service) : Recorded [] (.new service) where
  epoch := rfl
  calls := by simp
  once := by simp
  begun := by simp
  entries := by simp [Brought, Session.new, HandleCache.empty]

theorem begun_snoc (recorded : Recorded past s) {m : Moment}
    (asked : ∀ call id answer, m = .answered call id answer → .asked call id answer ∈ past) :
    ∀ front call id answer after, past ++ [m] = front ++ .answered call id answer :: after →
      .asked call id answer ∈ front := by
  intro front call id answer after shape
  rcases List.eq_nil_or_concat after with rfl | ⟨others, last, rfl⟩
  · obtain ⟨same, last⟩ := List.append_inj' shape rfl
    rw [← same]
    exact asked call id answer (by simpa using last)
  · have parts : past ++ [m] = (front ++ .answered call id answer :: others) ++ [last] := by
      simpa using shape
    obtain ⟨same, -⟩ := List.append_inj' parts rfl
    exact recorded.begun front call id answer others same

theorem read (recorded : Recorded past s) (kind : Kind) (found : Option Handle) :
    Recorded (past ++ [.read kind found]) s where
  epoch := by simp [recorded.epoch]
  calls := by simpa using recorded.calls
  once := by simpa [List.count_append] using recorded.once
  begun := recorded.begun_snoc (by simp)
  entries := by simpa [brought_snoc, Quiet] using recorded.entries

theorem reset (recorded : Recorded past s) : Recorded (past ++ [.reset]) s.reset where
  epoch := by simp [Session.reset, HandleCache.reset, recorded.epoch]
  calls := by simpa [Session.reset] using recorded.calls
  once := by simpa [List.count_append] using recorded.once
  begun := recorded.begun_snoc (by simp)
  entries := by simp [brought_snoc, Quiet, Session.reset, HandleCache.reset]

theorem serve (recorded : Recorded past s) (service : Service)
    (same : service.asked = s.service.asked) : Recorded past { s with service } :=
  { recorded with calls := by simpa [same] using recorded.calls }

theorem ask (recorded : Recorded past s) (id : Uuid) (answer : Answer) :
    Recorded (past ++ [.asked s.service.asked.length id answer])
      { s with service := s.service.ask id } where
  epoch := by simp [recorded.epoch]
  calls := by
    intro call other given member
    simp only [Service.ask, List.length_append, List.length_singleton]
    rcases List.mem_append.mp member with earlier | now
    · exact Nat.lt_succ_of_lt (recorded.calls call other given earlier)
    · simp only [List.mem_singleton, Moment.asked.injEq] at now
      omega
  once := by
    intro call other given
    rw [List.count_append]
    by_cases now : Moment.asked call other given = .asked s.service.asked.length id answer
    · have fresh : Moment.asked call other given ∉ past := by
        intro earlier
        have bound := recorded.calls call other given earlier
        simp only [Moment.asked.injEq] at now
        omega
      rw [List.count_eq_zero_of_not_mem fresh, ← now]
      simp
    · have apart : ([.asked s.service.asked.length id answer] : List Moment).count
          (.asked call other given) = 0 := by
        rw [List.count_eq_zero]
        simpa using now
      rw [apart]
      exact recorded.once call other given
  begun := recorded.begun_snoc (by simp)
  entries := by simpa [brought_snoc, Quiet] using recorded.entries

variable {call : Nat} {id : Uuid}

theorem refuse (recorded : Recorded past s) {answer : Answer}
    (refused : ∀ handle, answer ≠ .assigned handle) (asked : .asked call id answer ∈ past) :
    Recorded (past ++ [.answered call id answer]) s where
  epoch := by simp [recorded.epoch]
  calls := by simpa using recorded.calls
  once := by simpa [List.count_append] using recorded.once
  begun := recorded.begun_snoc (by
    intro _ _ _ same
    cases same
    exact asked)
  entries := by
    intro other found epoch
    have quiet : Quiet other [.answered call id answer] := by
      refine ⟨by simp, fun again given member => ?_⟩
      obtain ⟨-, -, same⟩ := Moment.answered.inj (List.mem_singleton.mp member)
      exact refused given same.symm
    simp only [brought_snoc_quiet quiet]
    exact recorded.entries other found epoch

theorem begun_once (recorded : Recorded past s) {answer : Answer}
    {before during before' during' : List Moment}
    (here : past = before ++ .asked call id answer :: during)
    (there : past = before' ++ .asked call id answer :: during') : before = before' := by
  exact front_unique (recorded.once call id answer) here there

/-- A call that ends with a handle sets the entry, under the epoch that it began in. -/
theorem settle (recorded : Recorded past s) {before during : List Moment} {handle : Handle}
    (asked : past = before ++ .asked call id (.assigned handle) :: during) :
    Recorded (past ++ [.answered call id (.assigned handle)])
      { s with cache := s.cache.insert id ⟨handle, UInt64.ofNat (before.count .reset)⟩ } where
  epoch := by simpa [HandleCache.insert] using recorded.epoch
  calls := by simpa using recorded.calls
  once := by simpa [List.count_append] using recorded.once
  begun := recorded.begun_snoc (by
    intro _ _ _ same
    cases same
    simp [asked])
  entries := by
    intro other found epoch
    by_cases same : other = id
    · subst same
      rw [HandleCache.lookup_insert_self]
      constructor
      · intro set
        cases set
        exact ⟨before, during, brought_snoc.mpr (.inr ⟨call, rfl, asked⟩), rfl⟩
      · intro last
        obtain ⟨before', during', brought, rfl⟩ := last
        rcases brought_snoc.mp brought with ⟨-, quiet⟩ | ⟨_, ⟨⟩, there⟩
        · exact absurd List.mem_cons_self (quiet.2 call handle)
        -- The stamp counts the resets before the one place where the call began.
        · rw [recorded.begun_once asked there]
    · have quiet : Quiet other [.answered call id (.assigned handle)] := by
        refine ⟨by simp, fun again given member => ?_⟩
        exact same (Moment.answered.inj (List.mem_singleton.mp member)).2.1
      simp only [HandleCache.lookup_insert_of_ne _ same, brought_snoc_quiet quiet]
      exact recorded.entries other found epoch

end Recorded

end Terminology
