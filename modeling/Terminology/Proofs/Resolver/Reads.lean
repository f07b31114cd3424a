import Terminology.Proofs.Resolver.Nesting
import Terminology.Proofs.Resolver.Record

/-!
What the cache gives whenever it is read, at whatever depth of calls within calls. A handle is
read exactly if the last call for its identifier that ended with a handle began in the current
epoch. So nothing is read that was asked before a reset; but a call that began before a reset and
ends after it takes away what was asked since.
-/

namespace Terminology

namespace HandleCache

theorem getIn_eq_some_iff {cache : HandleCache} {epoch : UInt64} {id : Uuid} {handle : Handle} :
    cache.getIn? epoch id = some handle ↔ cache.entries.lookup id = some ⟨handle, epoch⟩ := by
  rw [getIn?]
  cases cache.entries.lookup id with
  | none => simp
  | some entry =>
      obtain ⟨found, stamp⟩ := entry
      by_cases current : stamp = epoch
      · simp [current]
      · simp [current]

end HandleCache

/-- The last call for an identifier that ended with a handle since the last reset began in the
current epoch; the number of an epoch has 64 bits. -/
def Kept (past : List Moment) (id : Uuid) (handle : Handle) : Prop :=
  ∃ before during, Brought past id handle before during ∧ UInt64.size ∣ during.count .reset

theorem Brought.count {past before during : List Moment} {id : Uuid} {handle : Handle}
    (brought : Brought past id handle before during) :
    past.count .reset = before.count .reset + during.count .reset := by
  obtain ⟨call, after, quiet, rfl⟩ := brought
  simp [List.count_append, List.count_eq_zero.mpr quiet.1]

theorem ofNat_add_eq_iff (a b : Nat) :
    UInt64.ofNat (a + b) = UInt64.ofNat a ↔ UInt64.size ∣ b := by
  rw [← UInt64.toNat_inj, UInt64.toNat_ofNat', UInt64.toNat_ofNat', UInt64.size]
  omega

theorem Recorded.cached_eq_some_iff {past : List Moment} {s : Session}
    (recorded : Recorded past s) {kind : Kind} {handle : Handle} :
    s.cached? kind = some handle ↔ Kept past kind.stableId handle := by
  rw [Session.cached?, HandleCache.get?, HandleCache.getIn_eq_some_iff, recorded.entries, Kept,
    recorded.epoch]
  refine exists_congr fun before => exists_congr fun during => and_congr_right fun brought => ?_
  rw [brought.count]
  exact ofNat_add_eq_iff _ _

def Moment.Sound (past : List Moment) : Moment → Prop
  | .read kind found => ∃ s, Recorded past s ∧ s.cached? kind = found
  | _ => True

/-- Every read gives what the cache holds at that time. -/
def Sound (past : List Moment) : List Moment → Prop
  | [] => True
  | m :: later => m.Sound past ∧ Sound (past ++ [m]) later

theorem sound_append {past seen later : List Moment} :
    Sound past (seen ++ later) ↔ Sound past seen ∧ Sound (past ++ seen) later := by
  induction seen generalizing past with
  | nil => simp [Sound]
  | cons m seen ih => simp [Sound, ih, and_assoc]

theorem Sound.at {past before after : List Moment} {m : Moment}
    (sound : Sound past (before ++ m :: after)) : m.Sound (past ++ before) :=
  (sound_append.mp sound).2.1

def Moment.askedFor? : Moment → Option Uuid
  | .asked _ id _ => some id
  | .reset | .read .. | .answered .. => none

/-- The moments lead from one session to another: they tell what the service was asked for, and
whatever was seen before, every read among them gives what the cache holds and they are recorded in
the end. -/
structure Follows (s : Session) (seen : List Moment) (s' : Session) : Prop where
  asked : s'.service.asked = s.service.asked ++ seen.filterMap Moment.askedFor?
  records : ∀ past, Recorded past s → Sound past seen ∧ Recorded (past ++ seen) s'

namespace Follows

variable {s s' s'' : Session}

theorem nil (s : Session) : Follows s [] s where
  asked := by simp
  records past recorded := ⟨trivial, by simpa using recorded⟩

theorem append {seen later : List Moment} (first : Follows s seen s')
    (second : Follows s' later s'') : Follows s (seen ++ later) s'' where
  asked := by simp [second.asked, first.asked]
  records past recorded := by
    obtain ⟨sound, recorded⟩ := first.records past recorded
    obtain ⟨sound', recorded⟩ := second.records (past ++ seen) recorded
    exact ⟨sound_append.mpr ⟨sound, sound'⟩, by simpa using recorded⟩

theorem read {kind : Kind} {found : Option Handle} (cached : s.cached? kind = found) :
    Follows s [.read kind found] s where
  asked := by simp [Moment.askedFor?]
  records past recorded := ⟨⟨⟨s, recorded, cached⟩, trivial⟩, recorded.read kind found⟩

theorem reset (s : Session) : Follows s [.reset] s.reset where
  asked := by simp [Moment.askedFor?, Session.reset]
  records past recorded := ⟨⟨trivial, trivial⟩, recorded.reset⟩

theorem serve {service : Service} (same : service.asked = s.service.asked) :
    Follows s [] { s with service } where
  asked := by simp [same]
  records past recorded := ⟨trivial, by simpa using recorded.serve service same⟩

theorem call {id : Uuid} {answer : Answer} {seen : List Moment} {after settled : Session}
    (inner : Follows { s with service := s.service.ask id } seen after)
    (handed : ∀ handle, answer = .assigned handle →
      settled = { after with cache := after.cache.insert id ⟨handle, s.cache.epoch⟩ })
    (refused : (∀ handle, answer ≠ .assigned handle) → settled = after) :
    Follows s (.asked s.service.asked.length id answer :: seen ++
      [.answered s.service.asked.length id answer]) settled := by
  refine ⟨?_, fun past recorded => ?_⟩
  · have kept : settled.service = after.service := by
      cases answer with
      | assigned handle => rw [handed handle rfl]
      | unassigned | unavailable reason => rw [refused nofun]
    rw [kept, inner.asked]
    simp [Moment.askedFor?, Service.ask]
  obtain ⟨sound, recorded'⟩ := inner.records _ (recorded.ask id answer)
  have asked : past ++ [.asked s.service.asked.length id answer] ++ seen =
      past ++ .asked s.service.asked.length id answer :: seen := by simp
  refine ⟨⟨trivial, sound_append.mpr ⟨sound, trivial, trivial⟩⟩, ?_⟩
  rw [asked] at recorded'
  have shape : past ++ (.asked s.service.asked.length id answer :: seen ++
      [.answered s.service.asked.length id answer]) =
      (past ++ .asked s.service.asked.length id answer :: seen) ++
        [.answered s.service.asked.length id answer] := by simp
  rw [shape]
  -- The stamp is the epoch of `past`, whatever `seen` has done to the epoch since.
  cases answer with
  | assigned handle =>
      rw [handed handle rfl, recorded.epoch]
      exact recorded'.settle rfl
  | unassigned =>
      rw [refused nofun]
      exact recorded'.refuse nofun (by simp)
  | unavailable reason =>
      rw [refused nofun]
      exact recorded'.refuse nofun (by simp)

end Follows

namespace Session

theorem resolveWith_follows {during : List Event → Session → Session}
    {moments : List Event → Session → List Moment}
    (inner : ∀ events s, Follows s (moments events s) (during events s)) (kind : Kind)
    (s : Session) :
    Follows s (resolveMoments moments kind s) (resolveWith during kind s).2 := by
  have reads : s.cache.getIn? s.cache.epoch kind.stableId = s.cached? kind := rfl
  rw [resolveMoments, resolveWith]
  simp only [reads]
  cases cached : s.cached? kind with
  | some handle => exact Follows.read cached
  | none =>
      have called := inner (s.service.hooks.head?.getD [])
        { s with service := s.service.ask kind.stableId }
      refine (Follows.read cached).append (Follows.call called ?_ ?_)
      · intro handle given
        simp only [given]
      · intro refused
        cases answer : s.service.answer kind.stableId with
        | assigned handle => exact absurd answer (refused handle)
        | unassigned => rfl
        | unavailable reason => rfl

theorem events_follow {resolve : Kind → Session → Except ResolveError Handle × Session}
    {moments : Kind → Session → List Moment}
    (inner : ∀ kind s, Follows s (moments kind s) (resolve kind s).2) (events : List Event)
    (s : Session) :
    Follows s (eventsMoments resolve moments events s) (events.foldl (happen resolve) s) := by
  induction events generalizing s with
  | nil => exact .nil s
  | cons e es ih =>
      have first : Follows s (eventMoments moments s e) (happen resolve s e) := by
        cases e with
        | reset => exact .reset s
        | resolve kind => exact inner kind s
        | assign id handle =>
            cases handle with
            | none => exact .serve rfl
            | some h => exact .serve rfl
        | offline reason => exact .serve rfl
      exact first.append (ih _)

theorem nested_follows (depth : Nat) (kind : Kind) (s : Session) :
    Follows s (nestedMoments depth kind s) (resolveNested depth kind s).2 := by
  induction depth generalizing kind s with
  | zero => exact resolveWith_follows (fun _ s => .nil s) kind s
  | succ depth ih => exact resolveWith_follows (events_follow ih) kind s

theorem resolve_follows (kind : Kind) (s : Session) :
    Follows s (s.lookupMoments kind) (s.resolve kind).2 := nested_follows _ kind s

theorem resolveAll_follows (kinds : List Kind) (s : Session) :
    Follows s (s.lookupAllMoments kinds) (s.resolveAll kinds).2 := by
  induction kinds generalizing s with
  | nil => exact .nil s
  | cons kind kinds ih =>
      have first := resolve_follows kind s
      rw [lookupAllMoments, resolveAll]
      cases looked : s.resolve kind with
      | mk result after =>
          rw [looked] at first
          cases result with
          | error e => simpa using first
          | ok handle =>
              have others := first.append (ih after)
              cases rest : after.resolveAll kinds with
              | mk result last =>
                  rw [rest] at others
                  cases result with
                  | error e => simpa only [rest] using others
                  | ok pairs => simpa only [rest] using others

theorem perform_follows (op : Operation) (s : Session) :
    Follows s (op.moments s) (op.perform s) := by
  cases op with
  | resolve kind => exact resolve_follows kind s
  | resolveAll kinds => exact resolveAll_follows kinds s
  | preload =>
      have all := resolveAll_follows Kind.all s
      rw [Operation.moments, Operation.perform, preload]
      cases resolved : s.resolveAll Kind.all with
      | mk result after =>
          rw [resolved] at all
          cases result with
          | error e => exact all
          | ok pairs => exact all
  | cached kind => exact .read rfl
  | kindForHandle handle =>
      rw [Operation.moments]
      cases found : s.kindForHandle? handle with
      | none => exact .nil s
      | some kind => exact .read (by simpa using List.find?_some found)
  | reset => exact .reset s
  | assign id handle =>
      cases handle with
      | none => exact .serve rfl
      | some h => exact .serve rfl
  | offline reason => exact .serve rfl
  | hook events => exact .serve rfl

theorem history_follows (ops : List Operation) (s : Session) :
    Follows s (history ops s) (performAll ops s) := by
  induction ops generalizing s with
  | nil => exact .nil s
  | cons op ops ih => exact (perform_follows op s).append (ih (op.perform s))

/-- At every read of a run, what was seen before it is what the cache records. -/
theorem recorded_at_read {service : Service} {ops : List Operation} {past future : List Moment}
    {kind : Kind} {found : Option Handle}
    (seen : history ops (.new service) = past ++ .read kind found :: future) :
    Sound [] past ∧ ∃ s, Recorded past s ∧ s.cached? kind = found := by
  have sound := ((history_follows ops (.new service)).records [] (.start service)).1
  rw [seen] at sound
  exact ⟨(sound_append.mp sound).1, sound.at⟩

/-- The sessions that a run goes through, each with what was seen before it. A lookup that finds
nothing enters a call of the service, and all that is done from there on is done inside it. -/
inductive Reached : List Moment → Session → Prop
  | start (service : Service) : Reached [] (.new service)
  | perform {past : List Moment} {s : Session} (op : Operation) (reached : Reached past s) :
      Reached (past ++ op.moments s) (op.perform s)
  | call {past : List Moment} {s : Session} {kind : Kind} (missed : s.cached? kind = none)
      (reached : Reached past s) :
      Reached
        (past ++ [.read kind none,
          .asked s.service.asked.length kind.stableId (s.service.answer kind.stableId)])
        { s with service := s.service.ask kind.stableId }

variable {past : List Moment} {s : Session} {kind : Kind} {handle : Handle}

theorem Reached.records (reached : Reached past s) : Sound [] past ∧ Recorded past s := by
  induction reached with
  | start service => exact ⟨trivial, .start service⟩
  | perform op _ ih =>
      obtain ⟨sound, recorded⟩ := (perform_follows op _).records _ ih.2
      exact ⟨sound_append.mpr ⟨ih.1, sound⟩, recorded⟩
  | @call past s kind missed _ ih =>
      have asked := (ih.2.read kind none).ask kind.stableId (s.service.answer kind.stableId)
      rw [List.append_assoc] at asked
      exact ⟨sound_append.mpr ⟨ih.1, ⟨s, ih.2, missed⟩, trivial, trivial⟩, asked⟩

theorem Reached.run (reached : Reached past s) (ops : List Operation) :
    Reached (past ++ history ops s) (performAll ops s) := by
  induction ops generalizing past s with
  | nil =>
      rw [history, List.append_nil]
      exact reached
  | cons op ops ih =>
      have behind := ih (reached.perform op)
      rwa [List.append_assoc] at behind

theorem lookupMoments_eq (kind : Kind) (s : Session) :
    ∃ during, s.lookupMoments kind = resolveMoments during kind s := by
  rw [lookupMoments]
  cases s.service.hooks.length with
  | zero => exact ⟨_, rfl⟩
  | succ depth => exact ⟨_, rfl⟩

theorem lookupMoments_eq_read_iff_cached :
    s.lookupMoments kind = [.read kind (some handle)] ↔ s.cached? kind = some handle := by
  obtain ⟨during, seen⟩ := lookupMoments_eq kind s
  rw [seen, resolveMoments]
  cases s.cached? kind with
  | some found => simp
  | none => simp

/-- A handle is given for a kind without asking the service exactly if the lookup is seen as one
read of the cache that finds the handle. -/
theorem lookupMoments_eq_read_iff_given : s.lookupMoments kind = [.read kind (some handle)] ↔
    (s.resolve kind).1 = .ok handle ∧ (s.resolve kind).2.service.asked = s.service.asked := by
  obtain ⟨during, seen⟩ := lookupMoments_eq kind s
  rw [resolveMoments] at seen
  cases cached : s.cached? kind with
  | some found =>
      rw [cached] at seen
      rw [seen, resolve_of_cached cached]
      simp
  | none =>
      rw [cached] at seen
      have asked := (resolve_follows kind s).asked
      rw [seen] at asked ⊢
      simp [asked, Moment.askedFor?]

end Session

end Terminology
