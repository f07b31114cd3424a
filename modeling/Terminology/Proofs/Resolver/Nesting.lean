import Terminology.Resolver.Session

/-!
The bound on the depth of calls within calls is never met: each call uses up the events of one
call to come, so lookups go on as if there was no bound.
-/

namespace Terminology

namespace Session

theorem hooks_resolveWith {during : List Event → Session → Session}
    (inner : ∀ events s, (during events s).service.hooks <:+ s.service.hooks)
    (kind : Kind) (s : Session) :
    (resolveWith during kind s).2.service.hooks <:+ s.service.hooks := by
  have called := inner (s.service.hooks.head?.getD [])
    { s with service := s.service.ask kind.stableId }
  simp only [Service.ask] at called
  rw [resolveWith]
  cases s.cache.getIn? s.cache.epoch kind.stableId with
  | some handle => exact List.suffix_rfl
  | none =>
      cases s.service.answer kind.stableId with
      | assigned handle => exact called.trans (List.tail_suffix _)
      | unassigned => exact called.trans (List.tail_suffix _)
      | unavailable reason => exact called.trans (List.tail_suffix _)

theorem hooks_happen {resolve : Kind → Session → Except ResolveError Handle × Session}
    (inner : ∀ kind s, (resolve kind s).2.service.hooks <:+ s.service.hooks)
    (s : Session) (e : Event) : (happen resolve s e).service.hooks <:+ s.service.hooks := by
  cases e with
  | reset => exact List.suffix_rfl
  | resolve kind => exact inner kind s
  | assign id handle => cases handle <;> exact List.suffix_rfl
  | offline reason => exact List.suffix_rfl

theorem hooks_events {resolve : Kind → Session → Except ResolveError Handle × Session}
    (inner : ∀ kind s, (resolve kind s).2.service.hooks <:+ s.service.hooks)
    (events : List Event) (s : Session) :
    (events.foldl (happen resolve) s).service.hooks <:+ s.service.hooks := by
  induction events generalizing s with
  | nil => exact List.suffix_rfl
  | cons e es ih => exact (ih _).trans (hooks_happen inner s e)

theorem hooks_resolveNested (depth : Nat) (kind : Kind) (s : Session) :
    (resolveNested depth kind s).2.service.hooks <:+ s.service.hooks := by
  induction depth generalizing kind s with
  | zero => exact hooks_resolveWith (fun _ _ => List.suffix_rfl) kind s
  | succ depth ih => exact hooks_resolveWith (hooks_events ih) kind s

theorem resolveWith_congr {during during' : List Event → Session → Session} {kind : Kind}
    {s : Session}
    (same : during (s.service.hooks.head?.getD [])
        { s with service := s.service.ask kind.stableId } =
      during' (s.service.hooks.head?.getD [])
        { s with service := s.service.ask kind.stableId }) :
    resolveWith during kind s = resolveWith during' kind s := by
  simp only [resolveWith, same]

theorem events_congr {resolve resolve' : Kind → Session → Except ResolveError Handle × Session}
    {depth : Nat}
    (same : ∀ kind s, s.service.hooks.length ≤ depth → resolve kind s = resolve' kind s)
    (inner : ∀ kind s, (resolve kind s).2.service.hooks <:+ s.service.hooks)
    (events : List Event) (s : Session) (enough : s.service.hooks.length ≤ depth) :
    events.foldl (happen resolve) s = events.foldl (happen resolve') s := by
  induction events generalizing s with
  | nil => rfl
  | cons e es ih =>
      have first : happen resolve s e = happen resolve' s e := by
        cases e with
        | resolve kind => exact congrArg Prod.snd (same kind s enough)
        | reset | assign | offline => rfl
      rw [List.foldl_cons, List.foldl_cons, ← first]
      exact ih _ (Nat.le_trans (hooks_happen inner s e).length_le enough)

theorem resolveNested_of_nil {s : Session} (none_left : s.service.hooks = []) (depth : Nat)
    (kind : Kind) : resolveNested depth kind s = resolveNested 0 kind s := by
  cases depth with
  | zero => rfl
  | succ depth =>
      apply resolveWith_congr
      rw [none_left]
      rfl

theorem resolveNested_eq {depth depth' : Nat} (kind : Kind) (s : Session)
    (enough : s.service.hooks.length ≤ depth) (enough' : s.service.hooks.length ≤ depth') :
    resolveNested depth kind s = resolveNested depth' kind s := by
  -- Each call within the call takes one entry off the hooks, so both depths still suffice for it.
  induction depth generalizing depth' kind s with
  | zero =>
      have none_left : s.service.hooks = [] := List.length_eq_zero_iff.mp (by omega)
      rw [resolveNested_of_nil none_left depth']
  | succ depth ih =>
      cases hooks : s.service.hooks with
      | nil => rw [resolveNested_of_nil hooks, resolveNested_of_nil hooks depth']
      | cons events others =>
          rw [hooks, List.length_cons] at enough enough'
          cases depth' with
          | zero => omega
          | succ depth' =>
              have deeper : ∀ kind s, s.service.hooks.length ≤ others.length →
                  resolveNested depth kind s = resolveNested depth' kind s := fun kind s few =>
                ih kind s (by omega) (by omega)
              apply resolveWith_congr
              apply events_congr deeper (hooks_resolveNested depth)
              simp [Service.ask, hooks]

/-- A lookup lets further lookups happen during its call, without a bound. -/
theorem resolve_eq (kind : Kind) (s : Session) :
    s.resolve kind =
      resolveWith (fun events s => events.foldl (happen resolve) s) kind s := by
  have bounded : s.resolve kind = resolveNested (s.service.hooks.length + 1) kind s :=
    resolveNested_eq kind s (Nat.le_refl _) (Nat.le_succ _)
  rw [bounded]
  apply resolveWith_congr
  have enough : ({ s with service := s.service.ask kind.stableId } : Session).service.hooks.length ≤
      s.service.hooks.length := by simp [Service.ask]
  refine events_congr (fun other s' few => ?_) (hooks_resolveNested _) _ _ enough
  exact resolveNested_eq other s' few (Nat.le_refl _)

theorem resolve_of_cached {s : Session} {kind : Kind} {handle : Handle}
    (cached : s.cached? kind = some handle) : s.resolve kind = (.ok handle, s) := by
  have reads : s.cache.getIn? s.cache.epoch kind.stableId = some handle := cached
  rw [resolve_eq, resolveWith]
  simp only [reads]

theorem resolveAll_cons (kind : Kind) (kinds : List Kind) (s : Session) :
    s.resolveAll (kind :: kinds) =
      match (s.resolve kind).1 with
      | .error e => (.error e, (s.resolve kind).2)
      | .ok handle =>
          let others := (s.resolve kind).2.resolveAll kinds
          (others.1.map fun pairs => (kind, handle) :: pairs, others.2) := by
  rw [resolveAll]
  rcases s.resolve kind with ⟨e | handle, after⟩
  · rfl
  · dsimp only
    rcases after.resolveAll kinds with ⟨e | pairs, last⟩ <;> rfl

theorem resolve_of_resolveAll {s : Session} {kind : Kind} {kinds : List Kind} {handle : Handle}
    {pairs : List (Kind × Handle)}
    (given : (s.resolveAll (kind :: kinds)).1 = .ok ((kind, handle) :: pairs)) :
    (s.resolve kind).1 = .ok handle := by
  rw [resolveAll_cons] at given
  cases looked : (s.resolve kind).1 with
  | error e =>
      rw [looked] at given
      cases given
  | ok found =>
      rw [looked] at given
      rcases others : ((s.resolve kind).2.resolveAll kinds).1 with e | rest
      · simp [others, Except.map] at given
      · have same : found = handle ∧ rest = pairs := by simpa [others, Except.map] using given
        rw [same.1]

end Session

end Terminology
