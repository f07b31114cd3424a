import Mathlib.Data.List.Basic
import Terminology.Proofs.Resolver.Freshness
import Terminology.Proofs.Resolver.Memo

/-!
Finding the kind of a handle. In every session that a run goes through, also inside calls of the
service, it is the first kind that the handle is cached for. So where different kinds were given
different handles since the last reset it is the kind that the handle was given for, and a handle
that was not given since then has no kind.
-/

namespace Terminology

theorem find_eq_some_iff_idxOf {α : Type} [DecidableEq α] {test : α → Bool} {xs : List α} {a : α} :
    xs.find? test = some a ↔
      a ∈ xs ∧ test a = true ∧ ∀ b ∈ xs, xs.idxOf b < xs.idxOf a → test b = false := by
  induction xs with
  | nil => simp
  | cons x xs ih =>
      cases passes : test x with
      | true =>
          rw [List.find?_cons_of_pos passes]
          constructor
          · intro same
            cases same
            exact ⟨List.mem_cons_self, passes, by simp⟩
          · intro first
            obtain ⟨-, -, earlier⟩ := first
            by_contra other
            have apart : x ≠ a := fun same => other (congrArg some same)
            have fails := earlier x List.mem_cons_self (by simp [List.idxOf_cons_ne _ apart])
            rw [passes] at fails
            cases fails
      | false =>
          rw [List.find?_cons_of_neg (by simp [passes]), ih]
          by_cases same : x = a
          · subst same
            simp [passes]
          · -- Both indices are one more in front of `xs`, and `x` itself fails the test.
            have earlier : (∀ b ∈ x :: xs, (x :: xs).idxOf b < (x :: xs).idxOf a → test b = false) ↔
                ∀ b ∈ xs, xs.idxOf b < xs.idxOf a → test b = false := by
              rw [List.forall_mem_cons, List.idxOf_cons_ne _ same]
              simp only [passes, implies_true, true_and]
              refine forall₂_congr fun b _ => ?_
              by_cases here : x = b
              · subst here
                simp [passes]
              · rw [List.idxOf_cons_ne _ here, Nat.succ_lt_succ_iff]
            rw [earlier, List.mem_cons]
            simp only [Ne.symm same, false_or]

theorem AnsweredSinceReset.behind {past before after : List Moment} {id : Uuid} {handle : Handle}
    (answered : AnsweredSinceReset past id handle) (split : past = before ++ .reset :: after) :
    ∃ call, .answered call id (.assigned handle) ∈ after := by
  obtain ⟨during, since, ⟨front, call, shape⟩, -, quiet⟩ := answered
  refine ⟨call, ?_⟩
  have ended : past = (front ++ .asked call id (.assigned handle) :: during) ++
      .answered call id (.assigned handle) :: since := by simp [shape]
  rcases places split ended with ⟨same, -⟩ | ⟨between, later⟩ | ⟨between, later⟩
  · cases same
  · rw [later]
    exact List.mem_append_right _ List.mem_cons_self
  · rw [later] at quiet
    exact absurd (List.mem_append_right _ List.mem_cons_self) quiet

namespace Session

variable {past : List Moment} {s : Session} {kind : Kind} {handle : Handle}

theorem kindForHandle_eq_some_iff : s.kindForHandle? handle = some kind ↔
    s.cached? kind = some handle ∧
      ∀ earlier : Kind, earlier.rank < kind.rank → s.cached? earlier ≠ some handle := by
  rw [kindForHandle?, find_eq_some_iff_idxOf]
  simp [Kind.mem_all, Kind.rank]

theorem kindForHandle_eq_none_iff :
    s.kindForHandle? handle = none ↔ ∀ kind, s.cached? kind ≠ some handle := by
  simp [kindForHandle?, Kind.mem_all]

/-- Finding the kind of a handle inverts reading the cache, and of several kinds it gives the one
that is declared first. Where no handle was given for two kinds since the last reset it gives each
cached kind back, and a handle that was given for no kind since then has none. -/
theorem kindForHandle_inverts_cached (reached : Reached past s) :
    (∀ handle kind, s.kindForHandle? handle = some kind ↔
      s.cached? kind = some handle ∧
        ∀ earlier : Kind, earlier.rank < kind.rank → s.cached? earlier ≠ some handle) ∧
    (∀ handle, s.kindForHandle? handle = none ↔ ∀ kind, s.cached? kind ≠ some handle) ∧
    (past.count .reset < UInt64.size →
      (∀ (kind other : Kind) handle, AnsweredSinceReset past kind.stableId handle →
        AnsweredSinceReset past other.stableId handle → kind = other) →
      ∀ kind handle, s.cached? kind = some handle → s.kindForHandle? handle = some kind) ∧
    (past.count .reset < UInt64.size →
      ∀ handle, (∀ kind : Kind, ¬AnsweredSinceReset past kind.stableId handle) →
        s.kindForHandle? handle = none) := by
  have recorded := reached.records.2
  refine ⟨fun _ _ => kindForHandle_eq_some_iff, fun _ => kindForHandle_eq_none_iff, ?_, ?_⟩
  · intro few distinct kind handle cached
    refine kindForHandle_eq_some_iff.mpr ⟨cached, ?_⟩
    intro earlier before there
    have same := distinct earlier kind handle (recorded.answeredSinceReset few there)
      (recorded.answeredSinceReset few cached)
    rw [same] at before
    exact Nat.lt_irrefl _ before
  · intro few handle ungiven
    apply kindForHandle_eq_none_iff.mpr
    intro kind cached
    exact ungiven kind (recorded.answeredSinceReset few cached)

/-- Inside a call for `and`, once `or` was resolved there: a handle given to `or` before the reset
has no kind, nor has the one that `and` is about to get. -/
theorem kindForHandle_inverts_cached_inside :
    let or := Kind.or.stableId
    let and := Kind.and.stableId
    let service : Service := ⟨[(or, ⟨9⟩), (and, ⟨7⟩)], none, [], []⟩
    let before := performAll [.resolve .or, .assign or (some ⟨8⟩), .reset] (.new service)
    let s := performAll [.resolve .or] { before with service := before.service.ask and }
    ∃ past, Reached past s ∧ s.cached? .or = some ⟨8⟩ ∧ s.kindForHandle? ⟨8⟩ = some .or ∧
      s.kindForHandle? ⟨9⟩ = none ∧ s.kindForHandle? ⟨7⟩ = none := by
  intro or and service before s
  have missed : before.cached? .and = none := by decide +kernel
  have reached := (((Reached.start service).run
    [.resolve .or, .assign or (some ⟨8⟩), .reset]).call missed).run [.resolve .or]
  generalize seen : [] ++ history [.resolve .or, .assign or (some ⟨8⟩), .reset] (.new service) ++
    _ ++ _ = past at reached
  have split : past =
      [.read .or none, .asked 0 or (.assigned ⟨9⟩), .answered 0 or (.assigned ⟨9⟩)] ++ .reset ::
        [.read .and none, .asked 1 and (.assigned ⟨7⟩), .read .or none,
          .asked 2 or (.assigned ⟨8⟩), .answered 2 or (.assigned ⟨8⟩)] := by
    rw [← seen]
    decide +kernel
  have few : past.count .reset < UInt64.size := by
    rw [split]
    decide
  have given (kind : Kind) (handle : Handle) :
      AnsweredSinceReset past kind.stableId handle → kind = .or ∧ handle = ⟨8⟩ := by
    intro answered
    obtain ⟨call, member⟩ := answered.behind split
    have last : call = 2 ∧ kind.stableId = or ∧ handle = ⟨8⟩ := by simpa using member
    exact ⟨Kind.stableId_injective last.2.1, last.2.2⟩
  have cached : s.cached? .or = some ⟨8⟩ := by decide +kernel
  obtain ⟨-, -, inverts, ungiven⟩ := kindForHandle_inverts_cached reached
  refine ⟨past, reached, cached, inverts few ?_ .or ⟨8⟩ cached, ungiven few ⟨9⟩ ?_,
    ungiven few ⟨7⟩ ?_⟩
  · intro kind other handle here there
    rw [(given kind handle here).1, (given other handle there).1]
  · intro kind answered
    cases (given kind ⟨9⟩ answered).2
  · intro kind answered
    cases (given kind ⟨7⟩ answered).2

end Session

end Terminology
