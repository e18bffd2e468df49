/-
  TokioEvents.Dispatcher.CircuitCalls

  Concurrent `should_retry` and `on_permanent_failure` calls on one `CircuitBreaker`, one
  step for each lock that a call acquires or drops and for each answer of the wrapped
  policy.

  `CallPhase` lists the places where a call can be.  `wants` and `releases` name the lock
  that the next step takes or gives back, `holds` the guards that are alive, and
  `afterLock` and `afterRelease` what the code does up to the next such place; guards are
  dropped in the reverse of the order in which they were taken, a temporary one at the end
  of its statement.  What a call will read of the clock and be answered by the wrapped
  policy is fixed when it begins and otherwise arbitrary.

  A call that has the breaker for itself does what `shouldRetry` and `onPermanentFailure`
  do (`solo_shouldRetry`, `solo_onPermanentFailure`).
-/

import TokioEvents.Dispatcher.CircuitBreaker
import TokioEvents.Lib.Locks

namespace TokioEvents

/-- The four `RwLock`s of a `CircuitBreaker`, which only ever are locked for writing. -/
inductive BreakerLock where
  | state
  | failureCount
  | successCount
  | lastFailure
  deriving DecidableEq, Repr

/-- Who calls `check_state`. -/
inductive Check where
  | ofShouldRetry
  | ofRecordSuccess
  deriving DecidableEq, Repr

/-- The place that a call has reached. -/
inductive CallPhase where
  -- `check_state`
  | lockState (check : Check)
  | lockLast (check : Check)
  | lockSuccess (check : Check)
  | unlockSuccess (check : Check)
  | unlockLast (check : Check) (state : CircuitState)
  | unlockState (check : Check) (state : CircuitState)
  -- `self.inner.should_retry` and `self.inner.on_permanent_failure`
  | inner
  | innerPermanent
  -- `record_failure`
  | failCount
  | failLast
  | failOpen
  | failUnlockState
  | failUnlockLast
  | failUnlockCount (returns : Bool)
  -- `record_success` in a half-open circuit
  | succCount
  | succClose
  | succUnlockState
  | succReset
  | succUnlockReset
  | succUnlockCount (returns : Bool)
  -- `record_success` in a closed circuit
  | closedReset
  | closedUnlock
  /-- The call is over: what it returned, unless it panicked. -/
  | done (result : Option (Option Duration))
  deriving DecidableEq

namespace CallPhase

/-- The lock that the next step acquires. -/
def wants : CallPhase → Option BreakerLock
  | .lockState _ => some .state
  | .lockLast _ => some .lastFailure
  | .lockSuccess _ => some .successCount
  | .failCount => some .failureCount
  | .failLast => some .lastFailure
  | .failOpen => some .state
  | .succCount => some .successCount
  | .succClose => some .state
  | .succReset => some .failureCount
  | .closedReset => some .failureCount
  | _ => none

/-- The lock that the next step drops. -/
def releases : CallPhase → Option BreakerLock
  | .unlockSuccess _ => some .successCount
  | .unlockLast _ _ => some .lastFailure
  | .unlockState _ _ => some .state
  | .failUnlockState => some .state
  | .failUnlockLast => some .lastFailure
  | .failUnlockCount _ => some .failureCount
  | .succUnlockState => some .state
  | .succUnlockReset => some .failureCount
  | .succUnlockCount _ => some .successCount
  | .closedUnlock => some .failureCount
  | _ => none

/-- The locks whose guards are alive. -/
def holds : CallPhase → Finset BreakerLock
  | .lockLast _ => {.state}
  | .lockSuccess _ => {.state, .lastFailure}
  | .unlockSuccess _ => {.state, .lastFailure, .successCount}
  | .unlockLast _ _ => {.state, .lastFailure}
  | .unlockState _ _ => {.state}
  | .failLast => {.failureCount}
  | .failOpen => {.failureCount, .lastFailure}
  | .failUnlockState => {.failureCount, .lastFailure, .state}
  | .failUnlockLast => {.failureCount, .lastFailure}
  | .failUnlockCount _ => {.failureCount}
  | .succClose => {.successCount}
  | .succUnlockState => {.successCount, .state}
  | .succReset => {.successCount}
  | .succUnlockReset => {.successCount, .failureCount}
  | .succUnlockCount _ => {.successCount}
  | .closedUnlock => {.failureCount}
  | _ => ∅

end CallPhase

/-- A call of `should_retry` or `on_permanent_failure`. -/
structure BreakerCall where
  inputs : CircuitBreaker.CallInputs := {}
  phase : CallPhase
  deriving DecidableEq

namespace BreakerCall

/-- Where `should_retry` and `on_permanent_failure` begin. -/
def initial (c : BreakerCall) : Prop :=
  c.phase = .lockState .ofShouldRetry ∨ c.phase = .innerPermanent

instance : DecidablePred initial := fun c => inferInstanceAs (Decidable (c.phase = _ ∨ _))

/-- The clock as `check_state` reads it. -/
def clock (c : BreakerCall) : Check → Nat
  | .ofShouldRetry => c.inputs.checkedAt
  | .ofRecordSuccess => c.inputs.recheckedAt

/-- From the acquisition of a lock to the next place. -/
def afterLock (b : CircuitBreaker) (c : BreakerCall) : CircuitBreaker × CallPhase :=
  match c.phase with
  | .lockState check => (b, .lockLast check)
  | .lockLast check =>
    match b.state with
    | .opened =>
      if b.timedOut (c.clock check) then ({ b with state := .halfOpen }, .lockSuccess check)
      else (b, .unlockLast check .opened)
    | .halfOpen => (b, .unlockLast check .halfOpen)
    | .closed => (b, .unlockLast check .closed)
  | .lockSuccess check => ({ b with successCount := 0 }, .unlockSuccess check)
  | .failCount =>
    match Word32.add b.overflowChecks b.failureCount 1 with
    | some failureCount => ({ b with failureCount := failureCount }, .failLast)
    | none => (b, .failUnlockCount false)
  | .failLast =>
    ({ b with lastFailure := some c.inputs.failedAt },
      if b.failureThreshold ≤ b.failureCount then .failOpen else .failUnlockLast)
  | .failOpen => ({ b with state := .opened }, .failUnlockState)
  | .succCount =>
    match Word32.add b.overflowChecks b.successCount 1 with
    | some successCount =>
      ({ b with successCount := successCount },
        if b.successThreshold ≤ successCount then .succClose else .succUnlockCount true)
    | none => (b, .succUnlockCount false)
  | .succClose => ({ b with state := .closed }, .succUnlockState)
  | .succReset => ({ b with failureCount := 0 }, .succUnlockReset)
  | .closedReset => ({ b with failureCount := 0 }, .closedUnlock)
  | phase => (b, phase)

/-- `check_state` has returned to its caller. -/
def afterCheck (state : CircuitState) : Check → CallPhase
  | .ofShouldRetry => if state = .opened then .done (some none) else .inner
  | .ofRecordSuccess =>
    match state with
    | .halfOpen => .succCount
    | .closed => .closedReset
    | .opened => .done (some none)

/-- From the drop of a guard, or the return of the wrapped policy, to the next place. -/
def afterRelease (c : BreakerCall) : CallPhase :=
  match c.phase with
  | .unlockSuccess check => .unlockLast check .halfOpen
  | .unlockLast check state => .unlockState check state
  | .unlockState check state => afterCheck state check
  | .inner => if c.inputs.answer.isSome then .failCount else .lockState .ofRecordSuccess
  | .innerPermanent => .failCount
  | .failUnlockState => .failUnlockLast
  | .failUnlockLast => .failUnlockCount true
  | .failUnlockCount returns => .done (if returns then some c.inputs.answer else none)
  | .succUnlockState => .succReset
  | .succUnlockReset => .succUnlockCount true
  | .succUnlockCount returns => .done (if returns then some none else none)
  | .closedUnlock => .done (some none)
  | phase => phase

end BreakerCall

/-- The breaker, and the locks of it that are taken. -/
structure SharedBreaker where
  breaker : CircuitBreaker
  locked : Finset BreakerLock

namespace BreakerCall

/-- One step of a call; a call that is over has none, and neither has one whose lock is taken. -/
def next (s : SharedBreaker) (c : BreakerCall) : Option (SharedBreaker × BreakerCall) :=
  match c.phase.wants with
  | some l =>
    if l ∈ s.locked then none
    else
      let (breaker, phase) := c.afterLock s.breaker
      some (⟨breaker, insert l s.locked⟩, { c with phase := phase })
  | none =>
    match c.phase with
    | .done _ => none
    | _ =>
      let locked := c.phase.releases.elim s.locked s.locked.erase
      some (⟨s.breaker, locked⟩, { c with phase := c.afterRelease })

/-- How the calls use the locks. -/
def discipline : Locks.Discipline SharedBreaker BreakerCall BreakerLock where
  locked s := s.locked
  holds c := c.phase.holds
  wants c := c.phase.wants

end BreakerCall

/-- A breaker and the calls on it. -/
abbrev BreakerCalls := Calls.Pool SharedBreaker BreakerCall

namespace BreakerCalls

/-- A step of one of the calls, or the begin of another. -/
abbrev step : BreakerCalls → Calls.Action BreakerCall → Option BreakerCalls :=
  Calls.step BreakerCall.initial BreakerCall.next

/-- A new breaker, before any call. -/
def start (failureThreshold successThreshold : Nat) (timeout : Duration) (overflowChecks : Bool) :
    BreakerCalls :=
  ⟨⟨.new failureThreshold successThreshold timeout overflowChecks, ∅⟩, []⟩

end BreakerCalls

/-! ## What a step does -/

namespace BreakerCall

/-- A step takes a lock and goes on, or drops what it drops. -/
theorem next_cases {s s' : SharedBreaker} {c c' : BreakerCall} (h : next s c = some (s', c')) :
    (∃ l, c.phase.wants = some l ∧ l ∉ s.locked ∧
        s' = ⟨(c.afterLock s.breaker).1, insert l s.locked⟩ ∧
        c' = { c with phase := (c.afterLock s.breaker).2 }) ∨
      (c.phase.wants = none ∧
        s' = ⟨s.breaker, c.phase.releases.elim s.locked s.locked.erase⟩ ∧
        c' = { c with phase := c.afterRelease }) := by
  unfold next at h
  split at h
  · next l hwants =>
    split at h
    · cases h
    · next hfree =>
      cases h
      exact .inl ⟨l, hwants, hfree, rfl, rfl⟩
  · next hwants =>
    split at h
    · cases h
    · cases h
      exact .inr ⟨hwants, rfl, rfl⟩

/-- After an acquisition the guard is alive beside those that were. -/
theorem holds_afterLock {c : BreakerCall} {l : BreakerLock} (b : CircuitBreaker)
    (h : c.phase.wants = some l) : (c.afterLock b).2.holds = insert l c.phase.holds := by
  unfold afterLock
  cases hphase : c.phase <;> rw [hphase] at h <;> cases h
  case lockLast check =>
    dsimp only
    split
    · split <;> exact Finset.pair_comm _ _
    · exact Finset.pair_comm _ _
    · exact Finset.pair_comm _ _
  case failCount => dsimp only; split <;> rfl
  case failLast => dsimp only; split <;> exact Finset.pair_comm _ _
  case succCount =>
    dsimp only
    split
    · dsimp only; split <;> rfl
    · rfl
  all_goals
    ext l
    cases l <;> simp [CallPhase.holds]

/-- What is dropped was held. -/
theorem mem_holds_of_releases {phase : CallPhase} {l : BreakerLock}
    (h : phase.releases = some l) : l ∈ phase.holds := by
  cases phase <;> cases h <;> simp [CallPhase.holds]

/-- After a release the other guards are alive. -/
theorem holds_afterRelease {c : BreakerCall} (h : c.phase.wants = none) :
    c.afterRelease.holds = c.phase.releases.elim c.phase.holds c.phase.holds.erase := by
  unfold afterRelease
  cases hphase : c.phase <;> rw [hphase] at h <;> cases h
  case unlockState check state =>
    show (afterCheck state check).holds = Finset.erase {BreakerLock.state} BreakerLock.state
    cases check <;> cases state <;> decide
  case inner => dsimp only; split <;> rfl
  all_goals
    ext l
    cases l <;> simp [CallPhase.holds, CallPhase.releases]

theorem obeyed_discipline : discipline.Obeyed next := by
  intro s c s' c' h
  rcases next_cases h with ⟨l, hwants, hfree, rfl, rfl⟩ | ⟨hwants, rfl, rfl⟩
  · exact .inr (.inl ⟨l, hwants, hfree, rfl, holds_afterLock _ hwants⟩)
  · have hholds := holds_afterRelease hwants
    cases hreleases : c.phase.releases with
    | none =>
      rw [hreleases] at hholds
      exact .inl ⟨rfl, hholds⟩
    | some l =>
      rw [hreleases] at hholds
      exact .inr (.inr ⟨l, mem_holds_of_releases hreleases, rfl, hholds⟩)

theorem holds_initial {c : BreakerCall} (h : c.initial) : discipline.holds c = ∅ := by
  show c.phase.holds = ∅
  rcases h with h | h <;> rw [h] <;> rfl

end BreakerCall

namespace BreakerCalls

open BreakerCall

/-- The locks exclude: of two calls only one holds a lock. -/
theorem exclusive_step {p p' : BreakerCalls} {a : Calls.Action BreakerCall}
    (h : discipline.Exclusive p) (hstep : step p a = some p') : discipline.Exclusive p' :=
  h.step obeyed_discipline (fun _ => holds_initial) hstep

/-- Steps of one call. -/
def advances (index n : Nat) : List (Calls.Action BreakerCall) :=
  List.replicate n (.advance index)

/-- A call that the wrapped policy does not answer, so that a success is recorded, and a call
    that records a failure. -/
def successAndFailure : List (Calls.Action BreakerCall) :=
  [.begin { phase := .lockState .ofShouldRetry }, .begin { phase := .innerPermanent }]

/-! ## A call on its own -/

/-- A call that has the breaker for itself gets from one place to another. -/
def Runs (s : SharedBreaker) (c : BreakerCall) (s' : SharedBreaker) (c' : BreakerCall) : Prop :=
  ∃ n, Transition.exec step ⟨s, [c]⟩ (advances 0 n) = some ⟨s', [c']⟩

theorem Runs.refl (s : SharedBreaker) (c : BreakerCall) : Runs s c s c := ⟨0, rfl⟩

theorem Runs.next {s s₁ s' : SharedBreaker} {c c₁ c' : BreakerCall}
    (h : next s c = some (s₁, c₁)) (hrest : Runs s₁ c₁ s' c') : Runs s c s' c' := by
  obtain ⟨n, hn⟩ := hrest
  refine ⟨n + 1, ?_⟩
  rw [advances, List.replicate_succ, Calls.exec_solo h]
  exact hn

theorem Runs.trans {s s₁ s' : SharedBreaker} {c c₁ c' : BreakerCall} (h : Runs s c s₁ c₁)
    (hrest : Runs s₁ c₁ s' c') : Runs s c s' c' := by
  obtain ⟨m, hm⟩ := h
  obtain ⟨n, hn⟩ := hrest
  refine ⟨m + n, ?_⟩
  have happend : advances 0 (m + n) = advances 0 m ++ advances 0 n := List.replicate_add _ _ _
  rw [happend, Transition.exec_append_of_exec _ hm]
  exact hn

/-- A free lock is taken. -/
theorem Runs.lock {b : CircuitBreaker} {locked : Finset BreakerLock} {s' : SharedBreaker}
    {c c' : BreakerCall} (l : BreakerLock) (b' : CircuitBreaker) (phase : CallPhase)
    (hwants : c.phase.wants = some l) (hfree : l ∉ locked) (hafter : c.afterLock b = (b', phase))
    (hrest : Runs ⟨b', insert l locked⟩ { c with phase := phase } s' c') :
    Runs ⟨b, locked⟩ c s' c' := by
  refine .next ?_ hrest
  unfold BreakerCall.next
  rw [hwants]
  dsimp only
  rw [if_neg hfree, hafter]

variable (b : CircuitBreaker) (inputs : CircuitBreaker.CallInputs)

theorem runs_checkState (check : Check) :
    Runs ⟨b, ∅⟩ ⟨inputs, .lockState check⟩
      ⟨(b.checkState (BreakerCall.clock ⟨inputs, .lockState check⟩ check)).1, ∅⟩
      ⟨inputs, afterCheck (b.checkState (BreakerCall.clock ⟨inputs, .lockState check⟩ check)).2
        check⟩ := by
  refine .lock .state b _ rfl (by decide) rfl ?_
  unfold CircuitBreaker.checkState
  cases hstate : b.state with
  | closed =>
    refine .lock .lastFailure b (.unlockLast check .closed) rfl (by decide) ?_ ?_
    · simp only [afterLock, hstate]
    · exact .next rfl (.next rfl (.refl _ _))
  | halfOpen =>
    refine .lock .lastFailure b (.unlockLast check .halfOpen) rfl (by decide) ?_ ?_
    · simp only [afterLock, hstate]
    · exact .next rfl (.next rfl (.refl _ _))
  | opened =>
    dsimp only
    split
    · next htimed =>
      refine .lock .lastFailure { b with state := .halfOpen } (.lockSuccess check) rfl (by decide)
        ?_ ?_
      · simp only [afterLock, hstate]
        exact if_pos htimed
      · refine .lock .successCount _ _ rfl (by decide) rfl ?_
        exact .next rfl (.next rfl (.next rfl (.refl _ _)))
    · next htimed =>
      refine .lock .lastFailure b (.unlockLast check .opened) rfl (by decide) ?_ ?_
      · simp only [afterLock, hstate]
        exact if_neg htimed
      · exact .next rfl (.next rfl (.refl _ _))

theorem runs_recordFailure :
    Runs ⟨b, ∅⟩ ⟨inputs, .failCount⟩ ⟨(b.recordFailure inputs.failedAt).1, ∅⟩
      ⟨inputs, .done
        (if (b.recordFailure inputs.failedAt).2 then some inputs.answer else none)⟩ := by
  unfold CircuitBreaker.recordFailure
  cases hadd : Word32.add b.overflowChecks b.failureCount 1 with
  | none =>
    refine .lock .failureCount b (.failUnlockCount false) rfl (by decide) ?_ ?_
    · simp only [afterLock, hadd]
    · exact .next rfl (.refl _ _)
  | some failureCount =>
    refine .lock .failureCount { b with failureCount := failureCount } .failLast rfl (by decide)
      ?_ ?_
    · simp only [afterLock, hadd]
    · dsimp only
      split
      · next hreached =>
        refine .lock .lastFailure
          { b with failureCount := failureCount, lastFailure := some inputs.failedAt } .failOpen rfl
          (by decide) ?_ ?_
        · simp only [afterLock]
          rw [if_pos hreached]
        · refine .lock .state _ _ rfl (by decide) rfl ?_
          exact .next rfl (.next rfl (.next rfl (.refl _ _)))
      · next hbelow =>
        refine .lock .lastFailure
          { b with failureCount := failureCount, lastFailure := some inputs.failedAt }
          .failUnlockLast rfl (by decide) ?_ ?_
        · simp only [afterLock]
          rw [if_neg hbelow]
        · exact .next rfl (.next rfl (.refl _ _))

/-- `record_success`, which only `should_retry` calls, and only without an answer. -/
theorem runs_recordSuccess (hanswer : inputs.answer = none) :
    Runs ⟨b, ∅⟩ ⟨inputs, .lockState .ofRecordSuccess⟩ ⟨(b.recordSuccess inputs.recheckedAt).1, ∅⟩
      ⟨inputs, .done
        (if (b.recordSuccess inputs.recheckedAt).2 then some inputs.answer else none)⟩ := by
  refine (runs_checkState b inputs .ofRecordSuccess).trans ?_
  show Runs ⟨(b.checkState inputs.recheckedAt).1, ∅⟩
    ⟨inputs, afterCheck (b.checkState inputs.recheckedAt).2 .ofRecordSuccess⟩ _ _
  generalize hr : b.recordSuccess inputs.recheckedAt = r
  unfold CircuitBreaker.recordSuccess at hr
  rw [hanswer]
  rcases hcheck : b.checkState inputs.recheckedAt with ⟨b, _ | _ | _⟩
  · rw [hcheck] at hr
    subst hr
    refine .lock .failureCount { b with failureCount := 0 } .closedUnlock rfl (by decide) rfl ?_
    exact .next rfl (.refl _ _)
  · rw [hcheck] at hr
    subst hr
    exact .refl _ _
  · rw [hcheck] at hr
    dsimp only at hr
    rw [if_pos rfl] at hr
    cases hadd : Word32.add b.overflowChecks b.successCount 1 with
    | none =>
      rw [hadd] at hr
      subst hr
      refine .lock .successCount b (.succUnlockCount false) rfl (by decide) ?_ ?_
      · simp only [afterLock, afterCheck, hadd]
      · exact .next rfl (.refl _ _)
    | some successCount =>
      rw [hadd] at hr
      dsimp only at hr
      by_cases hreached : b.successThreshold ≤ successCount
      · rw [if_pos hreached] at hr
        subst hr
        refine .lock .successCount { b with successCount := successCount } .succClose rfl
          (by decide) ?_ ?_
        · simp only [afterLock, afterCheck, hadd]
          rw [if_pos hreached]
        · refine .lock .state _ _ rfl (by decide) rfl ?_
          have hfree : BreakerLock.failureCount
              ∉ Finset.erase (insert .state (insert .successCount ∅)) BreakerLock.state := by decide
          refine .next rfl (.lock .failureCount _ _ rfl hfree rfl ?_)
          exact .next rfl (.next rfl (.refl _ _))
      · rw [if_neg hreached] at hr
        subst hr
        refine .lock .successCount { b with successCount := successCount } (.succUnlockCount true)
          rfl (by decide) ?_ ?_
        · simp only [afterLock, afterCheck, hadd]
          rw [if_neg hreached]
        · exact .next rfl (.refl _ _)

/-- **`should_retry` on its own** does what `shouldRetry` says. -/
theorem solo_shouldRetry :
    Runs ⟨b, ∅⟩ ⟨inputs, .lockState .ofShouldRetry⟩ ⟨(b.shouldRetry inputs).1, ∅⟩
      ⟨inputs, .done (b.shouldRetry inputs).2⟩ := by
  refine (runs_checkState b inputs .ofShouldRetry).trans ?_
  show Runs ⟨(b.checkState inputs.checkedAt).1, ∅⟩
    ⟨inputs, afterCheck (b.checkState inputs.checkedAt).2 .ofShouldRetry⟩ _ _
  by_cases hopened : (b.checkState inputs.checkedAt).2 = .opened
  · rw [CircuitBreaker.shouldRetry_opened hopened, hopened]
    exact .refl _ _
  · rw [afterCheck, if_neg hopened]
    by_cases hsome : inputs.answer.isSome = true
    · rw [CircuitBreaker.shouldRetry_some hopened hsome]
      have hstep : next ⟨(b.checkState inputs.checkedAt).1, ∅⟩ ⟨inputs, .inner⟩
          = some (⟨(b.checkState inputs.checkedAt).1, ∅⟩, ⟨inputs, .failCount⟩) := by
        simp only [BreakerCall.next, CallPhase.wants, CallPhase.releases, afterRelease, hsome]
        rfl
      exact .next hstep (runs_recordFailure _ inputs)
    · have hnone : inputs.answer = none := by simpa using hsome
      rw [CircuitBreaker.shouldRetry_none hopened hnone]
      have hstep : next ⟨(b.checkState inputs.checkedAt).1, ∅⟩ ⟨inputs, .inner⟩
          = some (⟨(b.checkState inputs.checkedAt).1, ∅⟩,
            ⟨inputs, .lockState .ofRecordSuccess⟩) := by
        simp only [BreakerCall.next, CallPhase.wants, CallPhase.releases, afterRelease, hnone]
        rfl
      have hrest := runs_recordSuccess (b.checkState inputs.checkedAt).1 inputs hnone
      rw [hnone] at hrest
      exact .next hstep hrest

/-- **`on_permanent_failure` on its own** does what `onPermanentFailure` says. -/
theorem solo_onPermanentFailure :
    Runs ⟨b, ∅⟩ ⟨inputs, .innerPermanent⟩ ⟨(b.onPermanentFailure inputs).1, ∅⟩
      ⟨inputs, .done
        (if (b.onPermanentFailure inputs).2 then some inputs.answer else none)⟩ :=
  .next rfl (runs_recordFailure b inputs)

end BreakerCalls
end TokioEvents
