/-
  TokioEvents.Dispatcher.Deadlock

  Deadlocks among the calls on a `CircuitBreaker`.

  `check_state` takes `state` before `last_failure` and `success_count`, `record_failure`
  takes `failure_count` and `last_failure` before `state`, and `record_success` takes
  `success_count` before `state` and `failure_count`.  A call that holds a guard while it
  waits does so in one of six ways (`Wait`), and the deadlocks are the three rings that
  these can form (`deadlocked_iff`).
-/

import TokioEvents.Dispatcher.CircuitCalls

namespace TokioEvents

open Calls

/-- How a call waits for a lock while it holds others. -/
inductive Wait where
  /-- `check_state` before `last_failure`. -/
  | stateForLast
  /-- `check_state` before it resets `success_count`. -/
  | checkForSuccess
  /-- `record_success` before it closes the circuit. -/
  | successForState
  /-- `record_success` before it resets `failure_count`. -/
  | successForFailure
  /-- `record_failure` before `last_failure`. -/
  | failureForLast
  /-- `record_failure` before it opens the circuit. -/
  | failureForState
  deriving DecidableEq, Repr

namespace Wait

/-- The lock waited for. -/
def lock : Wait → BreakerLock
  | .stateForLast => .lastFailure
  | .checkForSuccess => .successCount
  | .successForState => .state
  | .successForFailure => .failureCount
  | .failureForLast => .lastFailure
  | .failureForState => .state

/-- The locks held meanwhile. -/
def held : Wait → Finset BreakerLock
  | .stateForLast => {.state}
  | .checkForSuccess => {.state, .lastFailure}
  | .successForState => {.successCount}
  | .successForFailure => {.successCount}
  | .failureForLast => {.failureCount}
  | .failureForState => {.failureCount, .lastFailure}

/-- The rings that waiting calls can form. -/
def Ring (waiting : Wait → Prop) : Prop :=
  (waiting .stateForLast ∧ waiting .failureForState) ∨
    (waiting .checkForSuccess ∧ waiting .successForState) ∨
    (waiting .checkForSuccess ∧ waiting .successForFailure ∧ waiting .failureForLast)

/-- The other calls of a ring are waiting already. -/
def CompletedBy (other : Wait → Prop) : Wait → Prop
  | .stateForLast => other .failureForState
  | .checkForSuccess =>
    other .successForState ∨ (other .successForFailure ∧ other .failureForLast)
  | .successForState => other .checkForSuccess
  | .successForFailure => other .checkForSuccess ∧ other .failureForLast
  | .failureForLast => other .checkForSuccess ∧ other .successForFailure
  | .failureForState => other .stateForLast

instance decidableCompletedBy {other : Wait → Prop} [DecidablePred other] :
    (w : Wait) → Decidable (CompletedBy other w)
  | .stateForLast => inferInstanceAs (Decidable (other _))
  | .checkForSuccess => inferInstanceAs (Decidable (other _ ∨ (other _ ∧ other _)))
  | .successForState => inferInstanceAs (Decidable (other _))
  | .successForFailure => inferInstanceAs (Decidable (other _ ∧ other _))
  | .failureForLast => inferInstanceAs (Decidable (other _ ∧ other _))
  | .failureForState => inferInstanceAs (Decidable (other _))

/-- Where the others form no ring, one more call forms one if it completes it. -/
theorem ring_insert_iff {other : Wait → Prop} (h : ¬ Ring other) (own : Option Wait) :
    Ring (fun w => own = some w ∨ other w) ↔ ∃ w, own = some w ∧ CompletedBy other w := by
  cases own with
  | none => simpa using h
  | some w =>
    simp only [Option.some.injEq, exists_eq_left']
    unfold Ring at h ⊢
    cases w <;> simp only [CompletedBy, reduceCtorEq, false_or, true_or, true_and] <;> tauto

theorem ring_mono {waiting waiting' : Wait → Prop} (h : ∀ w, waiting w → waiting' w)
    (hring : Ring waiting) : Ring waiting' :=
  hring.imp (And.imp (h _) (h _))
    (Or.imp (And.imp (h _) (h _)) (And.imp (h _) (And.imp (h _) (h _))))

/-- The ways of waiting in which the lock is held that this one waits for. -/
def blockers : Wait → List Wait
  | .stateForLast => [.checkForSuccess, .failureForState]
  | .checkForSuccess => [.successForState, .successForFailure]
  | .successForState => [.stateForLast, .checkForSuccess]
  | .successForFailure => [.failureForLast, .failureForState]
  | .failureForLast => [.checkForSuccess, .failureForState]
  | .failureForState => [.stateForLast, .checkForSuccess]

theorem mem_blockers {w w' : Wait} (h : w.lock ∈ w'.held) : w' ∈ w.blockers := by
  revert h
  cases w <;> cases w' <;> decide

/-- Where every wait has a blocker that waits, and no two waits share a lock, there is a ring:
    follow the blockers from any wait. -/
theorem ring_of_blocked {waiting : Wait → Prop} (hfirst : ∃ w, waiting w)
    (hblocked : ∀ w, waiting w → ∃ w' ∈ w.blockers, waiting w')
    (hexclude : ∀ w w' l, w ≠ w' → l ∈ w.held → l ∈ w'.held → ¬ (waiting w ∧ waiting w')) :
    Ring waiting := by
  have hstate := hexclude .stateForLast .checkForSuccess .state (by decide) (by decide) (by decide)
  have hlast := hexclude .checkForSuccess .failureForState .lastFailure (by decide) (by decide)
    (by decide)
  have hcount := hexclude .failureForLast .failureForState .failureCount (by decide) (by decide)
    (by decide)
  have h₁ := hblocked .stateForLast
  have h₂ := hblocked .checkForSuccess
  have h₃ := hblocked .successForState
  have h₄ := hblocked .successForFailure
  have h₅ := hblocked .failureForLast
  have h₆ := hblocked .failureForState
  simp only [blockers, List.mem_cons, List.not_mem_nil, or_false, exists_eq_or_imp,
    exists_eq_left] at h₁ h₂ h₃ h₄ h₅ h₆
  obtain ⟨w, hw⟩ := hfirst
  unfold Ring
  cases w <;> grind

end Wait

namespace CallPhase

/-- How a call waits there. -/
def wait : CallPhase → Option Wait
  | .lockLast _ => some .stateForLast
  | .lockSuccess _ => some .checkForSuccess
  | .succClose => some .successForState
  | .succReset => some .successForFailure
  | .failLast => some .failureForLast
  | .failOpen => some .failureForState
  | _ => none

theorem wait_eq_some {phase : CallPhase} {w : Wait} (h : phase.wait = some w) :
    phase.wants = some w.lock ∧ phase.holds = w.held := by
  cases phase <;> cases h <;> exact ⟨rfl, rfl⟩

/-- A call that waits and holds something waits in one of these ways. -/
theorem exists_wait {phase : CallPhase} {l l' : BreakerLock} (hwants : phase.wants = some l)
    (hholds : l' ∈ phase.holds) : ∃ w, phase.wait = some w := by
  cases phase <;> cases hwants <;> first | exact ⟨_, rfl⟩ | simp [holds] at hholds

end CallPhase

namespace BreakerCalls

open BreakerCall

/-- Some call waits that way. -/
def Waiting (p : BreakerCalls) (w : Wait) : Prop := ∃ c ∈ p.calls, c.phase.wait = some w

/-- Some call other than the one at a position does. -/
def OtherWaiting (p : BreakerCalls) (index : Nat) (w : Wait) : Prop :=
  Other p index fun c => c.phase.wait = some w

instance (p : BreakerCalls) (index : Nat) (w : Wait) : Decidable (p.OtherWaiting index w) :=
  inferInstanceAs (Decidable (Other _ _ _))

/-- Two calls that wait in different ways share no lock. -/
theorem not_waiting_both {p : BreakerCalls} (h : discipline.Exclusive p) {w w' : Wait}
    {l : BreakerLock} (hne : w ≠ w') (hl : l ∈ w.held) (hl' : l ∈ w'.held) :
    ¬ (p.Waiting w ∧ p.Waiting w') := by
  rintro ⟨⟨c, hc, hw⟩, ⟨c', hc', hw'⟩⟩
  obtain ⟨i, hi⟩ := List.mem_iff_getElem?.mp hc
  obtain ⟨j, hj⟩ := List.mem_iff_getElem?.mp hc'
  have hij : i ≠ j := by
    rintro rfl
    cases hi.symm.trans hj
    exact hne (Option.some.inj (hw.symm.trans hw'))
  have hdisj : Disjoint c.phase.holds c'.phase.holds := h.disjoint i j c c' hij hi hj
  rw [(CallPhase.wait_eq_some hw).2, (CallPhase.wait_eq_some hw').2] at hdisj
  exact Finset.disjoint_left.mp hdisj hl hl'

/-- A call waits for another that holds the lock in its own wait. -/
theorem waits_of_wait {p : BreakerCalls} {i j : Nat} {c c' : BreakerCall} {w w' : Wait}
    (hi : p.calls[i]? = some c) (hj : p.calls[j]? = some c') (hw : c.phase.wait = some w)
    (hw' : c'.phase.wait = some w') (hne : w ≠ w') (hl : w.lock ∈ w'.held) :
    discipline.Waits p i j := by
  refine ⟨?_, c, c', w.lock, hi, hj, (CallPhase.wait_eq_some hw).1, ?_⟩
  · rintro rfl
    cases hi.symm.trans hj
    exact hne (Option.some.inj (hw.symm.trans hw'))
  · show w.lock ∈ c'.phase.holds
    rw [(CallPhase.wait_eq_some hw').2]
    exact hl

/-- **The deadlocks** are the three rings. -/
theorem deadlocked_iff {p : BreakerCalls} (h : discipline.Exclusive p) :
    discipline.Deadlocked p ↔ Wait.Ring p.Waiting := by
  constructor
  · rintro ⟨stuck, ⟨i₀, hi₀⟩, hstuck⟩
    let waiting : Wait → Prop := fun w =>
      ∃ i ∈ stuck, ∃ c, p.calls[i]? = some c ∧ c.phase.wait = some w
    -- whoever blocks a call of the set is in the set, so it waits as well
    have hheld : ∀ i ∈ stuck, ∃ c l, p.calls[i]? = some c ∧ c.phase.wants = some l ∧
        ∃ w, waiting w ∧ l ∈ w.held := by
      intro i hi
      obtain ⟨j, hj, -, c, c', l, hc, hc', hwants, hl⟩ := hstuck i hi
      obtain ⟨k, -, -, c₁, -, l', hc₁, -, hwants', -⟩ := hstuck j hj
      cases hc'.symm.trans hc₁
      obtain ⟨w, hw⟩ := CallPhase.exists_wait hwants' hl
      have hl' : l ∈ c'.phase.holds := hl
      rw [(CallPhase.wait_eq_some hw).2] at hl'
      exact ⟨c, l, hc, hwants, w, ⟨j, hj, c', hc', hw⟩, hl'⟩
    have hring : Wait.Ring waiting := by
      refine Wait.ring_of_blocked ?_ ?_ ?_
      · obtain ⟨c, l, -, -, w, hw, -⟩ := hheld i₀ hi₀
        exact ⟨w, hw⟩
      · rintro w ⟨i, hi, c, hc, hw⟩
        obtain ⟨c₁, l, hc₁, hwants, w', hw', hl⟩ := hheld i hi
        cases hc.symm.trans hc₁
        cases (CallPhase.wait_eq_some hw).1.symm.trans hwants
        exact ⟨w', Wait.mem_blockers hl, hw'⟩
      · rintro w w' l hne hl hl' ⟨⟨i, -, c, hc, hw⟩, ⟨j, -, c', hc', hw'⟩⟩
        exact not_waiting_both h hne hl hl'
          ⟨⟨c, List.mem_of_getElem? hc, hw⟩, ⟨c', List.mem_of_getElem? hc', hw'⟩⟩
    refine Wait.ring_mono ?_ hring
    rintro w ⟨i, -, c, hc, hw⟩
    exact ⟨c, List.mem_of_getElem? hc, hw⟩
  · rintro (⟨⟨c, hc, hw⟩, ⟨c', hc', hw'⟩⟩ | ⟨⟨c, hc, hw⟩, ⟨c', hc', hw'⟩⟩ |
      ⟨⟨c, hc, hw⟩, ⟨c', hc', hw'⟩, ⟨c'', hc'', hw''⟩⟩)
    · obtain ⟨i, hi⟩ := List.mem_iff_getElem?.mp hc
      obtain ⟨j, hj⟩ := List.mem_iff_getElem?.mp hc'
      exact Locks.Discipline.deadlocked_of_pair
        (waits_of_wait hi hj hw hw' (by decide) (by decide))
        (waits_of_wait hj hi hw' hw (by decide) (by decide))
    · obtain ⟨i, hi⟩ := List.mem_iff_getElem?.mp hc
      obtain ⟨j, hj⟩ := List.mem_iff_getElem?.mp hc'
      exact Locks.Discipline.deadlocked_of_pair
        (waits_of_wait hi hj hw hw' (by decide) (by decide))
        (waits_of_wait hj hi hw' hw (by decide) (by decide))
    · obtain ⟨i, hi⟩ := List.mem_iff_getElem?.mp hc
      obtain ⟨j, hj⟩ := List.mem_iff_getElem?.mp hc'
      obtain ⟨k, hk⟩ := List.mem_iff_getElem?.mp hc''
      exact Locks.Discipline.deadlocked_of_triple
        (waits_of_wait hi hj hw hw' (by decide) (by decide))
        (waits_of_wait hj hk hw' hw'' (by decide) (by decide))
        (waits_of_wait hk hi hw'' hw (by decide) (by decide))

/-! ## The steps that complete a ring -/

end BreakerCalls

/-- The wait with locks in hand that the next step of a call leads to. -/
def BreakerCall.enters (b : CircuitBreaker) (c : BreakerCall) : Option Wait :=
  match c.phase with
  | .lockState _ => some .stateForLast
  | .lockLast check =>
    if b.state = .opened ∧ b.timedOut (c.clock check) = true then some .checkForSuccess else none
  | .failCount =>
    if (Word32.add b.overflowChecks b.failureCount 1).isSome then some .failureForLast else none
  | .failLast => if b.failureThreshold ≤ b.failureCount then some .failureForState else none
  | .succCount =>
    (Word32.add b.overflowChecks b.successCount 1).bind fun successCount =>
      if b.successThreshold ≤ successCount then some .successForState else none
  | _ => none

namespace BreakerCalls

open BreakerCall

/-- No call takes the lock that completes a ring of waiting calls. -/
def AvoidsRing (p : BreakerCalls) : Calls.Action BreakerCall → Prop
  | .begin _ => True
  | .advance index =>
    ∀ c ∈ p.calls[index]?, ∀ w ∈ c.enters p.shared.breaker,
      ¬ Wait.CompletedBy (p.OtherWaiting index) w

instance decidableAvoidsRing (p : BreakerCalls) :
    (a : Calls.Action BreakerCall) → Decidable (p.AvoidsRing a)
  | .begin _ => isTrue trivial
  | .advance index =>
    inferInstanceAs (Decidable (∀ c ∈ p.calls[index]?, ∀ w ∈ c.enters p.shared.breaker,
      ¬ Wait.CompletedBy (p.OtherWaiting index) w))

/-- The wait after a step is the one that `enters` names; only the reset of `failure_count` is
    entered by a release. -/
theorem wait_afterLock (b : CircuitBreaker) (c : BreakerCall) {l : BreakerLock}
    (h : c.phase.wants = some l) : (c.afterLock b).2.wait = c.enters b := by
  unfold afterLock enters
  cases hphase : c.phase <;> rw [hphase] at h <;> cases h
  case lockLast check =>
    dsimp only
    cases hstate : b.state with
    | opened => dsimp only; split <;> simp_all [CallPhase.wait]
    | halfOpen => rfl
    | closed => rfl
  case failCount =>
    dsimp only
    cases Word32.add b.overflowChecks b.failureCount 1 <;> rfl
  case failLast => dsimp only; split <;> rfl
  case succCount =>
    dsimp only
    cases Word32.add b.overflowChecks b.successCount 1 with
    | none => rfl
    | some successCount => dsimp only; split <;> simp [CallPhase.wait, *]
  all_goals rfl

theorem wait_afterRelease {c : BreakerCall} (b : CircuitBreaker) (h : c.phase.wants = none) :
    c.enters b = none ∧
      (c.afterRelease.wait = none ∨
        (BreakerLock.state ∈ c.phase.holds ∧ c.afterRelease.wait = some .successForFailure)) := by
  unfold afterRelease enters
  cases hphase : c.phase <;> rw [hphase] at h <;> cases h
  case unlockState check state => cases check <;> cases state <;> exact ⟨rfl, .inl rfl⟩
  case inner => exact ⟨rfl, .inl (by dsimp only; split <;> rfl)⟩
  case succUnlockState => exact ⟨rfl, .inr ⟨by decide, rfl⟩⟩
  all_goals exact ⟨rfl, .inl rfl⟩

/-- The one wait that a release enters completes no ring: the state was still locked. -/
theorem not_completedBy_release {p : BreakerCalls} {index : Nat} {c : BreakerCall}
    (h : discipline.Exclusive p) (hcall : p.calls[index]? = some c)
    (hstate : BreakerLock.state ∈ c.phase.holds) :
    ¬ Wait.CompletedBy (p.OtherWaiting index) .successForFailure := by
  rintro ⟨⟨i, c', hne, hc', hw'⟩, -⟩
  have hdisj : Disjoint c'.phase.holds c.phase.holds := h.disjoint i index c' c hne hc' hcall
  rw [(CallPhase.wait_eq_some hw').2] at hdisj
  exact Finset.disjoint_left.mp hdisj (by decide) hstate

/-- **One step** from a state without a deadlock leads to none if and only if it completes no
    ring. -/
theorem not_deadlocked_step_iff {p p' : BreakerCalls} {a : Calls.Action BreakerCall}
    (h : discipline.Exclusive p) (hfree : ¬ discipline.Deadlocked p) (hstep : step p a = some p') :
    ¬ discipline.Deadlocked p' ↔ p.AvoidsRing a := by
  rw [deadlocked_iff h] at hfree
  rw [deadlocked_iff (exclusive_step h hstep)]
  cases a with
  | begin call =>
    obtain ⟨hinitial, rfl⟩ := step_begin.mp hstep
    refine iff_of_true (fun hring => hfree (Wait.ring_mono ?_ hring)) trivial
    rintro w ⟨c, hmem, hw⟩
    rcases List.mem_append.mp hmem with hold | hnew
    · exact ⟨c, hold, hw⟩
    · -- a call that begins holds nothing
      rw [List.mem_singleton.mp hnew] at hw
      rcases hinitial with hphase | hphase <;> rw [hphase] at hw <;> cases hw
  | advance index =>
    obtain ⟨c, shared', c', hcall, hnext, rfl⟩ := step_advance.mp hstep
    have hbefore : ∀ w, p.Waiting w ↔ c.phase.wait = some w ∨ p.OtherWaiting index w :=
      fun w => exists_mem_iff hcall
    have hafter : ∀ w, Waiting ⟨shared', p.calls.set index c'⟩ w
        ↔ c'.phase.wait = some w ∨ p.OtherWaiting index w :=
      fun w => exists_mem_advance_iff hcall
    have hothers : ¬ Wait.Ring (p.OtherWaiting index) := fun hring =>
      hfree (Wait.ring_mono (fun w hw => (hbefore w).mpr (.inr hw)) hring)
    have hring : Wait.Ring (Waiting ⟨shared', p.calls.set index c'⟩)
        ↔ ∃ w, c'.phase.wait = some w ∧ Wait.CompletedBy (p.OtherWaiting index) w := by
      rw [← Wait.ring_insert_iff hothers, funext fun w => propext (hafter w)]
    have havoids : p.AvoidsRing (.advance index)
        ↔ ∀ w, c.enters p.shared.breaker = some w →
            ¬ Wait.CompletedBy (p.OtherWaiting index) w := by
      constructor
      · exact fun hC w hw => hC c hcall w hw
      · intro hC c₁ hc₁ w hw
        cases hcall.symm.trans hc₁
        exact hC w hw
    rw [hring, havoids]
    push Not
    rcases next_cases hnext with ⟨l, hwants, -, -, rfl⟩ | ⟨hwants, -, rfl⟩
    · show (∀ w, (c.afterLock p.shared.breaker).2.wait = some w → _) ↔ _
      rw [wait_afterLock _ _ hwants]
    · obtain ⟨hnone, hwait⟩ := wait_afterRelease p.shared.breaker hwants
      rw [hnone]
      refine iff_of_true (fun w hw => ?_) (by simp)
      rcases hwait with hwait | ⟨hstate, hwait⟩
      · cases hwait.symm.trans hw
      · cases hwait.symm.trans hw
        exact not_completedBy_release h hcall hstate

/-- **Deadlocks of the breaker calls.** Whatever calls are made and however they interleave, no
    deadlock is reached if and only if no step completes a ring. -/
theorem throughout_not_deadlocked_iff {failureThreshold successThreshold : Nat}
    {timeout : Duration} {overflowChecks : Bool} {actions : List (Calls.Action BreakerCall)}
    {p : BreakerCalls}
    (hexec : Transition.exec step
      (start failureThreshold successThreshold timeout overflowChecks) actions = some p) :
    Transition.Throughout step (fun p => ¬ discipline.Deadlocked p)
        (start failureThreshold successThreshold timeout overflowChecks) actions
      ↔ Transition.Along step AvoidsRing
        (start failureThreshold successThreshold timeout overflowChecks) actions := by
  refine Transition.throughout_iff_along (I := discipline.Exclusive)
    (fun _ _ _ h hstep => exclusive_step h hstep)
    (fun _ _ _ h hfree hstep => not_deadlocked_step_iff h hfree hstep)
    (Locks.Discipline.exclusive_nil _) ?_ hexec
  rintro ⟨stuck, ⟨i, hi⟩, hstuck⟩
  obtain ⟨j, -, -, c, -, -, hc, -⟩ := hstuck i hi
  simp [start] at hc

/-- One after the other, the calls do not meet. -/
theorem throughout_not_deadlocked_oneByOne :
    (Transition.exec step (start 1 1 ⟨10 ^ 9, by decide⟩ true)
        (successAndFailure ++ advances 0 4 ++ advances 1 7)).isSome = true ∧
      Transition.Throughout step (fun p => ¬ discipline.Deadlocked p)
        (start 1 1 ⟨10 ^ 9, by decide⟩ true)
        (successAndFailure ++ advances 0 4 ++ advances 1 7) := by
  have hsome : (Transition.exec step (start 1 1 ⟨10 ^ 9, by decide⟩ true)
      (successAndFailure ++ advances 0 4 ++ advances 1 7)).isSome = true := by decide +kernel
  obtain ⟨p, hexec⟩ := Option.isSome_iff_exists.mp hsome
  exact ⟨hsome, (throughout_not_deadlocked_iff hexec).mpr (of_decide_eq_true (by decide +kernel))⟩

/-- Interleaved, the one takes `state` and waits for `last_failure`, which the other has taken
    before it waits for `state`. -/
theorem not_throughout_not_deadlocked_interleaved :
    ¬ Transition.Throughout step (fun p => ¬ discipline.Deadlocked p)
        (start 1 1 ⟨10 ^ 9, by decide⟩ true)
        (successAndFailure ++ advances 1 2 ++ advances 0 1 ++ advances 1 1) := by
  intro h
  have hexec : ∃ breaker, Transition.exec step (start 1 1 ⟨10 ^ 9, by decide⟩ true)
      (successAndFailure ++ advances 1 2 ++ advances 0 1 ++ advances 1 1)
        = some ⟨⟨breaker, {.lastFailure, .state, .failureCount}⟩,
          [{ phase := .lockLast .ofShouldRetry }, { phase := .failOpen }]⟩ := ⟨_, rfl⟩
  obtain ⟨breaker, hexec⟩ := hexec
  have hcheck : CallPhase.wait (.lockLast .ofShouldRetry) = some .stateForLast := rfl
  have hfail : CallPhase.wait .failOpen = some .failureForState := rfl
  refine h.last hexec (Locks.Discipline.deadlocked_of_pair (i := 0) (j := 1) ?_ ?_)
  · exact waits_of_wait rfl rfl hcheck hfail (by decide) (by decide)
  · exact waits_of_wait rfl rfl hfail hcheck (by decide) (by decide)

end BreakerCalls
end TokioEvents
