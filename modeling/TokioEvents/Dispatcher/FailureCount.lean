/-
  TokioEvents.Dispatcher.FailureCount

  What the counters of a `CircuitBreaker` say while calls interleave: in an open or
  half-open circuit `failure_count` has reached its threshold and `last_failure` is set, so
  that one more failure opens it again.

  `record_success` reads the state and resets `failure_count` under different guards, and a
  failure of another call may open the circuit between them.
-/

import TokioEvents.Dispatcher.CircuitCalls

namespace TokioEvents

open Calls

namespace CircuitBreaker

/-- Outside `Closed` the failures have reached the threshold. -/
def CountsFailures (b : CircuitBreaker) : Prop :=
  b.state ≠ .closed → b.failureThreshold ≤ b.failureCount

/-- Outside `Closed` the counters are set, and one more failure opens the circuit, unless it
    does not fit the counter. -/
def Reopens (b : CircuitBreaker) : Prop :=
  b.state ≠ .closed →
    b.failureThreshold ≤ b.failureCount ∧ b.lastFailure.isSome = true ∧
      ∀ now, b.failureCount + 1 < 2 ^ 32 → (b.recordFailure now).1.state = .opened

theorem CountsFailures.reopens {b : CircuitBreaker} (h : b.CountsFailures)
    (hlast : b.state ≠ .closed → b.lastFailure.isSome = true) : b.Reopens := by
  intro hstate
  have hcount := h hstate
  refine ⟨hcount, hlast hstate, fun now hword => ?_⟩
  rw [recordFailure, Word32.add_of_lt hword]
  dsimp only
  rw [if_pos (by omega)]

end CircuitBreaker

namespace BreakerCalls

open BreakerCall

/-- No call is in progress. -/
def Idle (p : BreakerCalls) : Prop := ∀ c ∈ p.calls, ∃ result, c.phase = .done result

/-- The step of a call does not lose failures: it does not reset `failure_count`, and an increment
    does not wrap around. -/
def keepsCount (b : CircuitBreaker) : CallPhase → Bool
  | .succReset => false
  | .closedReset => false
  | .failCount => decide (b.failureCount + 1 < 2 ^ 32) || b.overflowChecks
  | _ => true

/-- Failures are lost only while the circuit is closed (or there is no threshold to reach). -/
def KeepsCount (p : BreakerCalls) : Calls.Action BreakerCall → Prop
  | .begin _ => True
  | .advance index =>
    ∀ c ∈ p.calls[index]?,
      p.shared.breaker.failureThreshold = 0 ∨ p.shared.breaker.state = .closed ∨
        keepsCount p.shared.breaker c.phase = true

instance decidableKeepsCount (p : BreakerCalls) :
    (a : Calls.Action BreakerCall) → Decidable (p.KeepsCount a)
  | .begin _ => isTrue trivial
  | .advance index =>
    inferInstanceAs (Decidable (∀ c ∈ p.calls[index]?,
      p.shared.breaker.failureThreshold = 0 ∨ p.shared.breaker.state = .closed ∨
        keepsCount p.shared.breaker c.phase = true))

/-- What holds in every state: the counter is a word, a circuit that is not closed has seen a
    failure, and a call that is about to open it holds the count that says so. -/
structure Guarded (p : BreakerCalls) : Prop where
  exclusive : discipline.Exclusive p
  word : p.shared.breaker.failureCount < 2 ^ 32
  failed : p.shared.breaker.state ≠ .closed → p.shared.breaker.lastFailure.isSome = true
  opening : ∀ c ∈ p.calls, c.phase = .failOpen →
    p.shared.breaker.failureThreshold ≤ p.shared.breaker.failureCount ∧
      p.shared.breaker.lastFailure.isSome = true

/-- No step changes the threshold or forgets the last failure, and `failure_count` is written
    under its own guard. -/
theorem afterLock_frame (b : CircuitBreaker) (c : BreakerCall) :
    (c.afterLock b).1.failureThreshold = b.failureThreshold ∧
      (b.lastFailure.isSome = true → (c.afterLock b).1.lastFailure.isSome = true) ∧
      (c.phase.wants ≠ some .failureCount → (c.afterLock b).1.failureCount = b.failureCount) := by
  unfold afterLock
  cases hphase : c.phase
  case lockLast check =>
    dsimp only
    split
    · split <;> exact ⟨rfl, id, fun _ => rfl⟩
    · exact ⟨rfl, id, fun _ => rfl⟩
    · exact ⟨rfl, id, fun _ => rfl⟩
  case failCount => dsimp only; split <;> exact ⟨rfl, id, fun h => absurd rfl h⟩
  case succCount => dsimp only; split <;> exact ⟨rfl, id, fun _ => rfl⟩
  case succReset => exact ⟨rfl, id, fun h => absurd rfl h⟩
  case closedReset => exact ⟨rfl, id, fun h => absurd rfl h⟩
  case failLast => exact ⟨rfl, fun _ => rfl, fun _ => rfl⟩
  all_goals exact ⟨rfl, id, fun _ => rfl⟩

/-- Which steps keep the count of a circuit that is not closed. -/
theorem countsFailures_afterLock_iff {b : CircuitBreaker} {c : BreakerCall}
    (h : b.CountsFailures) (hword : b.failureCount < 2 ^ 32)
    (hopening : c.phase = .failOpen → b.failureThreshold ≤ b.failureCount) :
    (c.afterLock b).1.CountsFailures ↔
      b.failureThreshold = 0 ∨ b.state = .closed ∨ keepsCount b c.phase = true := by
  -- a reset leaves nothing to count on
  have hreset : ∀ b' : CircuitBreaker, b'.failureCount = 0 → b'.state = b.state →
      b'.failureThreshold = b.failureThreshold →
      (b'.CountsFailures ↔ b.failureThreshold = 0 ∨ b.state = .closed ∨ false = true) := by
    intro b' hcount hstate hthreshold
    unfold CircuitBreaker.CountsFailures
    rw [hcount, hstate, hthreshold, Nat.le_zero, Bool.false_eq_true, or_false, or_comm,
      ← or_iff_not_imp_left]
  unfold afterLock
  cases hphase : c.phase
  case succReset => exact hreset _ rfl rfl rfl
  case closedReset => exact hreset _ rfl rfl rfl
  case failCount =>
    dsimp only
    unfold Word32.add
    by_cases hlt : b.failureCount + 1 < 2 ^ 32
    · rw [if_pos hlt]
      refine iff_of_true (fun hstate => ?_) (.inr (.inr ?_))
      · exact (h hstate).trans (Nat.le_add_right _ 1)
      · rw [keepsCount, decide_eq_true hlt, Bool.true_or]
    · rw [if_neg hlt]
      cases hchecks : b.overflowChecks with
      | true => exact iff_of_true h (.inr (.inr (by simp [keepsCount, hchecks])))
      | false =>
        -- wrapped around to zero
        have hzero : b.failureCount + 1 - 2 ^ 32 = 0 := by omega
        refine (hreset { b with failureCount := b.failureCount + 1 - 2 ^ 32 } hzero rfl rfl).trans
          (or_congr Iff.rfl (or_congr Iff.rfl ?_))
        exact iff_of_false Bool.false_ne_true (by simpa [keepsCount, hchecks] using hlt)
  case failOpen =>
    exact iff_of_true (fun _ => hopening hphase) (.inr (.inr rfl))
  case succClose =>
    exact iff_of_true (fun hstate => absurd rfl hstate) (.inr (.inr rfl))
  case lockLast check =>
    refine iff_of_true ?_ (.inr (.inr rfl))
    dsimp only
    split
    · next hopened =>
      split
      · exact fun _ => h (by rw [hopened]; decide)
      · exact h
    · exact h
    · exact h
  case succCount =>
    refine iff_of_true ?_ (.inr (.inr rfl))
    dsimp only
    split <;> exact h
  all_goals exact iff_of_true h (.inr (.inr rfl))

/-- A circuit leaves `Closed` only for a call that is about to open it. -/
theorem closed_of_afterLock {b : CircuitBreaker} {c : BreakerCall} (h : b.state = .closed)
    (hphase : c.phase ≠ .failOpen) : (c.afterLock b).1.state = .closed := by
  unfold afterLock
  cases hp : c.phase
  case failOpen => exact absurd hp hphase
  case lockLast check =>
    dsimp only
    rw [h]
    exact h
  case failCount => dsimp only; split <;> exact h
  case succCount => dsimp only; split <;> exact h
  case succClose => rfl
  all_goals exact h

/-- A call is about to open the circuit once it has recorded its failure. -/
theorem opening_of_afterLock {b : CircuitBreaker} {c : BreakerCall}
    (h : (c.afterLock b).2 = .failOpen) :
    (c.afterLock b).1.failureThreshold ≤ (c.afterLock b).1.failureCount ∧
      (c.afterLock b).1.lastFailure.isSome = true := by
  unfold afterLock at h ⊢
  cases hphase : c.phase <;> rw [hphase] at h
  case lockLast check =>
    dsimp only at h
    split at h
    · split at h <;> cases h
    · cases h
    · cases h
  case failCount => dsimp only at h; split at h <;> cases h
  case failLast =>
    dsimp only at h
    split at h
    · next hreached => exact ⟨hreached, rfl⟩
    · cases h
  case succCount =>
    dsimp only at h
    split at h
    · dsimp only at h
      split at h <;> cases h
    · cases h
  case failOpen => cases h
  all_goals cases h

theorem afterRelease_ne_failOpen {c : BreakerCall} (h : c.phase.wants = none) :
    c.afterRelease ≠ .failOpen := by
  intro heq
  unfold afterRelease at heq
  cases hphase : c.phase <;> rw [hphase] at h heq <;> try cases h
  case unlockState check state => cases check <;> cases state <;> cases heq
  case inner => dsimp only at heq; split at heq <;> cases heq
  all_goals cases heq

theorem lt_word_afterLock {b : CircuitBreaker} {c : BreakerCall} (h : b.failureCount < 2 ^ 32) :
    (c.afterLock b).1.failureCount < 2 ^ 32 := by
  unfold afterLock
  cases hphase : c.phase
  case lockLast check =>
    dsimp only
    split
    · split <;> exact h
    · exact h
    · exact h
  case failCount =>
    dsimp only
    split
    · next hadd => exact Word32.lt_of_add_eq_some h (by decide) hadd
    · exact h
  case succCount => dsimp only; split <;> exact h
  case succReset => exact Nat.two_pow_pos 32
  case closedReset => exact Nat.two_pow_pos 32
  all_goals exact h

theorem guarded_start (failureThreshold successThreshold : Nat) (timeout : Duration)
    (overflowChecks : Bool) :
    (start failureThreshold successThreshold timeout overflowChecks).Guarded :=
  ⟨Locks.Discipline.exclusive_nil _, Nat.two_pow_pos 32, fun h => absurd rfl h, by simp [start]⟩

/-- **Every step** keeps what is guarded: a call that is about to open the circuit holds
    `failure_count`, so no other call writes it. -/
theorem Guarded.step {p p' : BreakerCalls} {a : Calls.Action BreakerCall} (h : p.Guarded)
    (hstep : step p a = some p') : p'.Guarded := by
  have hexclusive := exclusive_step h.exclusive hstep
  cases a with
  | begin call =>
    obtain ⟨hinitial, rfl⟩ := step_begin.mp hstep
    refine ⟨hexclusive, h.word, h.failed, fun c hmem hphase => ?_⟩
    rcases List.mem_append.mp hmem with hold | hnew
    · exact h.opening c hold hphase
    · rw [List.mem_singleton.mp hnew] at hphase
      rcases hinitial with hinitial | hinitial <;> cases hinitial.symm.trans hphase
  | advance index =>
    obtain ⟨c, shared', c', hcall, hnext, rfl⟩ := step_advance.mp hstep
    have hc := List.mem_of_getElem? hcall
    rcases next_cases hnext with ⟨l, hwants, hfree, rfl, rfl⟩ | ⟨hwants, rfl, rfl⟩
    · obtain ⟨hthreshold, hlast, hcount⟩ := afterLock_frame p.shared.breaker c
      refine ⟨hexclusive, lt_word_afterLock h.word, fun hstate => ?_, fun c₁ hmem hphase => ?_⟩
      · by_cases hopens : c.phase = .failOpen
        · exact hlast (h.opening c hc hopens).2
        · exact hlast (h.failed fun hclosed => hstate (closed_of_afterLock hclosed hopens))
      · rcases List.mem_or_eq_of_mem_set hmem with hold | rfl
        · obtain ⟨hreached, hset⟩ := h.opening c₁ hold hphase
          obtain ⟨j, hj⟩ := List.mem_iff_getElem?.mp hold
          have hlocked : BreakerLock.failureCount ∈ p.shared.locked := by
            refine h.exclusive.locked j c₁ hj ?_
            show BreakerLock.failureCount ∈ c₁.phase.holds
            rw [hphase]
            decide
          have hother : c.phase.wants ≠ some .failureCount := by
            intro heq
            cases hwants.symm.trans heq
            exact hfree hlocked
          refine ⟨?_, hlast hset⟩
          show (c.afterLock p.shared.breaker).1.failureThreshold
            ≤ (c.afterLock p.shared.breaker).1.failureCount
          rw [hthreshold, hcount hother]
          exact hreached
        · exact opening_of_afterLock hphase
    · refine ⟨hexclusive, h.word, h.failed, fun c₁ hmem hphase => ?_⟩
      rcases List.mem_or_eq_of_mem_set hmem with hold | rfl
      · exact h.opening c₁ hold hphase
      · exact absurd hphase (afterRelease_ne_failOpen hwants)

/-- **One step** from a state where the failures are counted leads to another if and only if
    it keeps the count. -/
theorem countsFailures_step_iff {p p' : BreakerCalls} {a : Calls.Action BreakerCall}
    (h : p.Guarded) (hcounts : p.shared.breaker.CountsFailures) (hstep : step p a = some p') :
    p'.shared.breaker.CountsFailures ↔ p.KeepsCount a := by
  cases a with
  | begin call =>
    obtain ⟨-, rfl⟩ := step_begin.mp hstep
    exact iff_of_true hcounts trivial
  | advance index =>
    obtain ⟨c, shared', c', hcall, hnext, rfl⟩ := step_advance.mp hstep
    have hkeeps : p.KeepsCount (.advance index) ↔ _ :=
      ⟨fun hC => hC c hcall, fun hC c₁ hc₁ => by cases hcall.symm.trans hc₁; exact hC⟩
    rw [hkeeps]
    rcases next_cases hnext with ⟨l, -, -, rfl, -⟩ | ⟨hwants, rfl, -⟩
    · exact countsFailures_afterLock_iff hcounts h.word
        fun hphase => (h.opening c (List.mem_of_getElem? hcall) hphase).1
    · refine iff_of_true hcounts (.inr (.inr ?_))
      cases hphase : c.phase <;> rw [hphase] at hwants <;> first | rfl | cases hwants

/-- The failures are counted throughout a run exactly when every step keeps the count. -/
theorem throughout_countsFailures_iff {failureThreshold successThreshold : Nat}
    {timeout : Duration} {overflowChecks : Bool} {actions : List (Calls.Action BreakerCall)}
    {p : BreakerCalls}
    (hexec : Transition.exec step
      (start failureThreshold successThreshold timeout overflowChecks) actions = some p) :
    Transition.Throughout step (fun p => p.shared.breaker.CountsFailures)
        (start failureThreshold successThreshold timeout overflowChecks) actions
      ↔ Transition.Along step KeepsCount
        (start failureThreshold successThreshold timeout overflowChecks) actions :=
  Transition.throughout_iff_along (I := Guarded) (fun _ _ _ h hstep => h.step hstep)
    (fun _ _ _ h hcounts hstep => countsFailures_step_iff h hcounts hstep)
    (guarded_start _ _ _ _) (fun h => absurd rfl h) hexec

/-- **The counters of the breaker.** In every run whose steps keep the count, in every state in
    which no call is in progress, an open or half-open circuit has its failures counted and
    dated, and the next failure opens it again. -/
theorem throughout_idle_reopens {failureThreshold successThreshold : Nat}
    {timeout : Duration} {overflowChecks : Bool} {actions : List (Calls.Action BreakerCall)}
    (hC : Transition.Along step KeepsCount
      (start failureThreshold successThreshold timeout overflowChecks) actions) :
    Transition.Throughout step (fun p => p.Idle → p.shared.breaker.Reopens)
      (start failureThreshold successThreshold timeout overflowChecks) actions := by
  refine Transition.throughout_along
    (I := fun p => p.Guarded ∧ p.shared.breaker.CountsFailures) ?_ ?_
    ⟨guarded_start _ _ _ _, fun h => absurd rfl h⟩ hC
  · rintro p a p' ⟨h, hcounts⟩ hC hstep
    exact ⟨h.step hstep, (countsFailures_step_iff h hcounts hstep).mpr hC⟩
  · rintro p ⟨h, hcounts⟩ -
    exact hcounts.reopens h.failed

/-- The success that is recorded resets nothing that was counted. -/
theorem throughout_idle_reopens_successFirst :
    Transition.Throughout step (fun p => p.Idle → p.shared.breaker.Reopens)
      (start 1 1 ⟨10 ^ 9, by decide⟩ true) (successAndFailure ++ advances 0 11 ++ advances 1 7) :=
  throughout_idle_reopens (of_decide_eq_true (by decide +kernel))

/-- The failure opens the circuit after `record_success` found it closed: the reset that follows
    leaves an open circuit without failures. -/
theorem not_throughout_idle_reopens_between :
    ¬ Transition.Throughout step (fun p => p.Idle → p.shared.breaker.Reopens)
      (start 1 1 ⟨10 ^ 9, by decide⟩ true)
      (successAndFailure ++ advances 0 9 ++ advances 1 7 ++ advances 0 2) := by
  intro h
  have hexec : ∃ breaker, breaker.state = .opened ∧ breaker.failureThreshold = 1 ∧
      breaker.failureCount = 0 ∧
      Transition.exec step (start 1 1 ⟨10 ^ 9, by decide⟩ true)
        (successAndFailure ++ advances 0 9 ++ advances 1 7 ++ advances 0 2)
        = some ⟨⟨breaker, ∅⟩, [{ phase := .done (some none) }, { phase := .done (some none) }]⟩ :=
    ⟨_, rfl, rfl, rfl, by rfl⟩
  obtain ⟨breaker, hstate, hthreshold, hcount, hexec⟩ := hexec
  have hidle : Idle ⟨⟨breaker, ∅⟩,
      [{ phase := .done (some none) }, { phase := .done (some none) }]⟩ := by
    intro c hc
    simp only [List.mem_cons, List.not_mem_nil, or_false, or_self] at hc
    exact ⟨some none, by rw [hc]⟩
  have hreached := (h.last hexec hidle (by rw [hstate]; decide)).1
  rw [hthreshold, hcount] at hreached
  omega

end BreakerCalls
end TokioEvents
