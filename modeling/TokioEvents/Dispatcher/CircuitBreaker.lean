/-
  TokioEvents.Dispatcher.CircuitBreaker

  `CircuitBreaker` of `src/dispatcher/retry.rs`, called by one task at a time.

  The wrapped policy is seen from its answers.  An `Instant` is a number of nanoseconds;
  every reading of the clock is an argument, in the order in which the code takes them, and
  `elapsed` saturates at zero.  A `u32` counter that overflows panics in a build with
  overflow checks: the call does not return, and the breaker is left as it was before.

  Failures are reported by `should_retry`, and by `on_permanent_failure` when that returned
  `None`.  `never_closed_along` says when they keep the circuit from being closed.
-/

import TokioEvents.Dispatcher.Retry
import TokioEvents.Lib.Transition

namespace TokioEvents

/-- `CircuitState`. -/
inductive CircuitState where
  /-- `Closed`: requests pass through. -/
  | closed
  /-- `Open`: requests fail fast. -/
  | opened
  /-- `HalfOpen`: limited requests pass. -/
  | halfOpen
  deriving DecidableEq, Repr

/-- `CircuitBreaker`, without the wrapped policy. -/
structure CircuitBreaker where
  failureThreshold : Nat
  successThreshold : Nat
  timeout : Duration
  state : CircuitState := .closed
  failureCount : Nat := 0
  successCount : Nat := 0
  lastFailure : Option Nat := none
  /-- The build checks integer arithmetic. -/
  overflowChecks : Bool
  deriving DecidableEq

namespace CircuitBreaker

/-- `CircuitBreaker::new`, in a build with or without overflow checks. -/
def new (failureThreshold successThreshold : Nat) (timeout : Duration) (overflowChecks : Bool) :
    CircuitBreaker where
  failureThreshold := failureThreshold
  successThreshold := successThreshold
  timeout := timeout
  overflowChecks := overflowChecks

/-- `last.elapsed() >= self.timeout`, where there is a last failure. -/
def timedOut (b : CircuitBreaker) (now : Nat) : Bool :=
  match b.lastFailure with
  | some last => decide (b.timeout.nanos ≤ now - last)
  | none => false

/-- `check_state`. -/
def checkState (b : CircuitBreaker) (now : Nat) : CircuitBreaker × CircuitState :=
  match b.state with
  | .opened =>
    if b.timedOut now then ({ b with state := .halfOpen, successCount := 0 }, .halfOpen)
    else (b, .opened)
  | .halfOpen => (b, .halfOpen)
  | .closed => (b, .closed)

/-- `record_success`, and whether it returns. -/
def recordSuccess (b : CircuitBreaker) (now : Nat) : CircuitBreaker × Bool :=
  let (b, state) := b.checkState now
  if state = .halfOpen then
    match Word32.add b.overflowChecks b.successCount 1 with
    | some successCount =>
      let b := { b with successCount := successCount }
      if b.successThreshold ≤ successCount then
        ({ b with state := .closed, failureCount := 0 }, true)
      else (b, true)
    | none => (b, false)
  else if state = .closed then ({ b with failureCount := 0 }, true)
  else (b, true)

/-- `record_failure`, and whether it returns. -/
def recordFailure (b : CircuitBreaker) (now : Nat) : CircuitBreaker × Bool :=
  match Word32.add b.overflowChecks b.failureCount 1 with
  | some failureCount =>
    let b := { b with failureCount := failureCount, lastFailure := some now }
    if b.failureThreshold ≤ failureCount then ({ b with state := .opened }, true) else (b, true)
  | none => (b, false)

/-- What the wrapped policy answers and what the clock shows during a call. -/
structure CallInputs where
  answer : Option Duration := none
  /-- `last.elapsed()` in `check_state`. -/
  checkedAt : Nat := 0
  /-- `last.elapsed()` in the `check_state` of `record_success`. -/
  recheckedAt : Nat := 0
  /-- `Instant::now()` in `record_failure`. -/
  failedAt : Nat := 0
  deriving DecidableEq

/-- `should_retry`: what it returns, or `none` if it does not. -/
def shouldRetry (b : CircuitBreaker) (call : CallInputs) :
    CircuitBreaker × Option (Option Duration) :=
  let (b, state) := b.checkState call.checkedAt
  if state = .opened then (b, some none)
  else if call.answer.isSome then
    let (b, returns) := b.recordFailure call.failedAt
    (b, if returns then some call.answer else none)
  else
    let (b, returns) := b.recordSuccess call.recheckedAt
    (b, if returns then some call.answer else none)

/-- `on_permanent_failure`, and whether it returns. -/
def onPermanentFailure (b : CircuitBreaker) (call : CallInputs) : CircuitBreaker × Bool :=
  b.recordFailure call.failedAt

/-! ## What the parts do -/

/-- The state that `check_state` returns is the one it leaves. -/
theorem checkState_state (b : CircuitBreaker) (now : Nat) :
    (b.checkState now).1.state = (b.checkState now).2 := by
  unfold checkState
  cases hstate : b.state with
  | opened => dsimp only; split <;> simp [hstate]
  | halfOpen => exact hstate
  | closed => exact hstate

/-- `check_state` touches nothing of a closed circuit, and closes none. -/
theorem checkState_closed {b : CircuitBreaker} {now : Nat}
    (h : (b.checkState now).2 = .closed) : b.state = .closed ∧ (b.checkState now).1 = b := by
  unfold checkState at h ⊢
  cases hstate : b.state with
  | opened =>
    rw [hstate] at h
    dsimp only at h
    split at h <;> cases h
  | halfOpen => rw [hstate] at h; cases h
  | closed => exact ⟨rfl, rfl⟩

/-- What `check_state` never writes. -/
theorem checkState_frame (b : CircuitBreaker) (now : Nat) :
    (b.checkState now).1.failureCount = b.failureCount ∧
      (b.checkState now).1.failureThreshold = b.failureThreshold ∧
      (b.checkState now).1.successThreshold = b.successThreshold ∧
      (b.checkState now).1.overflowChecks = b.overflowChecks := by
  unfold checkState
  cases b.state with
  | opened => dsimp only; split <;> exact ⟨rfl, rfl, rfl, rfl⟩
  | halfOpen => exact ⟨rfl, rfl, rfl, rfl⟩
  | closed => exact ⟨rfl, rfl, rfl, rfl⟩

/-- Checked again right away, a circuit that is not open is as it was. -/
theorem checkState_of_ne_opened {b : CircuitBreaker} (now : Nat) (h : b.state ≠ .opened) :
    b.checkState now = (b, b.state) := by
  unfold checkState
  cases hstate : b.state with
  | opened => exact absurd hstate h
  | halfOpen => rfl
  | closed => rfl

/-- A failure never closes a circuit, and counts in a closed one. -/
theorem recordFailure_closed {b : CircuitBreaker} {now : Nat}
    (h : (b.recordFailure now).1.state = .closed) (hword : b.failureCount + 1 < 2 ^ 32) :
    b.state = .closed ∧ (b.recordFailure now).2 = true ∧
      (b.recordFailure now).1.failureCount = b.failureCount + 1 ∧
      b.failureCount + 1 < b.failureThreshold := by
  unfold recordFailure at h ⊢
  rw [Word32.add_of_lt hword] at h ⊢
  dsimp only at h ⊢
  split at h
  · cases h
  · next hbelow =>
    rw [if_neg hbelow]
    exact ⟨h, rfl, rfl, by omega⟩

theorem recordFailure_state {b : CircuitBreaker} {now : Nat}
    (h : (b.recordFailure now).1.state = .closed) : b.state = .closed := by
  unfold recordFailure at h
  cases hadd : Word32.add b.overflowChecks b.failureCount 1 with
  | none => rwa [hadd] at h
  | some failureCount =>
    rw [hadd] at h
    dsimp only at h
    split at h
    · cases h
    · exact h

theorem recordFailure_thresholds (b : CircuitBreaker) (now : Nat) :
    (b.recordFailure now).1.failureThreshold = b.failureThreshold ∧
      (b.recordFailure now).1.successThreshold = b.successThreshold := by
  unfold recordFailure
  cases Word32.add b.overflowChecks b.failureCount 1 with
  | none => exact ⟨rfl, rfl⟩
  | some failureCount => dsimp only; split <;> exact ⟨rfl, rfl⟩

/-- A success in a circuit that is not open: it resets a closed circuit, and counts in a
    half-open one. -/
theorem recordSuccess_closed {b : CircuitBreaker} {now : Nat} (h : b.state = .closed) :
    b.recordSuccess now = ({ b with failureCount := 0 }, true) := by
  rw [recordSuccess, checkState_of_ne_opened now (by rw [h]; decide)]
  dsimp only
  rw [if_neg (by rw [h]; decide), if_pos h]

theorem recordSuccess_halfOpen {b : CircuitBreaker} (now : Nat) (h : b.state = .halfOpen)
    (hbelow : b.successCount + 1 < b.successThreshold) :
    (b.recordSuccess now).1.state = .halfOpen ∧
      (b.recordSuccess now).1.failureThreshold = b.failureThreshold ∧
      (b.recordSuccess now).1.successThreshold = b.successThreshold := by
  rw [recordSuccess, checkState_of_ne_opened now (by rw [h]; decide)]
  dsimp only
  rw [if_pos h]
  cases hadd : Word32.add b.overflowChecks b.successCount 1 with
  | none => exact ⟨h, rfl, rfl⟩
  | some successCount =>
    have hle := Word32.le_of_add_eq_some hadd
    dsimp only
    rw [if_neg (by omega)]
    exact ⟨h, rfl, rfl⟩

/-! ## The calls by case -/

section ShouldRetry

variable {b : CircuitBreaker} {call : CallInputs}

theorem shouldRetry_opened (h : (b.checkState call.checkedAt).2 = .opened) :
    b.shouldRetry call = ((b.checkState call.checkedAt).1, some none) := by
  unfold shouldRetry
  dsimp only
  rw [if_pos h]

/-- The wrapped policy retries: a failure is recorded. -/
theorem shouldRetry_some (h : (b.checkState call.checkedAt).2 ≠ .opened)
    (hanswer : call.answer.isSome = true) :
    b.shouldRetry call
      = (((b.checkState call.checkedAt).1.recordFailure call.failedAt).1,
        if ((b.checkState call.checkedAt).1.recordFailure call.failedAt).2 then some call.answer
        else none) := by
  unfold shouldRetry
  dsimp only
  rw [if_neg h, if_pos hanswer]

/-- The wrapped policy gives up: a success is recorded. -/
theorem shouldRetry_none (h : (b.checkState call.checkedAt).2 ≠ .opened)
    (hanswer : call.answer = none) :
    b.shouldRetry call
      = (((b.checkState call.checkedAt).1.recordSuccess call.recheckedAt).1,
        if ((b.checkState call.checkedAt).1.recordSuccess call.recheckedAt).2 then some none
        else none) := by
  unfold shouldRetry
  dsimp only
  rw [if_neg h, hanswer, if_neg (by simp)]

end ShouldRetry

/-! ## Reported failures -/

/-- A breaker to which one task reports failures. -/
structure Reports where
  breaker : CircuitBreaker
  /-- `should_retry` returned `None`, and `on_permanent_failure` comes next. -/
  pending : Bool := false
  /-- The failures reported so far. -/
  reported : Nat := 0

/-- The calls that report a failure. -/
inductive Report where
  | shouldRetry (call : CallInputs)
  | onPermanentFailure (call : CallInputs)

/-- A call; one that panics reports nothing. -/
def report (s : Reports) : Report → Option Reports
  | .shouldRetry call =>
    if s.pending then none
    else
      match s.breaker.shouldRetry call with
      | (b, some none) => some { s with breaker := b, pending := true }
      | (b, some (some _)) => some { s with breaker := b, reported := s.reported + 1 }
      | (b, none) => some { s with breaker := b }
  | .onPermanentFailure call =>
    if s.pending then
      match s.breaker.onPermanentFailure call with
      | (b, true) => some { breaker := b, pending := false, reported := s.reported + 1 }
      | (b, false) => some { s with breaker := b, pending := false }
    else none

namespace Reports

/-- From `failure_threshold` reported failures on, the circuit is not closed. -/
def StaysOpen (s : Reports) : Prop :=
  s.breaker.failureThreshold ≤ s.reported → s.breaker.state ≠ .closed

instance (s : Reports) : Decidable s.StaysOpen := inferInstanceAs (Decidable (_ → _))

/-- When the wrapped policy gives up, the success that is recorded resets no failure and does not
    complete the successes that close the circuit. -/
def GivesUpHarmlessly (s : Reports) : Report → Prop
  | .shouldRetry call =>
    call.answer = none →
      match s.breaker.state with
      | .closed => s.breaker.failureCount = 0
      | .halfOpen => s.breaker.successCount + 1 < s.breaker.successThreshold
      | .opened => s.breaker.timedOut call.checkedAt = true → 1 < s.breaker.successThreshold
  | .onPermanentFailure _ => True

instance (s : Reports) : (a : Report) → Decidable (s.GivesUpHarmlessly a)
  | .shouldRetry call =>
    match h : s.breaker.state with
    | .closed =>
      decidable_of_iff (call.answer = none → s.breaker.failureCount = 0)
        (by rw [GivesUpHarmlessly, h])
    | .halfOpen =>
      decidable_of_iff
        (call.answer = none → s.breaker.successCount + 1 < s.breaker.successThreshold)
        (by rw [GivesUpHarmlessly, h])
    | .opened =>
      decidable_of_iff
        (call.answer = none → s.breaker.timedOut call.checkedAt = true →
          1 < s.breaker.successThreshold)
        (by rw [GivesUpHarmlessly, h])
  | .onPermanentFailure _ => isTrue trivial

/-- What a closed circuit has counted. -/
structure Counting (s : Reports) : Prop where
  positive : 1 ≤ s.breaker.failureThreshold
  word : s.breaker.failureThreshold < 2 ^ 32
  counted : s.breaker.state = .closed →
    s.breaker.failureCount = s.reported ∧ s.reported < s.breaker.failureThreshold

theorem Counting.staysOpen {s : Reports} (h : s.Counting) : s.StaysOpen :=
  fun hreported hclosed => absurd (h.counted hclosed).2 (by omega)

/-- What a harmless `should_retry` does to a circuit that is closed afterwards: it was closed
    before, and either nothing was counted or the one failure that is reported. -/
theorem shouldRetry_harmless {s : Reports} {call : CallInputs}
    (hC : s.GivesUpHarmlessly (.shouldRetry call))
    (hword : s.breaker.state = .closed → s.breaker.failureCount + 1 < 2 ^ 32) :
    (s.breaker.shouldRetry call).1.failureThreshold = s.breaker.failureThreshold ∧
      ((s.breaker.shouldRetry call).1.state = .closed →
        s.breaker.state = .closed ∧
          (((s.breaker.shouldRetry call).2 = some none ∧
              (s.breaker.shouldRetry call).1.failureCount = s.breaker.failureCount) ∨
            ((s.breaker.shouldRetry call).2 = some call.answer ∧ call.answer.isSome = true ∧
              (s.breaker.shouldRetry call).1.failureCount = s.breaker.failureCount + 1 ∧
              s.breaker.failureCount + 1 < s.breaker.failureThreshold))) := by
  obtain ⟨hcount, hthreshold, hsuccess, -⟩ := checkState_frame s.breaker call.checkedAt
  have hstate := checkState_state s.breaker call.checkedAt
  by_cases hopened : (s.breaker.checkState call.checkedAt).2 = .opened
  · rw [shouldRetry_opened hopened]
    refine ⟨hthreshold, fun hclosed => ?_⟩
    cases hclosed.symm.trans (hstate.trans hopened)
  · cases hanswer : call.answer with
    | some delay =>
      rw [shouldRetry_some hopened (by rw [hanswer]; rfl)]
      refine ⟨(recordFailure_thresholds _ _).1.trans hthreshold, fun hclosed => ?_⟩
      have hwas := recordFailure_state hclosed
      obtain ⟨hbefore, hsame⟩ := checkState_closed (hstate.symm.trans hwas)
      rw [hsame] at hclosed ⊢
      obtain ⟨-, hreturns, hone, hbelow⟩ := recordFailure_closed hclosed (hword hbefore)
      refine ⟨hbefore, .inr ⟨?_, rfl, hone, hbelow⟩⟩
      rw [if_pos hreturns, hanswer]
    | none =>
      rw [shouldRetry_none hopened hanswer]
      have hC' := hC hanswer
      cases hbefore : s.breaker.state with
      | closed =>
        rw [hbefore] at hC'
        have hsame : (s.breaker.checkState call.checkedAt).1 = s.breaker := by
          rw [checkState_of_ne_opened _ (by rw [hbefore]; decide)]
        rw [hsame, recordSuccess_closed hbefore]
        exact ⟨rfl, fun _ => ⟨rfl, .inl ⟨rfl, hC'.symm⟩⟩⟩
      | halfOpen =>
        rw [hbefore] at hC'
        have hsame : (s.breaker.checkState call.checkedAt).1 = s.breaker := by
          rw [checkState_of_ne_opened _ (by rw [hbefore]; decide)]
        obtain ⟨hhalf, hthreshold', -⟩ :=
          recordSuccess_halfOpen call.recheckedAt hbefore hC'
        rw [hsame]
        exact ⟨hthreshold', fun hclosed => by cases hclosed.symm.trans hhalf⟩
      | opened =>
        -- it has just turned half-open, and counts its successes from zero
        rw [hbefore] at hC'
        have htimed : s.breaker.timedOut call.checkedAt = true := by
          by_contra hnot
          apply hopened
          rw [checkState, hbefore]
          dsimp only
          rw [if_neg hnot]
        have hsame : (s.breaker.checkState call.checkedAt).1
            = { s.breaker with state := .halfOpen, successCount := 0 } := by
          rw [checkState, hbefore]
          dsimp only
          rw [if_pos htimed]
        rw [hsame]
        obtain ⟨hhalf, hthreshold', -⟩ := recordSuccess_halfOpen call.recheckedAt
          (b := { s.breaker with state := .halfOpen, successCount := 0 }) rfl (hC' htimed)
        exact ⟨hthreshold', fun hclosed => by cases hclosed.symm.trans hhalf⟩

/-- **One call** keeps the count of a closed circuit. -/
theorem Counting.step {s s' : Reports} {a : Report} (h : s.Counting)
    (hC : s.GivesUpHarmlessly a) (hstep : report s a = some s') : s'.Counting := by
  have hword : s.breaker.state = .closed → s.breaker.failureCount + 1 < 2 ^ 32 := by
    intro hclosed
    obtain ⟨hcount, hlt⟩ := h.counted hclosed
    have := h.word
    omega
  cases a with
  | shouldRetry call =>
    obtain ⟨hthreshold, hafter⟩ := shouldRetry_harmless hC hword
    simp only [report] at hstep
    split at hstep
    · cases hstep
    · rcases hcall : s.breaker.shouldRetry call with ⟨b, _ | _ | delay⟩ <;>
        rw [hcall] at hstep hthreshold hafter <;> dsimp only at hstep hthreshold hafter <;>
        cases hstep <;>
        refine ⟨hthreshold ▸ h.positive, hthreshold ▸ h.word, fun hclosed => ?_⟩
      · obtain ⟨-, ⟨hresult, -⟩ | ⟨hresult, -⟩⟩ := hafter hclosed <;> cases hresult
      · obtain ⟨hbefore, ⟨-, hsame⟩ | ⟨hresult, hsome, -⟩⟩ := hafter hclosed
        · exact ⟨hsame.trans (h.counted hbefore).1, hthreshold ▸ (h.counted hbefore).2⟩
        · rw [← Option.some.inj hresult] at hsome
          cases hsome
      · obtain ⟨hbefore, ⟨hresult, -⟩ | ⟨-, -, hone, hbelow⟩⟩ := hafter hclosed
        · cases hresult
        · have hcount := (h.counted hbefore).1
          exact ⟨hone.trans (by rw [hcount]), by rw [hthreshold, ← hcount]; exact hbelow⟩
  | onPermanentFailure call =>
    have hthreshold := (recordFailure_thresholds s.breaker call.failedAt).1
    have hafter : (s.breaker.recordFailure call.failedAt).1.state = .closed → _ := fun hclosed =>
      recordFailure_closed hclosed (hword (recordFailure_state hclosed))
    simp only [report, onPermanentFailure] at hstep
    split at hstep
    · rcases hcall : s.breaker.recordFailure call.failedAt with ⟨b, _ | _⟩ <;>
        rw [hcall] at hstep hthreshold hafter <;> dsimp only at hstep hthreshold hafter <;>
        cases hstep <;>
        refine ⟨hthreshold ▸ h.positive, hthreshold ▸ h.word, fun hclosed => ?_⟩
      · obtain ⟨-, hreturns, -⟩ := hafter hclosed
        cases hreturns
      · obtain ⟨hbefore, -, hone, hbelow⟩ := hafter hclosed
        have hcount := (h.counted hbefore).1
        exact ⟨hone.trans (by rw [hcount]), by rw [hthreshold, ← hcount]; exact hbelow⟩
    · cases hstep

/-- **The circuit stays open under failure**: in every run of reported failures in which the
    wrapped policy gives up only harmlessly, the circuit has left `Closed` once
    `failure_threshold` failures were reported, and never returns to it. -/
theorem throughout_staysOpen {failureThreshold successThreshold : Nat} {timeout : Duration}
    {overflowChecks : Bool} {calls : List Report} (hthreshold : 1 ≤ failureThreshold)
    (hword : failureThreshold < 2 ^ 32)
    (hC : Transition.Along report GivesUpHarmlessly
      { breaker := new failureThreshold successThreshold timeout overflowChecks } calls) :
    Transition.Throughout report StaysOpen
      { breaker := new failureThreshold successThreshold timeout overflowChecks } calls :=
  Transition.throughout_along (fun _ _ _ h hC hstep => h.step hC hstep) (fun _ h => h.staysOpen)
    (show Counting _ from ⟨hthreshold, hword, fun _ => ⟨rfl, hthreshold⟩⟩) hC

/-- A failure that the policy of ten attempts with a fixed delay is asked about. -/
def fixedDelayReport (attempt now : Nat) : Report :=
  .shouldRetry
    { answer := FixedDelay.shouldRetry { delay := ⟨10 ^ 7, by decide⟩, maxAttempts := 10 } attempt
      checkedAt := now, recheckedAt := now, failedAt := now }

/-- Two failures open the circuit, a third is refused at once, and the next attempt is let
    through after the timeout of a minute. -/
def minuteReports : List Report :=
  [fixedDelayReport 1 0, fixedDelayReport 2 10, fixedDelayReport 3 20,
    .onPermanentFailure { failedAt := 30 }, fixedDelayReport 4 (61 * 10 ^ 9)]

theorem throughout_staysOpen_minuteReports :
    Transition.Throughout report StaysOpen
      { breaker := new 2 2 ⟨60 * 10 ^ 9, by decide⟩ true } minuteReports :=
  throughout_staysOpen (by decide) (by decide) (of_decide_eq_true (by decide +kernel))

/-- A failure of an event that is never retried. -/
def noRetryReport : List Report :=
  [.shouldRetry { answer := NoRetry.shouldRetry 1 }, .onPermanentFailure {}]

/-- With a policy that gives up, every failure is first recorded as a success: two reports do
    not open a circuit of threshold two. -/
theorem not_throughout_staysOpen_noRetry :
    ¬ Transition.Throughout report StaysOpen
      { breaker := new 2 2 ⟨60 * 10 ^ 9, by decide⟩ true } (noRetryReport ++ noRetryReport) := by
  intro h
  have hlast : ∃ s, Transition.exec report
      { breaker := new 2 2 ⟨60 * 10 ^ 9, by decide⟩ true } (noRetryReport ++ noRetryReport)
        = some s ∧ s.reported = 2 ∧ s.breaker.failureThreshold = 2 ∧ s.breaker.state = .closed :=
    ⟨_, rfl, rfl, rfl, rfl⟩
  obtain ⟨s, hexec, hreported, hthreshold, hclosed⟩ := hlast
  exact h.last hexec (by omega) hclosed

end Reports
end CircuitBreaker
end TokioEvents
