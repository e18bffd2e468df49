/-
  TokioEvents.Bus.RetryLoop

  The per-event loop of the handler tasks (`subscribe_typed` and `subscribe_untyped`), run
  from the receipt of an event to its `break`: the calls it makes for the outcomes that the
  handler's attempts have, and the backoffs between them.

  The two loops of the source are the same text up to the metrics, which only the typed
  one records.  `handlerOutcome_eq` connects a round of the loop with the step of the bus.
-/

import Mathlib.Data.ENat.Lattice
import TokioEvents.Bus.Handlers

namespace TokioEvents

/-- What the loop calls. -/
inductive LoopCall where
  /-- `handler.handle(&envelope_clone)`. -/
  | handle
  | incrementProcessed
  | ackEvent
  /-- `dlq.send(envelope_clone.clone())`. -/
  | dlqSend
  | markFailed
  /-- `tokio::time::sleep(backoff)`. -/
  | sleep (backoff : Nat)
  /-- A histogram record or a counter increment. -/
  | metric (name : String)
  deriving DecidableEq, Repr

namespace LoopCall

def isMetric : LoopCall → Bool
  | .metric _ => true
  | _ => false

@[simp] theorem isMetric_eq_false {call : LoopCall} :
    call.isMetric = false ↔ ∀ name, call ≠ .metric name := by
  cases call <;> simp [isMetric]

end LoopCall

/-- The places of the loop at which a metric may be recorded. -/
inductive MetricPoint where
  | attempted
  | succeeded
  | failed
  | deadLettered

/-- The metrics of the typed loop, with the feature `metrics`. -/
def typedMetrics (enabled : Bool) (point : MetricPoint) : List LoopCall :=
  if enabled then
    match point with
    | .attempted => [.metric "tokio_events_dispatch_duration_seconds"]
    | .succeeded => [.metric "tokio_events_dispatched_total"]
    | .failed => [.metric "tokio_events_handler_errors_total"]
    | .deadLettered => [.metric "tokio_events_dlq_total"]
  else []

/-- The untyped loop has none. -/
def untypedMetrics (_point : MetricPoint) : List LoopCall := []

/-- Where a round of the loop goes. -/
inductive AfterRound where
  | leave
  | panicked
  | again (attempt : Nat)
  deriving DecidableEq, Repr

namespace EventBusConfig

variable (config : EventBusConfig) (metrics : MetricPoint → List LoopCall) (dlq : Bool)

/-- One round: an attempt with its outcome, and what follows it. -/
def retryRound (attempt : Nat) : Outcome → List LoopCall × AfterRound
  | .panic => ([.handle], .panicked)
  | .ok =>
    (.handle :: metrics .attempted ++ [.incrementProcessed, .ackEvent] ++ metrics .succeeded,
      .leave)
  | .error =>
    match config.nextAttempt attempt with
    | none => (.handle :: metrics .attempted, .panicked)
    | some attempt =>
      let calls := .handle :: metrics .attempted ++ metrics .failed
      if config.maxRetries < attempt then
        -- Send to DLQ if configured
        (calls ++ (if dlq then .dlqSend :: metrics .deadLettered else []) ++ [.markFailed], .leave)
      else
        match config.backoff attempt with
        | none => (calls, .panicked)
        | some backoff => (calls ++ [.sleep backoff], .again attempt)

/-- The loop, for at most `fuel` rounds: what it calls and whether it ends in a `break`. -/
def retryLoop (outcomes : Nat → Outcome) : (fuel round attempt : Nat) →
    Option (List LoopCall × Bool)
  | 0, _, _ => none
  | fuel + 1, round, attempt =>
    match config.retryRound metrics dlq attempt (outcomes round) with
    | (calls, .leave) => some (calls, true)
    | (calls, .panicked) => some (calls, false)
    | (calls, .again attempt) =>
      (retryLoop outcomes fuel (round + 1) attempt).map fun rest => (calls ++ rest.1, rest.2)

/-- The loop of `subscribe_typed`. -/
def subscribeTypedLoop (metricsFeature : Bool) (outcomes : Nat → Outcome) (fuel : Nat) :
    Option (List LoopCall × Bool) :=
  config.retryLoop (typedMetrics metricsFeature) dlq outcomes fuel 0 0

/-- The loop of `subscribe_untyped`. -/
def subscribeUntypedLoop (outcomes : Nat → Outcome) (fuel : Nat) :
    Option (List LoopCall × Bool) :=
  config.retryLoop untypedMetrics dlq outcomes fuel 0 0

end EventBusConfig

/-! ## What the loop is for -/

/-- The position of the first attempt that succeeds, counted from 1. -/
noncomputable def firstOk (outcomes : Nat → Outcome) : ℕ∞ :=
  sInf {position | ∃ n : ℕ, outcomes n = .ok ∧ position = n + 1}

theorem firstOk_le {outcomes : Nat → Outcome} {n : Nat} (h : outcomes n = .ok) :
    firstOk outcomes ≤ n + 1 :=
  sInf_le ⟨n, h, rfl⟩

theorem le_firstOk {outcomes : Nat → Outcome} {n : Nat} (h : ∀ m < n, outcomes m ≠ .ok) :
    (n : ℕ∞) + 1 ≤ firstOk outcomes := by
  refine le_sInf ?_
  rintro _ ⟨m, hm, rfl⟩
  have hle : n ≤ m := by
    by_contra hlt
    exact h m (by omega) hm
  gcongr

/-- The last calls for an event: the acknowledgement, or the dead letter and the failure. -/
def terminalCalls (dlq succeeded : Bool) : List LoopCall :=
  if succeeded then [.incrementProcessed, .ackEvent]
  else (if dlq then [.dlqSend] else []) ++ [.markFailed]

/-- What a loop that ran to its `break` has called, the metrics apart: the handler
    `min (k, max_retries + 1)` times, with nothing but backoffs between, and then the terminal
    calls once. -/
structure RetriesThenTerminates (config : EventBusConfig) (dlq : Bool)
    (outcomes : Nat → Outcome) (calls : List LoopCall) : Prop where
  intro ::
  attempts_then_terminal : ∃ tries succeeded,
    calls.filter (!·.isMetric) = tries ++ terminalCalls dlq succeeded ∧
    (tries.count .handle : ℕ∞) = min (firstOk outcomes) (config.maxRetries + 1) ∧
    (∀ call ∈ tries, call = .handle ∨ ∃ backoff, call = .sleep backoff) ∧
    (succeeded = true ↔ firstOk outcomes ≤ config.maxRetries + 1)

namespace EventBusConfig

variable {config : EventBusConfig} {metrics : MetricPoint → List LoopCall} {dlq : Bool}

theorem nextAttempt_of_lt {attempt : Nat} (h : attempt + 1 < 2 ^ 32) :
    config.nextAttempt attempt = some (attempt + 1) := by
  rw [nextAttempt, if_pos h]

theorem retryRound_giveUp {attempt : Nat} (hlt : attempt + 1 < 2 ^ 32)
    (hmax : config.maxRetries ≤ attempt) :
    config.retryRound metrics dlq attempt .error =
      (.handle :: metrics .attempted ++ metrics .failed
        ++ (if dlq then .dlqSend :: metrics .deadLettered else []) ++ [.markFailed], .leave) := by
  rw [retryRound, nextAttempt_of_lt hlt]
  exact if_pos (by omega)

theorem retryRound_again {attempt backoff : Nat} (hlt : attempt + 1 < 2 ^ 32)
    (hmax : attempt < config.maxRetries) (hbackoff : config.backoff (attempt + 1) = some backoff) :
    config.retryRound metrics dlq attempt .error =
      (.handle :: metrics .attempted ++ metrics .failed ++ [.sleep backoff],
        .again (attempt + 1)) := by
  rw [retryRound, nextAttempt_of_lt hlt]
  show (if config.maxRetries < attempt + 1 then _ else _) = _
  rw [if_neg (by omega), hbackoff]

/-- The metrics of a loop are metrics. -/
def OnlyMetrics (metrics : MetricPoint → List LoopCall) : Prop :=
  ∀ point, (metrics point).filter (!·.isMetric) = []

theorem onlyMetrics_typed (enabled : Bool) : OnlyMetrics (typedMetrics enabled) := by
  intro point
  cases enabled <;> cases point <;> rfl

theorem onlyMetrics_untyped : OnlyMetrics untypedMetrics := fun _ => rfl

/-- How the loop goes on from an attempt: `last` more rounds fail, and the one after them
    succeeds or is the last that `max_retries` allows. -/
structure GoesOn (config : EventBusConfig) (dlq : Bool) (outcomes : Nat → Outcome)
    (attempt last : Nat) (tries calls : List LoopCall) (succeeded : Bool) : Prop where
  calls_eq : calls.filter (!·.isMetric) = tries ++ terminalCalls dlq succeeded
  only : ∀ call ∈ tries, call = .handle ∨ ∃ backoff, call = .sleep backoff
  count : tries.count .handle = last + 1
  le_max : attempt + last ≤ config.maxRetries
  failed : ∀ n, attempt ≤ n → n < attempt + last → outcomes n ≠ .ok
  ok : succeeded = true → outcomes (attempt + last) = .ok
  gaveUp : succeeded = false → attempt + last = config.maxRetries ∧ outcomes (attempt + last) ≠ .ok

/-- One more failed round before what the rest of the loop does. -/
theorem GoesOn.cons {outcomes : Nat → Outcome} {attempt last : Nat}
    {tries calls : List LoopCall} {succeeded : Bool} (backoff : Nat)
    (hmetrics : OnlyMetrics metrics)
    (hfailed : outcomes attempt ≠ .ok)
    (h : GoesOn config dlq outcomes (attempt + 1) last tries calls succeeded) :
    GoesOn config dlq outcomes attempt (last + 1) (.handle :: .sleep backoff :: tries)
      (.handle :: metrics .attempted ++ metrics .failed ++ [.sleep backoff] ++ calls)
      succeeded := by
  have hshift : attempt + (last + 1) = attempt + 1 + last := by omega
  refine ⟨?_, ?_, ?_, ?_, ?_, ?_, ?_⟩
  · simp [List.filter_append, hmetrics .attempted, hmetrics .failed, h.calls_eq]
  · intro call hcall
    rcases List.mem_cons.mp hcall with rfl | hcall
    · exact .inl rfl
    · rcases List.mem_cons.mp hcall with rfl | hcall
      · exact .inr ⟨backoff, rfl⟩
      · exact h.only call hcall
  · rw [List.count_cons_self, List.count_cons_of_ne (by simp), h.count]
  · rw [hshift]
    exact h.le_max
  · intro n hle hlt
    rcases Nat.eq_or_lt_of_le hle with rfl | hgt
    · exact hfailed
    · exact h.failed n hgt (by omega)
  · rw [hshift]
    exact h.ok
  · rw [hshift]
    exact h.gaveUp

/-- From an attempt on, enough fuel takes the loop to its `break`. -/
theorem retryLoop_spec (dlq : Bool) {outcomes : Nat → Outcome} (hmetrics : OnlyMetrics metrics)
    (hmax : config.maxRetries + 1 < 2 ^ 32)
    (hbackoff : ∀ n, 1 ≤ n → n ≤ config.maxRetries → (config.backoff n).isSome)
    (hreturns : ∀ n, outcomes n ≠ .panic) (fuel : Nat) :
    ∀ attempt, attempt ≤ config.maxRetries → config.maxRetries < attempt + fuel →
      ∃ calls tries last succeeded,
        config.retryLoop metrics dlq outcomes fuel attempt attempt = some (calls, true) ∧
          GoesOn config dlq outcomes attempt last tries calls succeeded := by
  induction fuel with
  | zero => intro attempt hle hfuel; omega
  | succ fuel ih =>
    intro attempt hle hfuel
    rw [retryLoop]
    cases houtcome : outcomes attempt with
    | panic => exact absurd houtcome (hreturns attempt)
    | ok =>
      refine ⟨_, [.handle], 0, true, rfl, ?_, by simp, rfl, hle, fun n _ _ => by omega,
        fun _ => houtcome, by simp⟩
      simp [terminalCalls, List.filter_append, hmetrics .attempted,
        hmetrics .succeeded]
    | error =>
      by_cases hlast : attempt = config.maxRetries
      · rw [retryRound_giveUp (by omega) (by omega)]
        refine ⟨_, [.handle], 0, false, rfl, ?_, by simp, rfl, hle, fun n _ _ => by omega,
          by simp, fun _ => ⟨hlast, by rw [Nat.add_zero, houtcome]; decide⟩⟩
        cases dlq <;>
          simp [terminalCalls, List.filter_append, hmetrics .attempted,
            hmetrics .failed, hmetrics .deadLettered]
      · -- the next backoff is computed, slept, and the loop goes round
        obtain ⟨backoff, hsome⟩ := Option.isSome_iff_exists.mp
          (hbackoff (attempt + 1) (by omega) (by omega))
        rw [retryRound_again (by omega) (by omega) hsome]
        obtain ⟨calls, tries, last, succeeded, hloop, hrest⟩ := ih (attempt + 1) (by omega)
          (by omega)
        refine ⟨_, _, _, succeeded, ?_, hrest.cons backoff hmetrics (by rw [houtcome]; decide)⟩
        show (config.retryLoop metrics dlq outcomes fuel (attempt + 1) (attempt + 1)).map _ = _
        rw [hloop]
        rfl

/-- A loop that ran from the first attempt did what it is for. -/
theorem GoesOn.retriesThenTerminates {outcomes : Nat → Outcome} {last : Nat}
    {tries calls : List LoopCall} {succeeded : Bool}
    (h : GoesOn config dlq outcomes 0 last tries calls succeeded) :
    RetriesThenTerminates config dlq outcomes calls := by
  have hle : (last : ℕ∞) + 1 ≤ config.maxRetries + 1 := by
    have := h.le_max
    gcongr
    exact_mod_cast (by omega : last ≤ config.maxRetries)
  have hcount : (tries.count .handle : ℕ∞) = last + 1 := by
    rw [h.count]
    rfl
  have hbefore : (last : ℕ∞) + 1 ≤ firstOk outcomes :=
    le_firstOk fun n hn => h.failed n (Nat.zero_le n) (by omega)
  cases succeeded with
  | true =>
    have hfirst : firstOk outcomes = last + 1 := by
      have hok := h.ok rfl
      rw [Nat.zero_add] at hok
      exact le_antisymm (firstOk_le hok) hbefore
    refine ⟨tries, true, h.calls_eq, ?_, h.only, by simp [hfirst, hle]⟩
    rw [hcount, hfirst, min_eq_left hle]
  | false =>
    obtain ⟨hlast, hnot⟩ := h.gaveUp rfl
    rw [Nat.zero_add] at hlast hnot
    have hlater : ((last + 1 : ℕ) : ℕ∞) + 1 ≤ firstOk outcomes := le_firstOk fun n hn => by
      rcases Nat.lt_succ_iff_lt_or_eq.mp hn with hlt | rfl
      · exact h.failed n (Nat.zero_le n) (by omega)
      · exact hnot
    subst hlast
    refine ⟨tries, false, h.calls_eq, ?_, h.only, ?_⟩
    · rw [hcount, min_eq_right hbefore]
    · refine iff_of_false Bool.false_ne_true fun hcontra => ?_
      have := hlater.trans hcontra
      norm_cast at this
      omega

/-- **The retry loops.** Both loops end, whatever the attempts return: after the handler was
    called `min (k, max_retries + 1)` times they take their terminal calls once. -/
theorem subscribe_loops_terminate {outcomes : Nat → Outcome} (metricsFeature : Bool)
    (hmax : config.maxRetries < 2 ^ 32 - 1)
    (hbackoff : ∀ n, 1 ≤ n → n ≤ config.maxRetries → (config.backoff n).isSome)
    (hreturns : ∀ n, outcomes n ≠ .panic) {fuel : Nat} (hfuel : config.maxRetries < fuel) :
    (∃ calls, config.subscribeTypedLoop dlq metricsFeature outcomes fuel = some (calls, true) ∧
        RetriesThenTerminates config dlq outcomes calls) ∧
      ∃ calls, config.subscribeUntypedLoop dlq outcomes fuel = some (calls, true) ∧
        RetriesThenTerminates config dlq outcomes calls := by
  constructor
  · obtain ⟨calls, tries, last, succeeded, hloop, h⟩ := retryLoop_spec dlq
      (onlyMetrics_typed metricsFeature) (by omega) hbackoff hreturns fuel 0 (by omega) (by omega)
    exact ⟨calls, hloop, h.retriesThenTerminates⟩
  · obtain ⟨calls, tries, last, succeeded, hloop, h⟩ := retryLoop_spec dlq
      onlyMetrics_untyped (by omega) hbackoff hreturns fuel 0 (by omega) (by omega)
    exact ⟨calls, hloop, h.retriesThenTerminates⟩

/-- The default configuration, and a handler that fails twice before it succeeds. -/
theorem subscribe_loops_terminate_default :
    (∃ calls, EventBusConfig.subscribeTypedLoop {} true true
          (fun n => if n < 2 then .error else .ok) 4 = some (calls, true) ∧
        RetriesThenTerminates {} true (fun n => if n < 2 then .error else .ok) calls) ∧
      ∃ calls, EventBusConfig.subscribeUntypedLoop {} true
          (fun n => if n < 2 then .error else .ok) 4 = some (calls, true) ∧
        RetriesThenTerminates {} true (fun n => if n < 2 then .error else .ok) calls :=
  subscribe_loops_terminate true (by decide)
    (fun n hpos hle => (by decide : ∀ n ≤ 3, 1 ≤ n →
      (EventBusConfig.backoff {} n).isSome = true) n hle hpos)
    (fun n => by split <;> decide) (by decide)

/-! ## The backoffs -/

variable (config) in
/-- The attempt counter after that many consecutive failures of one event. -/
def attemptAfter : Nat → Option Nat
  | 0 => some 0
  | failures + 1 => (attemptAfter failures).bind config.nextAttempt

/-- The backoffs of an event that fails `max_retries` times in a row are exact, power and
    product, and none is shorter than the one before. -/
structure BackoffsExact (config : EventBusConfig) : Prop where
  factor : ∀ n, n < config.maxRetries →
    (config.attemptAfter (n + 1)).bind config.backoffFactor = some (2 ^ n)
  backoff : ∀ n, n < config.maxRetries →
    (config.attemptAfter (n + 1)).bind config.backoff = some (config.retryBackoff * 2 ^ n)
  mono : ∀ m n, m ≤ n → n < config.maxRetries →
    ∃ before after, (config.attemptAfter (m + 1)).bind config.backoff = some before ∧
      (config.attemptAfter (n + 1)).bind config.backoff = some after ∧ before ≤ after

theorem attemptAfter_of_lt {failures : Nat} (h : failures < 2 ^ 32) :
    config.attemptAfter failures = some failures := by
  induction failures with
  | zero => rfl
  | succ failures ih =>
    rw [attemptAfter, ih (by omega), Option.bind_some]
    exact nextAttempt_of_lt h

theorem backoffFactor_eq_some_pow {n : Nat} :
    config.backoffFactor (n + 1) = some (2 ^ n) ↔ n < 32 := by
  unfold backoffFactor
  split
  · next h => exact iff_of_true rfl (by omega)
  · next h =>
    refine iff_of_false ?_ (by omega)
    have hpos : 0 < 2 ^ n := Nat.two_pow_pos n
    split
    · simp
    · intro heq
      rw [← Option.some.inj heq] at hpos
      omega

theorem backoff_of_factor {attempt factor : Nat} (h : config.backoffFactor attempt = some factor) :
    config.backoff attempt
      = if config.retryBackoff * factor < 2 ^ 64 * 10 ^ 9 then some (config.retryBackoff * factor)
        else none := by
  rw [backoff, h]

/-- **The range of the backoffs.** The backoffs of all retries are exact if and only if there
    is no retry, or at most 32 and the last backoff fits a `Duration`. -/
theorem backoffsExact_iff :
    config.BackoffsExact ↔
      config.maxRetries = 0 ∨
        (config.maxRetries ≤ 32 ∧
          config.retryBackoff * 2 ^ (config.maxRetries - 1) < 2 ^ 64 * 10 ^ 9) := by
  constructor
  · intro h
    by_cases hzero : config.maxRetries = 0
    · exact .inl hzero
    · refine .inr ?_
      have hle : config.maxRetries ≤ 32 := by
        -- otherwise the 33rd retry shifts every bit out
        by_contra hgt
        have hfactor := h.factor 32 (by omega)
        rw [attemptAfter_of_lt (by omega), Option.bind_some, backoffFactor_eq_some_pow] at hfactor
        omega
      refine ⟨hle, ?_⟩
      have hlast : config.maxRetries - 1 < config.maxRetries := by omega
      have hfactor := h.factor _ hlast
      have hbackoff := h.backoff _ hlast
      rw [attemptAfter_of_lt (by omega), Option.bind_some] at hfactor hbackoff
      rw [backoff_of_factor hfactor] at hbackoff
      by_contra hrep
      rw [if_neg hrep] at hbackoff
      cases hbackoff
  · intro h
    have hexact : ∀ n, n < config.maxRetries →
        (config.attemptAfter (n + 1)).bind config.backoffFactor = some (2 ^ n) ∧
          (config.attemptAfter (n + 1)).bind config.backoff
            = some (config.retryBackoff * 2 ^ n) := by
      intro n hn
      rcases h with hzero | ⟨hle, hrep⟩
      · omega
      · have hfactor : config.backoffFactor (n + 1) = some (2 ^ n) :=
          backoffFactor_eq_some_pow.mpr (by omega)
        have hpow : config.retryBackoff * 2 ^ n ≤
            config.retryBackoff * 2 ^ (config.maxRetries - 1) :=
          Nat.mul_le_mul_left _ (Nat.pow_le_pow_right (by omega) (by omega))
        rw [attemptAfter_of_lt (by omega), Option.bind_some, Option.bind_some,
          backoff_of_factor hfactor, if_pos (by omega)]
        exact ⟨hfactor, rfl⟩
    refine ⟨fun n hn => (hexact n hn).1, fun n hn => (hexact n hn).2, fun m n hle hn => ?_⟩
    refine ⟨_, _, (hexact m (by omega)).2, (hexact n hn).2, ?_⟩
    exact Nat.mul_le_mul_left _ (Nat.pow_le_pow_right (by omega) hle)

/-- With 40 retries the default backoff of 100 milliseconds is not exact: a checked build
    panics in the handler task after 33 attempts, and an unchecked one stops waiting. -/
theorem not_backoffsExact_forty :
    ¬ BackoffsExact { maxRetries := 40 } ∧
      ¬ BackoffsExact { maxRetries := 40, overflowChecks := false } ∧
      EventBusConfig.backoff { maxRetries := 40 } 33 = none ∧
      EventBusConfig.backoff { maxRetries := 40, overflowChecks := false } 33 = some 0 := by
  have hcounter : ∀ config : EventBusConfig,
      (config.attemptAfter 33).bind config.backoffFactor = config.backoffFactor 33 :=
    fun config => by rw [attemptAfter_of_lt (by decide), Option.bind_some]
  refine ⟨fun h => ?_, fun h => ?_, rfl, rfl⟩
  · have hfactor := h.factor 32 (by decide)
    rw [hcounter] at hfactor
    cases hfactor
  · have hfactor := h.factor 32 (by decide)
    rw [hcounter] at hfactor
    exact absurd hfactor (by decide)

end EventBusConfig

/-! ## The loop of the bus -/

namespace MemoryBus

variable {config : EventBusConfig} {s : MemoryBus} {id : Uuid} {task : HandlerTask}

/-- The step of the bus at the end of an attempt is the round of the loop. -/
theorem handlerOutcome_eq (metrics : MetricPoint → List LoopCall) {event : ArcEnvelope}
    {attempt : Nat} (hphase : task.phase = .handling event attempt) (outcome : Outcome) :
    s.handlerOutcome config id task outcome = some
      (match (config.retryRound metrics s.dlq.isSome attempt outcome).2 with
      | .panicked => s.endTask id task
      | .again n => s.setPhase id task (.backingOff event n)
      | .leave =>
        if outcome = .ok then (s.setPhase id task .selecting).ackEvent id event
        else if s.dlq.isSome then s.setPhase id task (.deadLettering event)
        else (s.setPhase id task .selecting).markFailed id event) := by
  unfold handlerOutcome
  rw [hphase]
  cases outcome with
  | ok => rfl
  | panic => rfl
  | error =>
    simp only [EventBusConfig.retryRound, EventBusConfig.afterError]
    cases config.nextAttempt attempt with
    | none => rfl
    | some n =>
      by_cases hmax : config.maxRetries < n
      · simp only [hmax, if_true]
        split <;> simp_all
      · simp only [hmax, if_false]
        cases config.backoff n <;> rfl

end MemoryBus
end TokioEvents
