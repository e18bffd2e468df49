/-
  TokioEvents.Dispatcher.Retry

  The retry policies of `src/dispatcher/retry.rs`: `ExponentialBackoff`, `FixedDelay` and
  `NoRetry`, and what the exponential delays are.

  A policy never reads the error or the envelope it is asked about (`let _ = (error,
  envelope)`), so they are left out.  The jitter is a random factor applied in floating
  point; it enters as a parameter.  `none` stands for a panic of the arithmetic.
-/

import TokioEvents.Lib.Duration

namespace TokioEvents

/-- `ExponentialBackoff`. -/
structure ExponentialBackoff where
  baseDelay : Duration
  maxDelay : Duration
  maxAttempts : Nat
  jitter : Bool
  deriving DecidableEq

/-- `FixedDelay`. -/
structure FixedDelay where
  delay : Duration
  maxAttempts : Nat
  deriving DecidableEq

namespace FixedDelay

/-- `FixedDelay::should_retry`. -/
def shouldRetry (policy : FixedDelay) (attempt : Nat) : Option Duration :=
  if policy.maxAttempts ≤ attempt then none else some policy.delay

end FixedDelay

namespace NoRetry

/-- `NoRetry::should_retry`. -/
def shouldRetry (_attempt : Nat) : Option Duration := none

end NoRetry

namespace ExponentialBackoff

/-- `ExponentialBackoff::default`: from 100 milliseconds up to 30 seconds, 5 attempts. -/
def default : ExponentialBackoff where
  baseDelay := ⟨100 * 10 ^ 6, by decide⟩
  maxDelay := ⟨30 * 10 ^ 9, by decide⟩
  maxAttempts := 5
  jitter := true

/-- `ExponentialBackoff::new`. -/
def new (baseDelay maxDelay : Duration) (maxAttempts : Nat) : ExponentialBackoff where
  baseDelay := baseDelay
  maxDelay := maxDelay
  maxAttempts := maxAttempts
  jitter := true

/-- `ExponentialBackoff::without_jitter`. -/
def withoutJitter (policy : ExponentialBackoff) : ExponentialBackoff :=
  { policy with jitter := false }

/-- `2u32.pow(attempt - 1)`. -/
def factor (overflowChecks : Bool) (attempt : Nat) : Option Nat :=
  (Word32.sub overflowChecks attempt 1).bind (Word32.twoPow overflowChecks)

variable (overflowChecks : Bool) (applyJitter : Duration → Option Duration)

/-- `ExponentialBackoff::should_retry`. -/
def shouldRetry (policy : ExponentialBackoff) (attempt : Nat) : Option (Option Duration) :=
  if policy.maxAttempts ≤ attempt then some none
  else
    (factor overflowChecks attempt).bind fun factor =>
      (policy.baseDelay.checkedMul factor).bind fun delay =>
        let delay := min delay policy.maxDelay
        if policy.jitter then (applyJitter delay).map some else some (some delay)

/-- What the policy is for: attempts from `maxAttempts` on are given up; before it the delay
    is the exact power, capped, no step on the way to it overflows, and no earlier delay was
    longer. -/
def KeepsSchedule (policy : ExponentialBackoff) (attempt : Nat) : Prop :=
  if policy.maxAttempts ≤ attempt then
    policy.shouldRetry overflowChecks applyJitter attempt = some none
  else
    factor overflowChecks attempt = some (2 ^ (attempt - 1)) ∧
      ∃ delay, policy.shouldRetry overflowChecks applyJitter attempt = some (some delay) ∧
        delay.nanos = min (policy.baseDelay.nanos * 2 ^ (attempt - 1)) policy.maxDelay.nanos ∧
        delay ≤ policy.maxDelay ∧
        ∀ earlier, 1 ≤ earlier → earlier ≤ attempt →
          ∃ delay', policy.shouldRetry overflowChecks applyJitter earlier = some (some delay') ∧
            delay' ≤ delay

variable {overflowChecks applyJitter}

theorem factor_eq_some_pow {attempt : Nat} (h : 1 ≤ attempt) :
    factor overflowChecks attempt = some (2 ^ (attempt - 1)) ↔ attempt ≤ 32 := by
  rw [factor, Word32.sub_of_le h, Option.bind_some, Word32.twoPow_eq_some_pow]
  omega

/-- Where power and product are exact, the delay is the capped product. -/
theorem shouldRetry_of_exact {policy : ExponentialBackoff} {attempt : Nat}
    (hattempt : 1 ≤ attempt) (hmax : attempt < policy.maxAttempts)
    (hjitter : policy.jitter = false) (hpow : attempt ≤ 32)
    (hrep : policy.baseDelay.nanos * 2 ^ (attempt - 1) < 2 ^ 64 * 10 ^ 9) :
    policy.shouldRetry overflowChecks applyJitter attempt
      = some (some (min ⟨_, hrep⟩ policy.maxDelay)) := by
  have hmul : policy.baseDelay.checkedMul (2 ^ (attempt - 1)) = some ⟨_, hrep⟩ :=
    Duration.checkedMul_eq_some.mpr rfl
  rw [shouldRetry, if_neg (by omega), (factor_eq_some_pow hattempt).mpr hpow, Option.bind_some,
    hmul, Option.bind_some, hjitter]
  rfl

/-- A delay that is returned comes from a product that can be represented. -/
theorem representable_of_shouldRetry {policy : ExponentialBackoff} {attempt power : Nat}
    {delay : Duration} (hfactor : factor overflowChecks attempt = some power)
    (h : policy.shouldRetry overflowChecks applyJitter attempt = some (some delay)) :
    policy.baseDelay.nanos * power < 2 ^ 64 * 10 ^ 9 := by
  unfold shouldRetry at h
  split at h
  · cases h
  · rw [hfactor, Option.bind_some, Option.bind_eq_some_iff] at h
    obtain ⟨product, hproduct, -⟩ := h
    rw [Duration.checkedMul_eq_some.mp hproduct]
    exact product.representable

/-- The exact product does not decrease from one attempt to a later one. -/
theorem exact_mono (base : Nat) {earlier attempt : Nat} (h : earlier ≤ attempt) :
    base * 2 ^ (earlier - 1) ≤ base * 2 ^ (attempt - 1) :=
  Nat.mul_le_mul_left base (Nat.pow_le_pow_right (by omega) (by omega))

/-- **The schedule of the delays.** Without jitter, the policy keeps its schedule at an attempt
    exactly when it gives up there, or the power stays below `2 ^ 32` and the product can be
    represented: the cap comes too late for both. -/
theorem keepsSchedule_iff {policy : ExponentialBackoff} {attempt : Nat} (hattempt : 1 ≤ attempt)
    (hjitter : policy.jitter = false) :
    policy.KeepsSchedule overflowChecks applyJitter attempt ↔
      policy.maxAttempts ≤ attempt ∨
        (attempt ≤ 32 ∧ policy.baseDelay.nanos * 2 ^ (attempt - 1) < 2 ^ 64 * 10 ^ 9) := by
  unfold KeepsSchedule
  split
  · next hmax =>
    refine iff_of_true ?_ (.inl hmax)
    rw [shouldRetry, if_pos hmax]
  · next hmax =>
    constructor
    · rintro ⟨hpow, delay, hdelay, -⟩
      exact .inr ⟨(factor_eq_some_pow hattempt).mp hpow, representable_of_shouldRetry hpow hdelay⟩
    · rintro (hmax' | ⟨hpow, hrep⟩)
      · exact absurd hmax' hmax
      · have hlt : attempt < policy.maxAttempts := by omega
        refine ⟨(factor_eq_some_pow hattempt).mpr hpow, min ⟨_, hrep⟩ policy.maxDelay,
          shouldRetry_of_exact hattempt hlt hjitter hpow hrep, Duration.nanos_min _ _,
          min_le_right _ _, fun earlier hearlier hle => ?_⟩
        -- an earlier attempt meets the same condition
        have hmono := exact_mono policy.baseDelay.nanos hle
        have hrep' : policy.baseDelay.nanos * 2 ^ (earlier - 1) < 2 ^ 64 * 10 ^ 9 := by omega
        refine ⟨min ⟨_, hrep'⟩ policy.maxDelay,
          shouldRetry_of_exact hearlier (by omega) hjitter (by omega) hrep', ?_⟩
        exact min_le_min_right _ (Duration.le_iff.mpr hmono)

/-- A delay of a second that doubles for as long as 40 attempts last. -/
def patient : ExponentialBackoff :=
  (new ⟨10 ^ 9, by decide⟩ ⟨30 * 10 ^ 9, by decide⟩ 40).withoutJitter

theorem keepsSchedule_patient : patient.KeepsSchedule true some 32 :=
  (keepsSchedule_iff (by decide) rfl).mpr (.inr (by decide +kernel))

/-- At attempt 33 the power overflows: a checked build panics, and an unchecked one does not
    wait at all. -/
theorem not_keepsSchedule_patient :
    patient.shouldRetry true some 33 = none ∧
      patient.shouldRetry false some 33 = some (some ⟨0, by decide⟩) ∧
      ¬ patient.KeepsSchedule true some 33 ∧ ¬ patient.KeepsSchedule false some 33 := by
  refine ⟨rfl, rfl, fun h => ?_, fun h => ?_⟩
  · exact absurd h.1 (by decide)
  · exact absurd h.1 (by decide)

end ExponentialBackoff
end TokioEvents
