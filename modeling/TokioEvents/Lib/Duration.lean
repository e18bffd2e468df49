/-
  Spans of time and 32-bit counters as machines carry them.

  A `Duration` is a whole number of nanoseconds whose seconds fit an unsigned 64-bit
  word; a product that leaves that range has no value.  The 32-bit operations take the
  build's overflow checks as an argument: with them an overflow panics (`none`), without
  them it wraps.
-/

import Mathlib.Algebra.Order.Ring.Nat
import Mathlib.Order.Basic
import Mathlib.Order.Lattice

/-! ## 32-bit words -/

namespace Word32

/-- `a + b`. -/
def add (overflowChecks : Bool) (a b : Nat) : Option Nat :=
  if a + b < 2 ^ 32 then some (a + b)
  else if overflowChecks then none else some (a + b - 2 ^ 32)

/-- `a - b`. -/
def sub (overflowChecks : Bool) (a b : Nat) : Option Nat :=
  if b ≤ a then some (a - b)
  else if overflowChecks then none else some (2 ^ 32 + a - b)

/-- `2.pow(exponent)`: from the exponent 32 on, every bit is shifted out. -/
def twoPow (overflowChecks : Bool) (exponent : Nat) : Option Nat :=
  if exponent < 32 then some (2 ^ exponent)
  else if overflowChecks then none else some 0

theorem add_of_lt {overflowChecks : Bool} {a b : Nat} (h : a + b < 2 ^ 32) :
    add overflowChecks a b = some (a + b) := by
  rw [add, if_pos h]

/-- Wrapped or not, a sum is no more than the exact one. -/
theorem le_of_add_eq_some {overflowChecks : Bool} {a b n : Nat}
    (h : add overflowChecks a b = some n) : n ≤ a + b := by
  unfold add at h
  split at h
  · exact (Option.some.inj h).symm.le
  · split at h
    · cases h
    · have := Option.some.inj h
      omega

theorem lt_of_add_eq_some {overflowChecks : Bool} {a b n : Nat} (ha : a < 2 ^ 32)
    (hb : b < 2 ^ 32) (h : add overflowChecks a b = some n) : n < 2 ^ 32 := by
  unfold add at h
  split at h
  · next hlt => exact Option.some.inj h ▸ hlt
  · split at h
    · cases h
    · have := Option.some.inj h
      omega

/-- A sum that does not panic is one modulo `2 ^ 32`. -/
theorem eq_mod_of_add_eq_some {overflowChecks : Bool} {a b n : Nat} (ha : a < 2 ^ 32)
    (hb : b < 2 ^ 32) (h : add overflowChecks a b = some n) : n = (a + b) % 2 ^ 32 := by
  unfold add at h
  split at h
  · next hlt => rw [Nat.mod_eq_of_lt hlt, Option.some.inj h]
  · split at h
    · cases h
    · have := Option.some.inj h
      omega

theorem sub_of_le {overflowChecks : Bool} {a b : Nat} (h : b ≤ a) :
    sub overflowChecks a b = some (a - b) := by
  rw [sub, if_pos h]

/-- The power is exact below the exponent 32 and nowhere else. -/
theorem twoPow_eq_some_pow {overflowChecks : Bool} {exponent : Nat} :
    twoPow overflowChecks exponent = some (2 ^ exponent) ↔ exponent < 32 := by
  unfold twoPow
  split
  · next h => exact iff_of_true rfl h
  · next h =>
    refine iff_of_false ?_ h
    have hpos : 0 < 2 ^ exponent := Nat.two_pow_pos exponent
    cases overflowChecks with
    | true => simp
    | false =>
      show some 0 ≠ some (2 ^ exponent)
      intro heq
      rw [← Option.some.inj heq] at hpos
      omega

end Word32

/-! ## Durations -/

/-- A span of time of whole nanoseconds whose seconds fit 64 bits. -/
structure Duration where
  nanos : Nat
  representable : nanos < 2 ^ 64 * 10 ^ 9
  deriving DecidableEq

namespace Duration

theorem nanos_injective : Function.Injective Duration.nanos := by
  rintro ⟨a, _⟩ ⟨b, _⟩ h
  cases h
  rfl

instance : LinearOrder Duration := LinearOrder.lift' Duration.nanos nanos_injective

theorem le_iff {d e : Duration} : d ≤ e ↔ d.nanos ≤ e.nanos := Iff.rfl

theorem nanos_min (d e : Duration) : (min d e).nanos = min d.nanos e.nanos :=
  (show Monotone Duration.nanos from fun _ _ h => h).map_min

/-- The product with a counter, where it can be represented. -/
def checkedMul (d : Duration) (factor : Nat) : Option Duration :=
  if h : d.nanos * factor < 2 ^ 64 * 10 ^ 9 then some ⟨d.nanos * factor, h⟩ else none

/-- The product that is returned is the exact one. -/
theorem checkedMul_eq_some {d e : Duration} {factor : Nat} :
    d.checkedMul factor = some e ↔ d.nanos * factor = e.nanos := by
  unfold checkedMul
  split
  · next h =>
    rw [Option.some.injEq]
    exact ⟨fun heq => heq ▸ rfl, fun heq => nanos_injective heq⟩
  · next h =>
    refine iff_of_false (by simp) fun heq => h ?_
    rw [heq]
    exact e.representable

end Duration
