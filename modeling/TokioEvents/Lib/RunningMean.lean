/-
  Running means of natural numbers, rounded down at every step.

  The mean of `count` samples times `count` is what is kept of their sum; the next sample
  is added to it, and the division by `count + 1` loses a remainder.  What is lost is never
  made up for: a running mean is below the exact one by the sum of the remainders.
-/

import Mathlib.Algebra.Order.Field.Basic
import Mathlib.Algebra.Order.Field.Rat
import Mathlib.Algebra.Order.Ring.Abs

namespace RunningMean

/-- The multiple of the new count that is kept of a total. -/
def kept (count total : Nat) : Nat := total - total % (count + 1)

/-- The sum of the remainders that the divisions lose. -/
def lost (count keptSum : Nat) : List Nat → Nat
  | [] => 0
  | sample :: samples =>
    (keptSum + sample) % (count + 1) + lost (count + 1) (kept count (keptSum + sample)) samples

/-- The totals that are divided are all below the bound. -/
def Fits (bound count keptSum : Nat) : List Nat → Prop
  | [] => True
  | sample :: samples =>
    keptSum + sample < bound ∧ Fits bound (count + 1) (kept count (keptSum + sample)) samples

instance decidableFits (bound : Nat) :
    (count keptSum : Nat) → (samples : List Nat) → Decidable (Fits bound count keptSum samples)
  | _, _, [] => isTrue trivial
  | count, keptSum, sample :: samples =>
    have := decidableFits bound (count + 1) (kept count (keptSum + sample)) samples
    inferInstanceAs (Decidable (_ ∧ _))

/-- The new mean times the new count. -/
theorem div_mul_eq_kept (count total : Nat) :
    total / (count + 1) * (count + 1) = kept count total := by
  have hdiv := Nat.div_add_mod total (count + 1)
  rw [Nat.mul_comm] at hdiv
  unfold kept
  omega

/-- One remainder is less than the count. -/
theorem lost_le (count keptSum : Nat) (samples : List Nat) :
    lost count keptSum samples ≤ (List.range samples.length).sum + samples.length * count := by
  induction samples generalizing count keptSum with
  | nil => exact Nat.zero_le _
  | cons sample samples ih =>
    have hlt : (keptSum + sample) % (count + 1) < count + 1 := Nat.mod_lt _ (Nat.succ_pos count)
    have hrest := ih (count + 1) (kept count (keptSum + sample))
    rw [lost, List.length_cons, List.range_succ, List.sum_append, List.sum_singleton]
    rw [Nat.mul_succ] at hrest
    rw [Nat.succ_mul]
    omega

/-- The samples `count`, `count + 1`, … are lost altogether. -/
theorem lost_range' (count n : Nat) :
    lost count 0 (List.range' count n) = (List.range' count n).sum := by
  induction n generalizing count with
  | zero => rfl
  | succ n ih =>
    have hmod : count % (count + 1) = count := Nat.mod_eq_of_lt (Nat.lt_succ_self count)
    have hkept : kept count (0 + count) = 0 := by
      rw [kept, Nat.zero_add, hmod, Nat.sub_self]
    rw [List.range'_succ, lost, hkept, ih, Nat.zero_add, hmod, List.sum_cons]

/-- The mean is off by what is lost, divided by the count. -/
theorem abs_sub_lt_one_iff {mean count lostSum sum : Nat} (hpos : 0 < count)
    (h : mean * count + lostSum = sum) :
    |(mean : ℚ) - (sum : ℚ) / count| < 1 ↔ lostSum < count := by
  have hcount : (0 : ℚ) < count := Nat.cast_pos.mpr hpos
  have hoff : (sum : ℚ) / count - mean = lostSum / count := by
    rw [← h, Nat.cast_add, Nat.cast_mul, add_div, mul_div_cancel_right₀ _ hcount.ne',
      add_sub_cancel_left]
  rw [abs_sub_comm, hoff, abs_of_nonneg (div_nonneg (Nat.cast_nonneg _) hcount.le),
    div_lt_one hcount, Nat.cast_lt]

end RunningMean
