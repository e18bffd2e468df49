/-
  Round robin over a counter.

  The picks are the values of a counter modulo the number of places; a counter of a
  machine is itself taken modulo the size of its word.
-/

import Mathlib.Data.List.Basic
import Mathlib.Data.Nat.Count
import Mathlib.Data.Int.CardIntervalMod

namespace RoundRobin

/-- The first `k` picks among `n` places by a counter that wraps at `size`. -/
def picks (size n k : Nat) : List Nat := (List.range k).map fun i => i % size % n

@[simp] theorem length_picks (size n k : Nat) : (picks size n k).length = k := by
  rw [picks, List.length_map, List.length_range]

theorem picks_succ (size n k : Nat) :
    picks size n (k + 1) = picks size n k ++ [k % size % n] := by
  rw [picks, List.range_succ, List.map_append]
  rfl

/-- Before the counter wraps, the picks follow the counter itself. -/
theorem count_picks_eq_count {size n k : Nat} (hsize : k ≤ size) (w : Nat) :
    (picks size n k).count w = Nat.count (fun i => i % n = w) k := by
  induction k with
  | zero => rfl
  | succ k ih =>
    have hk : k % size = k := Nat.mod_eq_of_lt (by omega)
    rw [picks_succ, List.count_append, ih (by omega), Nat.count_succ, hk, List.count_singleton]
    simp only [beq_iff_eq]

/-- Before the counter wraps, every place has had the full rounds, and those before the
    counter one more. -/
theorem count_picks {size n k w : Nat} (hsize : k ≤ size) (hw : w < n) :
    (picks size n k).count w = k / n + if w < k % n then 1 else 0 := by
  have hcount := Nat.count_modEq_card k (show 0 < n by omega) w
  rw [Nat.mod_eq_of_lt hw] at hcount
  rw [count_picks_eq_count hsize, ← hcount]
  congr 1
  funext i
  rw [Nat.ModEq, Nat.mod_eq_of_lt hw]

/-- No place is two picks behind another. -/
theorem picks_balanced {size n k w w' : Nat} (hsize : k ≤ size) (hw : w < n) (hw' : w' < n) :
    (picks size n k).count w ≤ (picks size n k).count w' + 1 := by
  rw [count_picks hsize hw, count_picks hsize hw']
  split <;> split <;> omega

end RoundRobin
