/-
  TokioEvents.Dispatcher.DispatchTime

  `DispatcherStats::update_dispatch_time` (`src/dispatcher/mod.rs`): the average dispatch
  time, kept as a whole number of microseconds.

  Each update rounds down what the next one starts from, so the average falls behind the
  mean, by up to half the number of samples.
-/

import TokioEvents.Lib.RunningMean
import TokioEvents.Lib.Transition

namespace TokioEvents

/-! ## 64-bit words -/

namespace Word64

/-- A result that does not fit panics with overflow checks, and wraps without. -/
def checked (overflowChecks : Bool) (n : Nat) : Option Nat :=
  if n < 2 ^ 64 then some n
  else if overflowChecks then none else some (n % 2 ^ 64)

/-- `a + b`. -/
def add (overflowChecks : Bool) (a b : Nat) : Option Nat := checked overflowChecks (a + b)

/-- `a * b`. -/
def mul (overflowChecks : Bool) (a b : Nat) : Option Nat := checked overflowChecks (a * b)

/-- `a / b`. -/
def div (a b : Nat) : Option Nat := if b = 0 then none else some (a / b)

theorem checked_eq_some {overflowChecks : Bool} {n m : Nat} :
    checked overflowChecks n = some m
      ↔ (overflowChecks = true → n < 2 ^ 64) ∧ m = n % 2 ^ 64 := by
  unfold checked
  split
  · rename_i h
    rw [Nat.mod_eq_of_lt h]
    exact ⟨fun e => ⟨fun _ => h, (Option.some.inj e).symm⟩, fun e => congrArg some e.2.symm⟩
  · rename_i h
    cases overflowChecks with
    | true => exact ⟨nofun, fun e => absurd (e.1 rfl) h⟩
    | false => exact ⟨fun e => ⟨nofun, (Option.some.inj e).symm⟩, fun e => congrArg some e.2.symm⟩

theorem div_eq_some {a b q : Nat} : div a b = some q ↔ b ≠ 0 ∧ q = a / b := by
  unfold div
  split <;> simp [*, eq_comm]

end Word64

/-- `DispatcherStats`. -/
structure DispatcherStats where
  /-- Total events dispatched. -/
  eventsDispatched : Nat := 0
  /-- Events currently in queue. -/
  queueSize : Nat := 0
  /-- Number of dispatch errors. -/
  dispatchErrors : Nat := 0
  /-- Average dispatch time in microseconds. -/
  avgDispatchTimeUs : Nat := 0
  /-- Maximum queue size observed. -/
  maxQueueSize : Nat := 0
  deriving DecidableEq, Repr

namespace DispatcherStats

/-- `DispatcherStats::new`. -/
def new : DispatcherStats := {}

section Update

variable (overflowChecks : Bool)

/-- `DispatcherStats::update_dispatch_time`. -/
def updateDispatchTime (s : DispatcherStats) (timeUs : Nat) : Option DispatcherStats :=
  if s.eventsDispatched = 0 then some { s with avgDispatchTimeUs := timeUs }
  else
    -- Calculate moving average
    (Word64.mul overflowChecks s.avgDispatchTimeUs s.eventsDispatched).bind fun product =>
      (Word64.add overflowChecks product timeUs).bind fun total =>
        (Word64.add overflowChecks s.eventsDispatched 1).bind fun count =>
          (Word64.div total count).map fun average => { s with avgDispatchTimeUs := average }

/-- A dispatch time is fed in, and the event is counted. -/
def record (s : DispatcherStats) (timeUs : UInt64) : Option DispatcherStats :=
  (s.updateDispatchTime overflowChecks timeUs.toNat).bind fun s =>
    (Word64.add overflowChecks s.eventsDispatched 1).map fun count =>
      { s with eventsDispatched := count }

end Update

/-- What the average stands for, with one more sample. -/
def total (s : DispatcherStats) (timeUs : UInt64) : Nat :=
  s.avgDispatchTimeUs * s.eventsDispatched + timeUs.toNat

variable {overflowChecks : Bool} {s s' : DispatcherStats} {timeUs : UInt64}

/-- The overflow checks of the product and the sum are one: does the total fit? -/
theorem total_eq_some {n : Nat} :
    ((Word64.mul overflowChecks s.avgDispatchTimeUs s.eventsDispatched).bind fun product =>
      Word64.add overflowChecks product timeUs.toNat) = some n ↔
    (overflowChecks = true → s.total timeUs < 2 ^ 64) ∧ n = s.total timeUs % 2 ^ 64 := by
  unfold total
  rw [Option.bind_eq_some_iff]
  constructor
  · rintro ⟨product, hproduct, hsum⟩
    obtain ⟨hfits, rfl⟩ := Word64.checked_eq_some.mp hproduct
    obtain ⟨hfits', rfl⟩ := Word64.checked_eq_some.mp hsum
    refine ⟨fun hchecks => ?_, Nat.mod_add_mod _ _ _⟩
    have hsum := hfits' hchecks
    rwa [Nat.mod_eq_of_lt (hfits hchecks)] at hsum
  · rintro ⟨hfits, rfl⟩
    refine ⟨_, Word64.checked_eq_some.mpr ⟨fun hchecks => ?_, rfl⟩,
      Word64.checked_eq_some.mpr ⟨fun hchecks => ?_, (Nat.mod_add_mod _ _ _).symm⟩⟩
    · exact Nat.lt_of_le_of_lt (Nat.le_add_right _ _) (hfits hchecks)
    · exact Nat.lt_of_le_of_lt (Nat.add_le_add_right (Nat.mod_le _ _) _) (hfits hchecks)

/-- The average after one more sample. -/
def next (s : DispatcherStats) (timeUs : UInt64) : DispatcherStats :=
  { s with
    avgDispatchTimeUs := s.total timeUs % 2 ^ 64 / (s.eventsDispatched + 1)
    eventsDispatched := s.eventsDispatched + 1 }

/-- An update fails when the count is at its end, or on an overflow that is checked;
    otherwise it divides the total modulo the word. -/
theorem record_eq_some (hcount : s.eventsDispatched < 2 ^ 64) :
    s.record overflowChecks timeUs = some s' ↔
      s.eventsDispatched + 1 < 2 ^ 64 ∧ (overflowChecks = true → s.total timeUs < 2 ^ 64) ∧
        s' = s.next timeUs := by
  have hlast : ∀ n, Word64.add overflowChecks s.eventsDispatched 1 = some n →
      n ≠ 0 → s.eventsDispatched + 1 < 2 ^ 64 ∧ n = s.eventsDispatched + 1 := by
    intro n hn hne
    obtain ⟨-, rfl⟩ := Word64.checked_eq_some.mp hn
    omega
  have hadd : s.eventsDispatched + 1 < 2 ^ 64 →
      Word64.add overflowChecks s.eventsDispatched 1 = some (s.eventsDispatched + 1) := fun h =>
    Word64.checked_eq_some.mpr ⟨fun _ => h, (Nat.mod_eq_of_lt h).symm⟩
  unfold record updateDispatchTime
  split
  · rename_i hzero
    have hfits := timeUs.toNat_lt
    have htotal : s.total timeUs = timeUs.toNat := by
      rw [total, hzero, Nat.mul_zero, Nat.zero_add]
    have hnext : s.next timeUs = { s with
        avgDispatchTimeUs := timeUs.toNat
        eventsDispatched := s.eventsDispatched + 1 } := by
      rw [next, htotal, hzero, Nat.mod_eq_of_lt hfits, Nat.zero_add, Nat.div_one]
    rw [Option.bind_some, hadd (by omega), Option.map_some, hnext, htotal]
    constructor
    · intro h
      exact ⟨by omega, fun _ => hfits, (Option.some.inj h).symm⟩
    · rintro ⟨-, -, rfl⟩
      rfl
  · rw [← Option.bind_assoc]
    constructor
    · intro h
      obtain ⟨updated, hupdated, hincremented⟩ := Option.bind_eq_some_iff.mp h
      obtain ⟨n, hn, hdivided⟩ := Option.bind_eq_some_iff.mp hupdated
      obtain ⟨count, hcounted, hmapped⟩ := Option.bind_eq_some_iff.mp hdivided
      obtain ⟨average, haverage, rfl⟩ := Option.map_eq_some_iff.mp hmapped
      obtain ⟨hne, rfl⟩ := Word64.div_eq_some.mp haverage
      obtain ⟨hlt, rfl⟩ := hlast count hcounted hne
      obtain ⟨hfits, rfl⟩ := total_eq_some.mp hn
      obtain ⟨count, hcount', rfl⟩ := Option.map_eq_some_iff.mp hincremented
      obtain rfl := Option.some.inj (hcount'.symm.trans hcounted)
      exact ⟨hlt, hfits, rfl⟩
    · rintro ⟨hlt, hfits, rfl⟩
      rw [total_eq_some.mpr ⟨hfits, rfl⟩, Option.bind_some, hadd hlt, Option.bind_some,
        Word64.div_eq_some.mpr ⟨Nat.succ_ne_zero _, rfl⟩, Option.map_some, Option.bind_some]
      show (Word64.add overflowChecks s.eventsDispatched 1).map _ = _
      rw [hadd hlt]
      rfl

/-! ## Runs -/

/-- The samples as numbers. -/
abbrev micros (times : List UInt64) : List Nat := times.map UInt64.toNat

/-- The samples lose their remainders, or once a total does not fit, a whole word. -/
def Loses (count keptSum : Nat) (times : List UInt64) (lostSum : Nat) : Prop :=
  (RunningMean.Fits (2 ^ 64) count keptSum (micros times) →
    lostSum = RunningMean.lost count keptSum (micros times)) ∧
  (¬ RunningMean.Fits (2 ^ 64) count keptSum (micros times) → 2 ^ 64 ≤ lostSum)

/-- One more sample in front. -/
theorem loses_cons {times : List UInt64} {lostSum : Nat}
    (h : Loses (s.eventsDispatched + 1)
      ((s.next timeUs).avgDispatchTimeUs * (s.eventsDispatched + 1)) times lostSum) :
    ∃ first, (s.next timeUs).avgDispatchTimeUs * (s.eventsDispatched + 1) + first
        = s.total timeUs ∧
      Loses s.eventsDispatched (s.avgDispatchTimeUs * s.eventsDispatched) (timeUs :: times)
        (first + lostSum) := by
  have hkept : (s.next timeUs).avgDispatchTimeUs * (s.eventsDispatched + 1)
      = RunningMean.kept s.eventsDispatched (s.total timeUs % 2 ^ 64) :=
    RunningMean.div_mul_eq_kept _ _
  rw [hkept] at h ⊢
  by_cases hfits : s.total timeUs < 2 ^ 64
  · rw [Nat.mod_eq_of_lt hfits] at h ⊢
    refine ⟨s.total timeUs % (s.eventsDispatched + 1), Nat.sub_add_cancel (Nat.mod_le _ _),
      fun hall => ?_, fun hnot => ?_⟩
    · rw [h.1 hall.2]
      rfl
    · have hrest := h.2 fun hrest => hnot ⟨hfits, hrest⟩
      omega
  · have hle : RunningMean.kept s.eventsDispatched (s.total timeUs % 2 ^ 64)
        ≤ s.total timeUs % 2 ^ 64 := Nat.sub_le _ _
    refine ⟨s.total timeUs - RunningMean.kept s.eventsDispatched (s.total timeUs % 2 ^ 64),
      by omega, fun hall => absurd hall.1 hfits, fun _ => ?_⟩
    omega

/-- **Run.** The average times the count is the sum of the samples without what is lost. -/
theorem exec_record {times : List UInt64} (hcount : s.eventsDispatched < 2 ^ 64)
    (hexec : Transition.exec (record overflowChecks) s times = some s') :
    s'.eventsDispatched = s.eventsDispatched + times.length ∧ s'.eventsDispatched < 2 ^ 64 ∧
      ∃ lostSum, s'.avgDispatchTimeUs * s'.eventsDispatched + lostSum
          = s.avgDispatchTimeUs * s.eventsDispatched + (micros times).sum ∧
        Loses s.eventsDispatched (s.avgDispatchTimeUs * s.eventsDispatched) times lostSum := by
  induction times generalizing s with
  | nil =>
    cases hexec
    exact ⟨rfl, hcount, 0, rfl, fun _ => rfl, fun hnot => absurd trivial hnot⟩
  | cons timeUs times ih =>
    obtain ⟨s₁, hrecord, hrest⟩ := (Transition.exec_cons_eq_some _).mp hexec
    obtain ⟨hlt, -, rfl⟩ := (record_eq_some hcount).mp hrecord
    obtain ⟨hevents, hfinal, lostSum, hsum, hloses⟩ := ih (s := s.next timeUs) hlt hrest
    obtain ⟨first, hfirst, hcons⟩ := loses_cons hloses
    refine ⟨?_, hfinal, first + lostSum, ?_, hcons⟩
    · rw [hevents, List.length_cons]
      show s.eventsDispatched + 1 + times.length = _
      omega
    · have hnext : (s.next timeUs).eventsDispatched = s.eventsDispatched + 1 := rfl
      have htotal : s.total timeUs
        = s.avgDispatchTimeUs * s.eventsDispatched + timeUs.toNat := rfl
      have hmicros : (micros (timeUs :: times)).sum = timeUs.toNat + (micros times).sum :=
        List.sum_cons
      rw [hnext] at hsum
      omega

/-- Samples whose totals fit are all taken. -/
theorem exists_exec_record {times : List UInt64}
    (hcount : s.eventsDispatched + times.length < 2 ^ 64)
    (hfits : RunningMean.Fits (2 ^ 64) s.eventsDispatched
      (s.avgDispatchTimeUs * s.eventsDispatched) (micros times)) :
    ∃ s', Transition.exec (record overflowChecks) s times = some s' := by
  induction times generalizing s with
  | nil => exact ⟨s, rfl⟩
  | cons timeUs times ih =>
    rw [List.length_cons] at hcount
    obtain ⟨hfirst, hrest⟩ := hfits
    have hrecord : s.record overflowChecks timeUs = some (s.next timeUs) :=
      (record_eq_some (by omega)).mpr ⟨by omega, fun _ => hfirst, rfl⟩
    have htotal : s.total timeUs % 2 ^ 64 = s.total timeUs := Nat.mod_eq_of_lt hfirst
    have hkept : (s.next timeUs).avgDispatchTimeUs * (s.eventsDispatched + 1)
        = RunningMean.kept s.eventsDispatched (s.total timeUs) := by
      rw [← RunningMean.div_mul_eq_kept, ← htotal]
      rfl
    rw [Transition.exec_cons_of_step _ hrecord]
    refine ih (s := s.next timeUs) ?_ ?_
    · show s.eventsDispatched + 1 + times.length < _
      omega
    · show RunningMean.Fits (2 ^ 64) (s.eventsDispatched + 1)
        ((s.next timeUs).avgDispatchTimeUs * (s.eventsDispatched + 1)) _
      rw [hkept]
      exact hrest

/-- The samples are averaged to less than a microsecond. -/
def Accurate (overflowChecks : Bool) (times : List UInt64) : Prop :=
  ∃ s, Transition.exec (record overflowChecks) new times = some s ∧
    |(s.avgDispatchTimeUs : ℚ) - ((micros times).sum : ℚ) / times.length| < 1

/-- Samples whose totals, count and remainders are small enough. -/
def LosesLittle (times : List UInt64) : Prop :=
  times.length < 2 ^ 64 ∧ RunningMean.Fits (2 ^ 64) 0 0 (micros times) ∧
    RunningMean.lost 0 0 (micros times) < times.length

instance : DecidablePred LosesLittle := fun _ => inferInstanceAs (Decidable (_ ∧ _ ∧ _))

/-- A run from the start, with what it loses. -/
theorem exec_record_new {times : List UInt64}
    (hexec : Transition.exec (record overflowChecks) new times = some s) :
    times.length < 2 ^ 64 ∧ ∃ lostSum,
      s.avgDispatchTimeUs * times.length + lostSum = (micros times).sum ∧
        Loses 0 0 times lostSum := by
  obtain ⟨hevents, hlt, lostSum, hsum, hloses⟩ := exec_record (show 0 < 2 ^ 64 by decide) hexec
  have hlength : s.eventsDispatched = times.length := hevents.trans (Nat.zero_add _)
  rw [hlength] at hsum hlt
  exact ⟨hlt, lostSum, hsum.trans (Nat.zero_add _), hloses⟩

/-- The average is never above the mean, and below it by no more than half the number of
    samples. -/
theorem exec_record_bounds {times : List UInt64}
    (hfits : RunningMean.Fits (2 ^ 64) 0 0 (micros times))
    (hexec : Transition.exec (record overflowChecks) new times = some s) :
    s.avgDispatchTimeUs * times.length ≤ (micros times).sum ∧
      (micros times).sum ≤ s.avgDispatchTimeUs * times.length + (List.range times.length).sum := by
  obtain ⟨-, lostSum, hsum, hloses⟩ := exec_record_new hexec
  have hlost : lostSum = RunningMean.lost 0 0 (micros times) := hloses.1 hfits
  have hbound := RunningMean.lost_le 0 0 (micros times)
  rw [List.length_map, Nat.mul_zero, Nat.add_zero, ← hlost] at hbound
  omega

theorem Accurate.losesLittle {times : List UInt64} (h : Accurate overflowChecks times)
    (hsome : times ≠ []) : LosesLittle times := by
  obtain ⟨s, hexec, hoff⟩ := h
  obtain ⟨hlt, lostSum, hsum, hloses⟩ := exec_record_new hexec
  have hlost : lostSum < times.length :=
    (RunningMean.abs_sub_lt_one_iff (List.length_pos_iff.mpr hsome) hsum).mp hoff
  have hfits : RunningMean.Fits (2 ^ 64) 0 0 (micros times) := by
    by_contra hnot
    have hword : 2 ^ 64 ≤ lostSum := hloses.2 hnot
    omega
  exact ⟨hlt, hfits, hloses.1 hfits ▸ hlost⟩

theorem LosesLittle.accurate {times : List UInt64} (h : LosesLittle times) (hsome : times ≠ []) :
    Accurate overflowChecks times := by
  obtain ⟨hlength, hfits, hlost⟩ := h
  obtain ⟨s, hexec⟩ : ∃ s, Transition.exec (record overflowChecks) new times = some s :=
    exists_exec_record (show 0 + times.length < 2 ^ 64 by omega) hfits
  obtain ⟨-, lostSum, hsum, hloses⟩ := exec_record_new hexec
  refine ⟨s, hexec, (RunningMean.abs_sub_lt_one_iff (List.length_pos_iff.mpr hsome) hsum).mpr ?_⟩
  rw [hloses.1 hfits]
  exact hlost

/-- **When the average is accurate.**  For all samples it is less than a microsecond off the
    exact mean if and only if no total and no count leaves 64 bits, and the remainders of the
    divisions add up to less than the number of samples. -/
theorem updateDispatchTime_accurate_iff (overflowChecks : Bool) {times : List UInt64}
    (hsome : times ≠ []) : Accurate overflowChecks times ↔ LosesLittle times :=
  ⟨fun h => h.losesLittle hsome, fun h => h.accurate hsome⟩

/-- The test of the source takes two samples, and loses no remainder. -/
theorem updateDispatchTime_accurate_iff_test : Accurate true [100, 200] :=
  (updateDispatchTime_accurate_iff true (List.cons_ne_nil _ _)).mpr (by decide)

/-- With three it may be a microsecond off. -/
theorem updateDispatchTime_three_samples :
    ¬ ∀ times : List UInt64, times ≠ [] →
      (∃ s, Transition.exec (record true) new times = some s) → Accurate true times := by
  intro h
  have haccurate := h [0, 1, 2] (List.cons_ne_nil _ _) ⟨_, rfl⟩
  have hlittle := haccurate.losesLittle (List.cons_ne_nil _ _)
  revert hlittle
  decide

/-- And with more it gets worse: of the samples 0, 1, 2, … all is lost. -/
theorem not_accurate_range {n : Nat} (hn : 3 ≤ n) :
    ¬ Accurate overflowChecks ((List.range n).map UInt64.ofNat) := by
  have hsum : n ≤ (List.range n).sum := by
    induction n, hn using Nat.le_induction with
    | base => decide
    | succ n hn ih =>
      rw [List.range_succ, List.sum_append, List.sum_singleton]
      omega
  have hlength : ((List.range n).map UInt64.ofNat).length = n := by
    rw [List.length_map, List.length_range]
  have hsome : (List.range n).map UInt64.ofNat ≠ [] := by
    rw [← List.length_pos_iff, hlength]
    omega
  intro h
  obtain ⟨hlt, -, hlost⟩ := h.losesLittle hsome
  rw [hlength] at hlt hlost
  have hmicros : micros ((List.range n).map UInt64.ofNat) = List.range n := by
    rw [micros, List.map_map]
    refine (List.map_congr_left fun k hk => ?_).trans (List.map_id _)
    exact UInt64.toNat_ofNat_of_lt' (Nat.lt_trans (List.mem_range.mp hk) hlt)
  rw [hmicros, List.range_eq_range', RunningMean.lost_range', ← List.range_eq_range'] at hlost
  omega

end DispatcherStats
end TokioEvents
