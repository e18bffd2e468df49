/-
  TokioEvents.Bus.ShutdownOnce

  Shutdown is one-way and runs its hooks once, as `register_shutdown_hook` says, as long
  as no second call begins while there are hooks, or after the first call has stored
  `Stopped`: a call stores `Draining` whatever the state is, and hooks stay registered.
-/

import TokioEvents.Bus.Invariant

namespace TokioEvents

/-- The order `Running`, `Draining`, `Stopped`: the values of the `repr(u8)`. -/
def ShutdownState.toNat : ShutdownState → Nat
  | .running => 0
  | .draining => 1
  | .stopped => 2

/-- What the statement about shutdown speaks of. -/
structure ShutdownHistory where
  /-- The number of hooks that were registered when the first call began. -/
  hooks : Option Nat
  /-- The states of the run, in order. -/
  states : List ShutdownState

namespace MemoryBus

/-- The first call records the hooks, every step the state. -/
def recordShutdown (s : MemoryBus) (a : Action) (s' : MemoryBus) (h : ShutdownHistory) :
    ShutdownHistory where
  hooks :=
    match a with
    | .shutdown (.begin _) => some (h.hooks.getD s.hooks)
    | _ => h.hooks
  states := h.states ++ [s'.shutdownState]

/-- The system with the history of its shutdown. -/
def stepWithShutdown (config : EventBusConfig) :
    MemoryBus × ShutdownHistory → Action → Option (MemoryBus × ShutdownHistory) :=
  Transition.withHistory (step config) recordShutdown

/-- A fresh bus, and no history. -/
def buildWithShutdown (config : EventBusConfig) : MemoryBus × ShutdownHistory :=
  (build config, ⟨none, [.running]⟩)

/-- The state only moves forward, and each hook registered before the first call has run
    at most once. -/
structure OneWay (s : MemoryBus × ShutdownHistory) : Prop where
  forward : (s.2.states.map ShutdownState.toNat).Pairwise (· ≤ ·)
  once : ∀ n, s.2.hooks = some n → ∀ hook < n, s.1.log.count (.hooked hook) ≤ 1

/-- A call begins before any has stored `Stopped`, and it is the first one, or no hook had
    been registered before the first one. -/
def BeginsOnce (s : MemoryBus × ShutdownHistory) : Action → Prop
  | .shutdown (.begin _) =>
    s.1.shutdownState ≠ .stopped ∧ (s.2.hooks = none ∨ s.2.hooks = some 0)
  | _ => True

instance (s : MemoryBus × ShutdownHistory) : (a : Action) → Decidable (BeginsOnce s a)
  | .shutdown (.begin _) => inferInstanceAs (Decidable (_ ∧ _))
  | .shutdown .registerHook => isTrue trivial
  | .shutdown (.advance _) => isTrue trivial
  | .shutdown (.timeout _) => isTrue trivial
  | .shutdown (.drop _) => isTrue trivial
  | .publisher _ => isTrue trivial
  | .worker _ => isTrue trivial
  | .handler _ _ => isTrue trivial
  | .subscriber _ => isTrue trivial

/-! ## The state -/

/-- The recorded states are in order, and the last one is the current one. -/
structure Forward (s : MemoryBus × ShutdownHistory) : Prop where
  sorted : (s.2.states.map ShutdownState.toNat).Pairwise (· ≤ ·)
  bounded : ∀ state ∈ s.2.states, state.toNat ≤ s.1.shutdownState.toNat

theorem Forward.step {config : EventBusConfig} {s s' : MemoryBus × ShutdownHistory} {a : Action}
    (hs : Forward s) (hC : BeginsOnce s a) (h : stepWithShutdown config s a = some s') :
    Forward s' := by
  obtain ⟨hstep, hrecord⟩ := Transition.withHistory_eq_some.mp h
  have hstates : s'.2.states = s.2.states ++ [s'.1.shutdownState] := by rw [hrecord]; rfl
  have hle : s.1.shutdownState.toNat ≤ s'.1.shutdownState.toNat := by
    by_cases hshutdown : ∃ b, a = .shutdown b
    · obtain ⟨b, rfl⟩ := hshutdown
      rcases (stepShutdown_cases hstep).state_cases with hsame | ⟨graceful, rfl⟩ | ⟨hstopped, -⟩
      · rw [hsame]
      · obtain ⟨hnot, -⟩ := hC
        have hdraining : s'.1.shutdownState = .draining := by
          have := Option.some.inj hstep
          rw [← this]
          rfl
        rw [hdraining]
        cases hstate : s.1.shutdownState with
        | running => decide
        | draining => exact Nat.le_refl _
        | stopped => exact absurd hstate hnot
      · rw [hstopped]
        cases s.1.shutdownState <;> decide
    · rw [(of_not_shutdown hstep fun b hb => hshutdown ⟨b, hb⟩).2.1]
  have hbounded : ∀ state ∈ s.2.states, state.toNat ≤ s'.1.shutdownState.toNat :=
    fun state hstate => (hs.bounded state hstate).trans hle
  refine ⟨?_, ?_⟩
  · rw [hstates, List.map_append, List.pairwise_append]
    refine ⟨hs.sorted, by simp, fun n hn m hm => ?_⟩
    obtain ⟨state, hstate, rfl⟩ := List.mem_map.mp hn
    rw [List.map_singleton, List.mem_singleton] at hm
    exact hm ▸ hbounded state hstate
  · intro state hstate
    rw [hstates] at hstate
    rcases List.mem_append.mp hstate with hold | hnew
    · exact hbounded state hold
    · rw [List.mem_singleton.mp hnew]

/-! ## The hooks -/

/-- How far a call has come with the hooks. -/
def HooksRun (log : Log) : ShutdownPhase → Prop
  | .lockingHooks => ∀ hook, log.count (.hooked hook) = 0
  | .runningHooks next => ∀ hook, log.count (.hooked hook) = if hook < next then 1 else 0
  | _ => ∀ hook, log.count (.hooked hook) ≤ 1

/-- No hook has run before the first call, and if there were hooks then, the first call is
    the only one. -/
structure RunsOnce (s : MemoryBus × ShutdownHistory) : Prop where
  before : s.2.hooks = none → s.1.shutdowns = [] ∧ ∀ hook, s.1.log.count (.hooked hook) = 0
  only : ∀ n, s.2.hooks = some n → 0 < n → ∃ call, s.1.shutdowns = [call] ∧
    HooksRun s.1.log call.phase

theorem HooksRun.le {log : Log} {phase : ShutdownPhase} (h : HooksRun log phase) (hook : Nat) :
    log.count (.hooked hook) ≤ 1 := by
  cases phase with
  | lockingHooks => exact (h hook).trans_le (Nat.zero_le _)
  | runningHooks next =>
    rw [h hook]
    split <;> decide
  | _ => exact h hook

theorem HooksRun.congr {log log' : Log} {phase : ShutdownPhase} (h : HooksRun log phase)
    (hcount : ∀ hook, log'.count (.hooked hook) = log.count (.hooked hook)) :
    HooksRun log' phase := by
  cases phase with
  | lockingHooks => exact fun hook => (hcount hook).trans (h hook)
  | runningHooks next => exact fun hook => (hcount hook).trans (h hook)
  | _ => exact fun hook => (hcount hook).trans_le (h hook)

/-- Without calls there is nothing to do but to register hooks. -/
theorem ShutdownStep.of_no_calls {s s' : MemoryBus} {a : ShutdownAction} (h : ShutdownStep s a s')
    (hbegin : ∀ graceful, a ≠ .begin graceful) (hnone : s.shutdowns = []) :
    s'.shutdowns = [] ∧ s'.log = s.log := by
  have hno : ∀ {n : Nat} {call : ShutdownCall}, s.shutdowns[n]? = some call → False := by
    intro n call hcall
    simp [hnone] at hcall
  cases h with
  | registerHook => exact ⟨hnone, rfl⟩
  | begin graceful => exact absurd rfl (hbegin graceful)
  | lockHooks hcall => exact (hno hcall).elim
  | runHook hcall => exact (hno hcall).elim
  | releaseHooks hcall => exact (hno hcall).elim
  | noDispatcher hcall => exact (hno hcall).elim
  | takeDispatcher hcall => exact (hno hcall).elim
  | skipJoin hcall => exact (hno hcall).elim
  | join hcall => exact (hno hcall).elim
  | collect hcall => exact (hno hcall).elim
  | abortAll hcall => exact (hno hcall).elim
  | remove hcall => exact (hno hcall).elim
  | skip hcall => exact (hno hcall).elim
  | await hcall => exact (hno hcall).elim
  | joinTask hcall => exact (hno hcall).elim
  | joinedAll hcall => exact (hno hcall).elim
  | store hcall => exact (hno hcall).elim
  | timeout hcall => exact (hno hcall).elim
  | drop hcall => exact (hno hcall).elim

/-- The step of the only call. -/
theorem ShutdownStep.hooksRun {s s' : MemoryBus} {a : ShutdownAction} {call : ShutdownCall}
    (h : ShutdownStep s a s') (hbegin : ∀ graceful, a ≠ .begin graceful)
    (honly : s.shutdowns = [call]) (hrun : HooksRun s.log call.phase) :
    ∃ call', s'.shutdowns = [call'] ∧ HooksRun s'.log call'.phase := by
  -- a step of a call is a step of this one
  have hone : ∀ {n : Nat} {other : ShutdownCall} {phase : ShutdownPhase},
      s.shutdowns[n]? = some other →
      s'.shutdowns = s.shutdowns.set n { other with phase := phase } →
      (HooksRun s.log other.phase → HooksRun s'.log phase) →
      ∃ call', s'.shutdowns = [call'] ∧ HooksRun s'.log call'.phase := by
    intro n other phase hother hset hkeep
    rw [honly] at hother hset
    obtain ⟨hlt, rfl⟩ := List.getElem?_eq_some_iff.mp hother
    obtain rfl : n = 0 := by simpa using hlt
    exact ⟨_, hset, hkeep hrun⟩
  cases h with
  | registerHook => exact ⟨call, honly, hrun⟩
  | begin graceful => exact absurd rfl (hbegin graceful)
  | lockHooks hcall hphase =>
    refine hone hcall rfl fun h hook => ?_
    rw [hphase] at h
    exact (h hook).trans (if_neg (Nat.not_lt_zero hook)).symm
  | @runHook n next other hcall hphase hnext =>
    refine hone hcall rfl fun h hook => ?_
    rw [hphase] at h
    show (s.log ++ [Observation.hooked next]).count (.hooked hook) = _
    rw [List.count_append, h hook, List.count_singleton]
    by_cases hhook : next = hook
    · simp [hhook]
    · have hne : (Observation.hooked next == Observation.hooked hook) = false := by
        simpa using hhook
      rw [hne]
      rcases Nat.lt_trichotomy hook next with hlt | heq | hgt
      · simp [hlt, Nat.lt_succ_of_lt hlt]
      · exact absurd heq.symm hhook
      · simp [Nat.not_lt.mpr hgt.le, Nat.not_lt.mpr hgt]
  | noDispatcher hcall => exact hone hcall rfl fun h hook => h.le hook
  | takeDispatcher hcall => exact hone hcall rfl fun h hook => h.le hook
  | skipJoin hcall => exact hone hcall rfl fun h hook => h.le hook
  | join hcall => exact hone hcall rfl fun h hook => h.le hook
  | collect hcall => exact hone hcall rfl fun h hook => h.le hook
  | abortAll hcall => exact hone hcall rfl fun h hook => h.le hook
  | remove hcall => exact hone hcall rfl fun h hook => h.le hook
  | skip hcall => exact hone hcall rfl fun h hook => h.le hook
  | await hcall => exact hone hcall rfl fun h hook => h.le hook
  | joinTask hcall => exact hone hcall rfl fun h hook => h.le hook
  | joinedAll hcall => exact hone hcall rfl fun h hook => h.le hook
  | store hcall => exact hone hcall rfl fun h hook => h.le hook
  | timeout hcall => exact hone hcall rfl fun h hook => h.le hook
  | drop hcall => exact hone hcall rfl fun h hook => h.le hook
  | releaseHooks hcall => exact hone hcall rfl fun h hook => h.le hook

/-- Only shutdown calls run hooks. -/
theorem count_hooked {config : EventBusConfig} {s s' : MemoryBus} {a : Action}
    (h : step config s a = some s') (ha : ∀ b, a ≠ .shutdown b) (hook : Nat) :
    s'.log.count (.hooked hook) = s.log.count (.hooked hook) := by
  have hkeep : ∀ {observations : Log}, s'.log = s.log ++ observations →
      (∀ o ∈ observations, o ≠ .hooked hook) →
      s'.log.count (.hooked hook) = s.log.count (.hooked hook) := by
    intro observations hlog hother
    rw [hlog, List.count_append, List.count_eq_zero.mpr fun hmem => hother _ hmem rfl,
      Nat.add_zero]
  cases a with
  | publisher b =>
    obtain ⟨events, hlog⟩ := (stepPublisher_cases h).log
    exact hkeep hlog (by simp)
  | worker b =>
    obtain ⟨os, hlog, hos⟩ := (stepWorker_cases h).log
    refine hkeep hlog fun o ho => ?_
    rcases hos o ho with ⟨_, _, rfl⟩ | ⟨_, rfl⟩ | ⟨_, _, rfl⟩ <;> simp
  | handler id b =>
    obtain ⟨task, -, hstep⟩ := stepHandler_cases h
    obtain ⟨entries, hlog, -⟩ := hstep.log
    refine hkeep hlog fun o ho => ?_
    obtain ⟨_, -, rfl⟩ := List.mem_map.mp ho
    simp
  | subscriber b => rw [(stepSubscriber_cases h).log_eq]
  | shutdown b => exact absurd rfl (ha b)

theorem RunsOnce.step {config : EventBusConfig} {s s' : MemoryBus × ShutdownHistory} {a : Action}
    (hs : RunsOnce s) (hC : BeginsOnce s a) (h : stepWithShutdown config s a = some s') :
    RunsOnce s' := by
  obtain ⟨hstep, hrecord⟩ := Transition.withHistory_eq_some.mp h
  by_cases hbegin : ∃ graceful, a = .shutdown (.begin graceful)
  · obtain ⟨graceful, rfl⟩ := hbegin
    have hhooks : s'.2.hooks = some (s.2.hooks.getD s.1.hooks) := by rw [hrecord]; rfl
    have hbus : s'.1 = s.1.beginShutdown graceful := (Option.some.inj hstep).symm
    refine ⟨fun hnone => by simp [hhooks] at hnone, fun n hn hpos => ?_⟩
    rcases hC.2 with hnone | hzero
    · obtain ⟨hcalls, hcount⟩ := hs.before hnone
      refine ⟨⟨graceful, .lockingHooks⟩, ?_, ?_⟩
      · rw [hbus]
        show s.1.shutdowns ++ [_] = _
        rw [hcalls]
        rfl
      · rw [hbus]
        exact hcount
    · -- no hook had been registered before the first call
      rw [hhooks, hzero] at hn
      cases hn
      exact absurd hpos (Nat.lt_irrefl 0)
  · have hhooks : s'.2.hooks = s.2.hooks := by
      rw [hrecord]
      cases a with
      | shutdown b =>
        cases b with
        | begin graceful => exact absurd ⟨graceful, rfl⟩ hbegin
        | _ => rfl
      | _ => rfl
    by_cases hshutdown : ∃ b, a = .shutdown b
    · obtain ⟨b, rfl⟩ := hshutdown
      have hb : ∀ graceful, b ≠ .begin graceful := by
        rintro graceful rfl
        exact hbegin ⟨graceful, rfl⟩
      have hcase := stepShutdown_cases hstep
      refine ⟨fun hnone => ?_, fun n hn hpos => ?_⟩
      · obtain ⟨hcalls, hcount⟩ := hs.before (hhooks ▸ hnone)
        obtain ⟨hcalls', hlog⟩ := hcase.of_no_calls hb hcalls
        exact ⟨hcalls', fun hook => hlog ▸ hcount hook⟩
      · obtain ⟨call, honly, hrun⟩ := hs.only n (hhooks ▸ hn) hpos
        exact hcase.hooksRun hb honly hrun
    · have hother : ∀ b, a ≠ .shutdown b := fun b hb => hshutdown ⟨b, hb⟩
      have hframe := of_not_shutdown hstep hother
      have hcount := count_hooked hstep hother
      refine ⟨fun hnone => ?_, fun n hn hpos => ?_⟩
      · obtain ⟨hcalls, hzero⟩ := hs.before (hhooks ▸ hnone)
        exact ⟨hframe.1.trans hcalls, fun hook => (hcount hook).trans (hzero hook)⟩
      · obtain ⟨call, honly, hrun⟩ := hs.only n (hhooks ▸ hn) hpos
        exact ⟨call, hframe.1.trans honly, hrun.congr hcount⟩

/-! ## Every run -/

theorem RunsOnce.once {s : MemoryBus × ShutdownHistory} (h : RunsOnce s) {n : Nat}
    (hn : s.2.hooks = some n) {hook : Nat} (hhook : hook < n) :
    s.1.log.count (.hooked hook) ≤ 1 := by
  obtain ⟨call, -, hrun⟩ := h.only n hn (Nat.zero_lt_of_lt hhook)
  exact hrun.le hook

/-- **One-way shutdown.** In every run in which no call begins while there are hooks and
    another call has begun, or after the state has become `Stopped`. -/
theorem oneWay_exec {config : EventBusConfig} {s : MemoryBus × ShutdownHistory} {as : List Action}
    (hC : Transition.Along (stepWithShutdown config) BeginsOnce (buildWithShutdown config) as)
    (hexec : Transition.exec (stepWithShutdown config) (buildWithShutdown config) as = some s) :
    OneWay s := by
  have hinit : Forward (buildWithShutdown config) ∧ RunsOnce (buildWithShutdown config) := by
    constructor
    · constructor <;> simp [buildWithShutdown, build]
    · constructor <;> simp [buildWithShutdown, build]
  have hrun := Transition.invariant_along (I := fun s => Forward s ∧ RunsOnce s)
    (fun s a s' h hC hstep => ⟨h.1.step hC hstep, h.2.step hC hstep⟩) hinit hC hexec
  exact ⟨hrun.1.sorted, fun n hn hook hhook => hrun.2.once hn hhook⟩

/-- A graceful shutdown runs one hook and takes what is in the slot of the dispatcher. -/
def shutdownSteps (n : Nat) : List Action :=
  .shutdown (.begin true) :: .replicate 4 (.shutdown (.advance n))

/-- The worker finds the queue closed and empty, and the call returns. -/
def stopSteps (n : Nat) : List Action :=
  .worker .recv :: .replicate 5 (.shutdown (.advance n))

theorem oneWay_gracefulShutdown :
    ∃ s, Transition.exec (stepWithShutdown {}) (buildWithShutdown {})
        ([.shutdown .registerHook] ++ shutdownSteps 0 ++ stopSteps 0) = some s ∧ OneWay s ∧
      s.1.shutdownState = .stopped := by
  obtain ⟨s, hs⟩ := Option.isSome_iff_exists.mp
    (by decide +kernel : (Transition.exec (stepWithShutdown {}) (buildWithShutdown {})
      ([.shutdown .registerHook] ++ shutdownSteps 0 ++ stopSteps 0)).isSome = true)
  refine ⟨s, hs, oneWay_exec ?_ hs, ?_⟩
  · exact of_decide_eq_true (by decide +kernel)
  · have hstate : (Transition.exec (stepWithShutdown {}) (buildWithShutdown {})
        ([.shutdown .registerHook] ++ shutdownSteps 0 ++ stopSteps 0)).map
        (fun s => s.1.shutdownState) = some .stopped := by decide +kernel
    rw [hs] at hstate
    exact Option.some.inj hstate

/-- A second call stores `Draining` again, and runs the hook again. -/
theorem not_oneWay_secondShutdown :
    ¬ ∀ (config : EventBusConfig) (as : List Action) (s : MemoryBus × ShutdownHistory),
      Transition.exec (stepWithShutdown config) (buildWithShutdown config) as = some s →
        OneWay s := by
  intro h
  obtain ⟨s, hs⟩ := Option.isSome_iff_exists.mp
    (by decide +kernel : (Transition.exec (stepWithShutdown {}) (buildWithShutdown {})
      ([.shutdown .registerHook] ++ shutdownSteps 0 ++ stopSteps 0 ++ shutdownSteps 1)).isSome
        = true)
  have hseen : (Transition.exec (stepWithShutdown {}) (buildWithShutdown {})
      ([.shutdown .registerHook] ++ shutdownSteps 0 ++ stopSteps 0 ++ shutdownSteps 1)).map
      (fun s => (s.2.hooks, s.1.log.count (.hooked 0))) = some (some 1, 2) := by decide +kernel
  rw [hs] at hseen
  obtain ⟨hhooks, hcount⟩ := Prod.mk.inj (Option.some.inj hseen)
  have hone := (h {} _ s hs).once 1 hhooks 0 Nat.one_pos
  rw [hcount] at hone
  exact absurd hone (by decide)

end MemoryBus
end TokioEvents
