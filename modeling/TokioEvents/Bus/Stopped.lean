/-
  TokioEvents.Bus.Stopped

  `Stopped`: shutdown complete, all components stopped.  So it is as long as no call
  gives up its wait for the dispatcher: a call that times out, or whose future is dropped
  while it waits for the worker, leaves the dispatcher in its slot or the worker running,
  and the next store of `Stopped` does not ask.
-/

import TokioEvents.Bus.OrderedDelivery
import TokioEvents.Bus.ShutdownOnce

namespace TokioEvents
namespace MemoryBus

/-- The ids of the subscriptions that were made before the first shutdown call. -/
def recordMade (s : MemoryBus) (a : Action) (_ : MemoryBus) (made : List Uuid) : List Uuid :=
  match a with
  | .subscriber (.subscribe _ _ entry) =>
    if s.shutdowns.isEmpty then made ++ [entry.id] else made
  | _ => made

/-- The system with the subscriptions made before its shutdown. -/
def stepWithMade (config : EventBusConfig) :
    MemoryBus × List Uuid → Action → Option (MemoryBus × List Uuid) :=
  Transition.withHistory (step config) recordMade

/-- When the state is `Stopped`, the slot of the dispatcher is empty, the worker has ended,
    and no subscription made before the shutdown is left. -/
def StoppedIsStopped (s : MemoryBus × List Uuid) : Prop :=
  s.1.shutdownState = .stopped →
    s.1.dispatcher = none ∧ s.1.worker.ended = true ∧ ∀ id ∈ s.2, id ∉ s.1.subscriptions

/-- A wait for the dispatcher is given up only when there is nothing to wait for. -/
def WaitsOut (s : MemoryBus × List Uuid) : Action → Prop
  | .shutdown (.timeout _) => s.1.dispatcher = none ∧ s.1.worker.ended = true
  | .shutdown (.drop n) =>
    ∀ call ∈ s.1.shutdowns[n]?, call.phase = .joining → s.1.worker.ended = true
  | _ => True

instance (s : MemoryBus × List Uuid) : (a : Action) → Decidable (WaitsOut s a)
  | .shutdown (.timeout _) => inferInstanceAs (Decidable (_ ∧ _))
  | .shutdown (.drop n) =>
    inferInstanceAs (Decidable (∀ call ∈ s.1.shutdowns[n]?, call.phase = .joining → _))
  | .shutdown .registerHook => isTrue trivial
  | .shutdown (.begin _) => isTrue trivial
  | .shutdown (.advance _) => isTrue trivial
  | .publisher _ => isTrue trivial
  | .worker _ => isTrue trivial
  | .handler _ _ => isTrue trivial
  | .subscriber _ => isTrue trivial

/-! ## How far a call has come -/

/-- What a call has seen done when it is in a phase. -/
def Passed (s : MemoryBus) (made : List Uuid) : ShutdownPhase → Prop
  | .joining => s.dispatcher = none
  | .closing => s.dispatcher = none ∧ s.worker.ended = true
  | .removing ids _ =>
    (s.dispatcher = none ∧ s.worker.ended = true) ∧ ∀ id ∈ made, id ∈ s.subscriptions → id ∈ ids
  | .awaiting _ | .storing | .returned =>
    (s.dispatcher = none ∧ s.worker.ended = true) ∧ ∀ id ∈ made, id ∉ s.subscriptions
  | _ => True

/-- The calls keep what they have seen done. -/
structure Closed (s : MemoryBus) (made : List Uuid) : Prop where
  running : ∀ dispatcher, s.dispatcher = some dispatcher →
    dispatcher.workerHandle = true ∧ s.isRunning = true
  worker : s.dispatcher = none → s.writeLocked = true ∨ s.worker.ended = true
  calls : ∀ call ∈ s.shutdowns, Passed s made call.phase
  stopped : s.shutdownState = .stopped → ∃ call ∈ s.shutdowns, call.phase = .returned
  tasks : ∀ id ∈ made, (s.tasks[id]?).isSome

section Steps

variable {config : EventBusConfig} {s s' : MemoryBus} {made : List Uuid}

theorem closed_build : (build config).Closed [] := by
  constructor <;> simp [build]

/-- Nothing that was done is undone. -/
structure Kept (s s' : MemoryBus) (made : List Uuid) : Prop where
  dispatcher : s.dispatcher = none → s'.dispatcher = none
  ended : s.worker.ended = true → s'.worker.ended = true
  subscriptions : ∀ id ∈ made, id ∈ s'.subscriptions → id ∈ s.subscriptions

theorem kept_step {a : Action} (h : step config s a = some s')
    (htasks : ∀ id ∈ made, (s.tasks[id]?).isSome) : Kept s s' made where
  dispatcher hnone := by
    by_cases hshutdown : ∃ b, a = .shutdown b
    · obtain ⟨b, rfl⟩ := hshutdown
      cases stepShutdown_cases h <;> first | rfl | exact hnone
    · rw [(of_not_shutdown h fun b hb => hshutdown ⟨b, hb⟩).2.2.2.1]
      exact hnone
  ended := ended_step h
  subscriptions id hid hsub := by
    rcases mem_subscriptions_step h hsub with hold | ⟨_, _, _, -, -, hfresh⟩
    · exact hold
    · simpa [hfresh] using htasks id hid

theorem Passed.mono {phase : ShutdownPhase} (h : Passed s made phase) (hkept : Kept s s' made) :
    Passed s' made phase := by
  have hboth : s.dispatcher = none ∧ s.worker.ended = true →
      s'.dispatcher = none ∧ s'.worker.ended = true :=
    fun h => ⟨hkept.dispatcher h.1, hkept.ended h.2⟩
  have hgone : (∀ id ∈ made, id ∉ s.subscriptions) → ∀ id ∈ made, id ∉ s'.subscriptions :=
    fun h id hid hsub => h id hid (hkept.subscriptions id hid hsub)
  cases phase with
  | joining => exact hkept.dispatcher h
  | closing => exact hboth h
  | removing ids handles =>
    exact ⟨hboth h.1, fun id hid hsub => h.2 id hid (hkept.subscriptions id hid hsub)⟩
  | awaiting handles => exact ⟨hboth h.1, hgone h.2⟩
  | storing => exact ⟨hboth h.1, hgone h.2⟩
  | returned => exact ⟨hboth h.1, hgone h.2⟩
  | _ => trivial

/-- While a call goes on, another one that joins goes on joining. -/
theorem writeLocked_set {n : Nat} {call call' : ShutdownCall} (hcall : s.shutdowns[n]? = some call)
    (hphase : call.phase ≠ .joining) (hshutdowns : s'.shutdowns = s.shutdowns.set n call')
    (h : s.writeLocked = true) : s'.writeLocked = true := by
  obtain ⟨other, hother, hjoining⟩ := List.any_eq_true.mp h
  obtain ⟨m, hm⟩ := List.mem_iff_getElem?.mp hother
  have hne : n ≠ m := by
    rintro rfl
    cases hcall.symm.trans hm
    exact hphase (by simpa using hjoining)
  refine List.any_eq_true.mpr ⟨other, ?_, hjoining⟩
  rw [hshutdowns]
  exact List.mem_iff_getElem?.mpr ⟨m, (List.getElem?_set_ne hne).trans hm⟩

/-- A call that has returned stays so. -/
theorem returned_set {n : Nat} {call call' : ShutdownCall} (hcall : s.shutdowns[n]? = some call)
    (hphase : call.phase ≠ .returned) (h : ∃ call ∈ s.shutdowns, call.phase = .returned) :
    ∃ call ∈ s.shutdowns.set n call', call.phase = .returned := by
  obtain ⟨other, hother, hreturned⟩ := h
  obtain ⟨m, hm⟩ := List.mem_iff_getElem?.mp hother
  have hne : n ≠ m := by
    rintro rfl
    cases hcall.symm.trans hm
    exact hphase hreturned
  exact ⟨other, List.mem_iff_getElem?.mpr ⟨m, (List.getElem?_set_ne hne).trans hm⟩, hreturned⟩

/-- The calls after a step of one of them. -/
theorem Closed.calls_set (h : s.Closed made) (hkept : Kept s s' made) {n : Nat}
    {call : ShutdownCall} (hshutdowns : s'.shutdowns = s.shutdowns.set n call)
    (hpassed : Passed s' made call.phase) : ∀ call ∈ s'.shutdowns, Passed s' made call.phase := by
  intro other hother
  rw [hshutdowns] at hother
  rcases List.mem_or_eq_of_mem_set hother with hold | rfl
  · exact (h.calls other hold).mono hkept
  · exact hpassed

/-- A call goes on, and the slot of the dispatcher stays as it is. -/
theorem Closed.go (h : s.Closed made) (hkept : Kept s s' made)
    (htasks : ∀ id : Uuid, (s.tasks[id]?).isSome → (s'.tasks[id]?).isSome) {n : Nat}
    {call : ShutdownCall} {phase : ShutdownPhase} (hcall : s.shutdowns[n]? = some call)
    (hjoining : call.phase = .joining → s.worker.ended = true) (hreturned : call.phase ≠ .returned)
    (hshutdowns : s'.shutdowns = s.shutdowns.set n { call with phase := phase })
    (hpassed : Passed s' made phase) (hdispatcher : s'.dispatcher = s.dispatcher)
    (hrunning : s.dispatcher = none ∨ s'.isRunning = s.isRunning)
    (hstate : s'.shutdownState = s.shutdownState ∨ phase = .returned) : s'.Closed made where
  running dispatcher hd := by
    rw [hdispatcher] at hd
    rcases hrunning with hnone | hsame
    · rw [hnone] at hd
      cases hd
    · rw [hsame]
      exact h.running dispatcher hd
  worker hnone := by
    rcases h.worker (hdispatcher ▸ hnone) with hlocked | hended
    · by_cases hphase : call.phase = .joining
      · exact .inr (hkept.ended (hjoining hphase))
      · exact .inl (writeLocked_set hcall hphase hshutdowns hlocked)
    · exact .inr (hkept.ended hended)
  calls := h.calls_set hkept hshutdowns hpassed
  stopped hstopped := by
    rw [hshutdowns]
    rcases hstate with hsame | rfl
    · exact returned_set hcall hreturned (h.stopped (hsame ▸ hstopped))
    · have hlt : n < s.shutdowns.length := (List.getElem?_eq_some_iff.mp hcall).1
      exact ⟨_, List.mem_set hlt _, rfl⟩
  tasks id hid := htasks id (h.tasks id hid)

theorem ShutdownStep.closed {a : ShutdownAction} (hstep : ShutdownStep s a s') (hs : s.Closed made)
    (hC : WaitsOut (s, made) (.shutdown a)) (hkept : Kept s s' made)
    (htasks : ∀ id : Uuid, (s.tasks[id]?).isSome → (s'.tasks[id]?).isSome) : s'.Closed made := by
  have hmem : ∀ {n : Nat} {call : ShutdownCall}, s.shutdowns[n]? = some call →
      Passed s made call.phase :=
    fun hcall => hs.calls _ (List.mem_of_getElem? hcall)
  cases hstep with
  | registerHook hfree =>
    exact ⟨hs.running, hs.worker, fun call hcall => (hs.calls call hcall).mono hkept,
      hs.stopped, hs.tasks⟩
  | begin graceful =>
    refine ⟨hs.running, fun hnone => ?_, fun call hcall => ?_,
      (fun h => nomatch h), hs.tasks⟩
    · exact (hs.worker hnone).imp_left fun h => by
        show (s.shutdowns ++ [_]).any _ = true
        rw [List.any_append]
        exact (congrArg (· || _) h).trans (Bool.true_or _)
    · rcases List.mem_append.mp hcall with hold | hnew
      · exact (hs.calls call hold).mono hkept
      · rw [List.mem_singleton.mp hnew]
        trivial
  | lockHooks hcall hphase =>
    exact hs.go hkept htasks hcall (by simp [hphase]) (by simp [hphase]) rfl trivial rfl
      (.inr rfl) (.inl rfl)
  | runHook hcall hphase =>
    exact hs.go hkept htasks hcall (by simp [hphase]) (by simp [hphase]) rfl trivial rfl
      (.inr rfl) (.inl rfl)
  | releaseHooks hcall hphase =>
    exact hs.go hkept htasks hcall (by simp [hphase]) (by simp [hphase]) rfl trivial rfl
      (.inr rfl) (.inl rfl)
  | noDispatcher hcall hphase hread hwrite hnone =>
    have hended : s.worker.ended = true :=
      (hs.worker hnone).resolve_left (by simp [hwrite])
    exact hs.go hkept htasks hcall (by simp [hphase]) (by simp [hphase]) rfl ⟨hnone, hended⟩ rfl
      (.inr rfl) (.inl rfl)
  | @takeDispatcher n call dispatcher isRunning hcall hphase hread hwrite hdispatcher =>
    have hlt : n < s.shutdowns.length := (List.getElem?_eq_some_iff.mp hcall).1
    refine ⟨(fun d hd => nomatch hd), fun _ => .inl ?_, hs.calls_set hkept rfl rfl, fun h => ?_,
      hs.tasks⟩
    · exact List.any_eq_true.mpr ⟨_, List.mem_set hlt _, by simp⟩
    · exact returned_set hcall (by simp [hphase]) (hs.stopped h)
  | skipJoin hcall hphase hread hwrite hdispatcher hskip =>
    -- the dispatcher in the slot was started and has not been stopped
    obtain ⟨hhandle, hrunning⟩ := hs.running _ hdispatcher
    simp [hhandle, hrunning] at hskip
  | join hcall hphase hended =>
    have hnone : s.dispatcher = none := by
      have := hmem hcall
      rwa [hphase] at this
    exact hs.go hkept htasks hcall (fun _ => hended) (by simp [hphase]) rfl ⟨hnone, hended⟩ rfl
      (.inl hnone) (.inl rfl)
  | collect hcall hphase =>
    have hpassed := hmem hcall
    rw [hphase] at hpassed
    exact hs.go hkept htasks hcall (by simp [hphase]) (by simp [hphase]) rfl
      ⟨hpassed, fun _ _ hsub => hsub⟩ rfl (.inr rfl) (.inl rfl)
  | abortAll hcall hphase =>
    have hpassed := hmem hcall
    rw [hphase] at hpassed
    exact hs.go hkept htasks hcall (by simp [hphase]) (by simp [hphase]) rfl
      ⟨hpassed, fun _ _ => List.not_mem_nil⟩ rfl (.inr rfl) (.inl rfl)
  | @remove n call id ids handles hcall hphase hid =>
    have hpassed := hmem hcall
    rw [hphase] at hpassed
    refine hs.go hkept htasks hcall (by simp [hphase]) (by simp [hphase]) rfl
      ⟨hpassed.1, fun i hi hsub => ?_⟩ rfl (.inr rfl) (.inl rfl)
    obtain ⟨hold, hne⟩ := List.mem_filter.mp hsub
    exact List.mem_of_ne_of_mem (by simpa using hne) (hpassed.2 i hi hold)
  | @skip n call id ids handles hcall hphase hid =>
    have hpassed := hmem hcall
    rw [hphase] at hpassed
    refine hs.go hkept htasks hcall (by simp [hphase]) (by simp [hphase]) rfl
      ⟨hpassed.1, fun i hi hsub => ?_⟩ rfl (.inr rfl) (.inl rfl)
    refine List.mem_of_ne_of_mem ?_ (hpassed.2 i hi hsub)
    rintro rfl
    exact hid hsub
  | await hcall hphase =>
    have hpassed := hmem hcall
    rw [hphase] at hpassed
    exact hs.go hkept htasks hcall (by simp [hphase]) (by simp [hphase]) rfl
      ⟨hpassed.1, fun i hi hsub => List.not_mem_nil (hpassed.2 i hi hsub)⟩ rfl (.inr rfl) (.inl rfl)
  | joinTask hcall hphase =>
    have hpassed := hmem hcall
    rw [hphase] at hpassed
    exact hs.go hkept htasks hcall (by simp [hphase]) (by simp [hphase]) rfl hpassed rfl
      (.inr rfl) (.inl rfl)
  | joinedAll hcall hphase =>
    have hpassed := hmem hcall
    rw [hphase] at hpassed
    exact hs.go hkept htasks hcall (by simp [hphase]) (by simp [hphase]) rfl hpassed rfl
      (.inr rfl) (.inl rfl)
  | store hcall hphase =>
    have hpassed := hmem hcall
    rw [hphase] at hpassed
    exact hs.go hkept htasks hcall (by simp [hphase]) (by simp [hphase]) rfl hpassed rfl
      (.inr rfl) (.inr rfl)
  | timeout hcall hgraceful hphase =>
    obtain ⟨hnone, hended⟩ := hC
    exact hs.go hkept htasks hcall (fun _ => hended) (by rcases hphase with h | h <;> simp [h]) rfl
      ⟨hnone, hended⟩ rfl (.inr rfl) (.inl rfl)
  | drop hcall hphase =>
    refine hs.go hkept htasks hcall (hC _ hcall) (fun h => ?_) rfl trivial rfl (.inr rfl) (.inl rfl)
    rw [h] at hphase
    cases hphase

/-! ## Every run -/

theorem Closed.step {s s' : MemoryBus × List Uuid} {a : Action} (hs : s.1.Closed s.2)
    (hC : WaitsOut s a) (h : stepWithMade config s a = some s') : s'.1.Closed s'.2 := by
  obtain ⟨hstep, hrecord⟩ := Transition.withHistory_eq_some.mp h
  have htasks : ∀ id : Uuid, (s.1.tasks[id]?).isSome → (s'.1.tasks[id]?).isSome :=
    fun id hid => isSome_task_step hstep hid
  have hkept := kept_step hstep hs.tasks
  by_cases hshutdown : ∃ b, a = .shutdown b
  · obtain ⟨b, rfl⟩ := hshutdown
    have hmade : s'.2 = s.2 := hrecord
    rw [hmade]
    exact (stepShutdown_cases hstep).closed hs hC hkept htasks
  · obtain ⟨hshutdowns, hstate, -, hdispatcher, hrunning⟩ :=
      of_not_shutdown hstep fun b hb => hshutdown ⟨b, hb⟩
    have hlocked : s'.1.writeLocked = s.1.writeLocked := by
      rw [writeLocked, hshutdowns, writeLocked]
    have hsame : s'.1.Closed s.2 := by
      refine ⟨fun d hd => ?_, fun hnone => ?_, fun call hcall => ?_, fun h => ?_,
        fun id hid => htasks id (hs.tasks id hid)⟩
      · rw [hrunning]
        exact hs.running d (hdispatcher ▸ hd)
      · rw [hlocked]
        exact (hs.worker (hdispatcher ▸ hnone)).imp_right hkept.ended
      · exact (hs.calls call (hshutdowns ▸ hcall)).mono hkept
      · rw [hshutdowns]
        exact hs.stopped (hstate ▸ h)
    by_cases hmade : s'.2 = s.2
    · rw [hmade]
      exact hsame
    · -- a subscription is made before the first call
      cases a with
      | subscriber b =>
        cases b with
        | subscribe eventType typeName entry =>
          have hmade' : s'.2 = if s.1.shutdowns.isEmpty then s.2 ++ [entry.id] else s.2 := hrecord
          split at hmade'
          · rename_i hempty
            have hnone : s'.1.shutdowns = [] := hshutdowns.trans (List.isEmpty_iff.mp hempty)
            refine ⟨hsame.running, hsame.worker, by simp [hnone], hsame.stopped, ?_⟩
            intro id hid
            rw [hmade'] at hid
            rcases List.mem_append.mp hid with hold | hnew
            · exact hsame.tasks id hold
            · obtain rfl := List.mem_singleton.mp hnew
              exact isSome_task_subscribe hstep
          · exact absurd hmade' hmade
        | _ => exact absurd hrecord hmade
      | shutdown b => exact absurd ⟨b, rfl⟩ hshutdown
      | _ => exact absurd hrecord hmade

theorem Closed.stoppedIsStopped {s : MemoryBus × List Uuid} (h : s.1.Closed s.2) :
    StoppedIsStopped s := by
  intro hstopped
  obtain ⟨call, hcall, hreturned⟩ := h.stopped hstopped
  have hpassed := h.calls call hcall
  rw [hreturned] at hpassed
  exact ⟨hpassed.1.1, hpassed.1.2, hpassed.2⟩

/-- **Stopped is stopped.** In every run in which the calls wait for the dispatcher. -/
theorem stoppedIsStopped_exec {s : MemoryBus × List Uuid} {as : List Action}
    (hC : Transition.Along (stepWithMade config) WaitsOut (build config, []) as)
    (hexec : Transition.exec (stepWithMade config) (build config, []) as = some s) :
    StoppedIsStopped s :=
  (Transition.invariant_along (I := fun s : MemoryBus × List Uuid => s.1.Closed s.2)
    (fun _ _ _ h hC hstep => h.step hC hstep) closed_build hC hexec).stoppedIsStopped

/-- A graceful shutdown of a bus with subscription 10 and a hook. -/
def subscribedShutdown : List Action :=
  [.subscriber (.subscribe 1 "OrderEvent" { id := 10 }), .shutdown .registerHook]
    ++ shutdownSteps 0 ++ [.worker .recv] ++ .replicate 4 (.shutdown (.advance 0))
    ++ [.handler 10 .closed] ++ .replicate 3 (.shutdown (.advance 0))

theorem stoppedIsStopped_gracefulShutdown :
    ∃ s, Transition.exec (stepWithMade {}) (build {}, []) subscribedShutdown = some s ∧
      StoppedIsStopped s ∧ s.1.shutdownState = .stopped ∧ s.2 = [10] := by
  obtain ⟨s, hs⟩ := Option.isSome_iff_exists.mp
    (by decide +kernel :
      (Transition.exec (stepWithMade {}) (build {}, []) subscribedShutdown).isSome = true)
  refine ⟨s, hs, stoppedIsStopped_exec (of_decide_eq_true (by decide +kernel)) hs, ?_⟩
  have hstate : (Transition.exec (stepWithMade {}) (build {}, []) subscribedShutdown).map
      (fun s => (s.1.shutdownState, s.2)) = some (.stopped, [10]) := by decide +kernel
  rw [hs] at hstate
  exact Prod.mk.inj (Option.some.inj hstate)

/-- The handler of subscription 10 is busy, its channel of one place is full, and the worker
    waits for room; an abrupt shutdown does not wait for the worker to the end. -/
def impatientShutdown : List Action :=
  [.subscriber (.subscribe 1 "OrderEvent" { id := 10 })] ++ publishSteps 0 (order 7)
    ++ publishSteps 1 (order 8) ++ publishSteps 2 (order 9)
    ++ dispatchSteps [10] ++ [.worker .finish, .handler 10 .recv]
    ++ dispatchSteps [10] ++ [.worker .finish] ++ dispatchSteps []
    ++ [.shutdown (.begin false), .shutdown (.advance 0), .shutdown (.advance 0),
      .shutdown (.advance 0), .shutdown (.timeout 0), .shutdown (.advance 0),
      .shutdown (.advance 0)]

theorem not_stoppedIsStopped_impatientShutdown :
    ¬ ∀ (config : EventBusConfig) (as : List Action) (s : MemoryBus × List Uuid),
      Transition.exec (stepWithMade config) (build config, []) as = some s →
        StoppedIsStopped s := by
  intro h
  obtain ⟨s, hs⟩ := Option.isSome_iff_exists.mp
    (by decide +kernel : (Transition.exec (stepWithMade { handlerChannelSize := 1 })
      (build { handlerChannelSize := 1 }, []) impatientShutdown).isSome = true)
  have hseen : (Transition.exec (stepWithMade { handlerChannelSize := 1 })
      (build { handlerChannelSize := 1 }, []) impatientShutdown).map
      (fun s => (s.1.shutdownState, s.1.worker.ended)) = some (.stopped, false) := by
    decide +kernel
  rw [hs] at hseen
  obtain ⟨hstopped, hrunning⟩ := Prod.mk.inj (Option.some.inj hseen)
  have hended := (h _ _ s hs hstopped).2.1
  rw [hrunning] at hended
  cases hended

end Steps
end MemoryBus
end TokioEvents
