/-
  TokioEvents.Bus.Invariant

  What holds of the bus in every run: the registry is well formed, and an event is in
  one place, under a name of its own, from the publish call to the dispatcher queue.
-/

import TokioEvents.Bus.Journal
import TokioEvents.Subscription.Routing

namespace TokioEvents
namespace MemoryBus

open DashMapRegistry

/-! ## The registry -/

/-- The registry is well formed, and every id it has seen belongs to a task. -/
def Registered (s : MemoryBus) : Prop :=
  ∃ used, Wf s.registry used ∧ ∀ id ∈ used, (s.tasks[id]?).isSome

section Registry

variable {config : EventBusConfig} {s s' : MemoryBus}

theorem registered_build : (build config).Registered := ⟨[], wf_new, by simp⟩

/-- Tasks are never forgotten. -/
theorem isSome_task_step {a : Action} (h : step config s a = some s') {id : Uuid}
    (hid : (s.tasks[id]?).isSome) : (s'.tasks[id]?).isSome := by
  have hjournal : ∀ s : MemoryBus, (s.tasks[id]?).isSome = (s.journal id).task.isSome := by
    intro s
    rw [journal, Option.isSome_map]
  rw [hjournal] at hid ⊢
  exact (journal_step h id).isSome_task hid

theorem Registered.of_wf (h : ∀ used, Wf s.registry used → (∀ id ∈ used, (s.tasks[id]?).isSome) →
    Wf s'.registry used) {a : Action} (hstep : step config s a = some s') (hs : s.Registered) :
    s'.Registered := by
  obtain ⟨used, hwf, hused⟩ := hs
  exact ⟨used, h used hwf hused, fun id hid => isSome_task_step hstep (hused id hid)⟩

theorem PublisherStep.registry_eq (h : PublisherStep config s s') : s'.registry = s.registry := by
  obtain ⟨_, _, _, _, rfl⟩ := h.frame
  rfl

theorem WorkerStep.registry_eq {a : WorkerAction} (h : WorkerStep config s a s') :
    s'.registry = s.registry := by
  obtain ⟨_, _, _, _, rfl⟩ := h.frame
  rfl

theorem HandlerStep.wf {id : Uuid} {task : HandlerTask} {a : HandlerAction} {used : List Uuid}
    (h : HandlerStep config s id task a s') (hwf : Wf s.registry used) :
    Wf s'.registry used := by
  cases h with
  | ack => exact hwf.incrementProcessed id
  | _ => exact hwf

theorem ShutdownStep.wf {a : ShutdownAction} {used : List Uuid} (h : ShutdownStep s a s')
    (hwf : Wf s.registry used) : Wf s'.registry used := by
  cases h with
  | abortAll => exact hwf.clear
  | remove => exact hwf.unregister _
  | _ => exact hwf

/-- **The registry stays well formed.** -/
theorem Registered.step {a : Action} (hs : s.Registered) (h : step config s a = some s') :
    s'.Registered := by
  have hkeep : (∀ used, Wf s.registry used → (∀ id ∈ used, (s.tasks[id]?).isSome) →
      Wf s'.registry used) → s'.Registered := fun hwf => .of_wf hwf h hs
  cases a with
  | publisher a =>
    exact hkeep fun used hwf _ => (stepPublisher_cases h).registry_eq ▸ hwf
  | worker a => exact hkeep fun used hwf _ => (stepWorker_cases h).registry_eq ▸ hwf
  | handler id a =>
    obtain ⟨task, -, hstep⟩ := stepHandler_cases h
    exact hkeep fun used hwf _ => hstep.wf hwf
  | subscriber a =>
    cases stepSubscriber_cases h with
    | @subscribe eventType typeName entry hfresh =>
      obtain ⟨used, hwf, hused⟩ := hs
      have hnew : entry.id ∉ used := by
        intro hid
        simpa [hfresh] using hused _ hid
      refine ⟨_, hwf.register hnew, fun id hid => ?_⟩
      rcases List.mem_append.mp hid with hold | hid
      · exact isSome_task_step h (hused id hold)
      · rw [List.mem_singleton.mp hid]
        simp [setTask]
    | unregister => exact hkeep fun used hwf _ => hwf.unregister _
    | unsubscribe hid =>
      exact hkeep fun used hwf _ => (registry_abort _ _).symm ▸ hwf.unregister _
    | autoUnsubscribe hunsubs hid =>
      exact hkeep fun used hwf _ => (registry_abort _ _).symm ▸ hwf.unregister _
    | _ => exact hkeep fun used hwf _ => hwf
  | shutdown a => exact hkeep fun used hwf _ => (stepShutdown_cases h).wf hwf

theorem registered_exec {as : List Action} (hexec : exec config (build config) as = some s) :
    s.Registered :=
  Transition.invariant (fun _ _ _ h hstep => h.step hstep) registered_build hexec

theorem Registered.nodup_senders (h : s.Registered) (envelope : EventEnvelope) :
    (s.senders envelope).Nodup := by
  obtain ⟨used, hwf, -⟩ := h
  exact SubscriptionManager.nodup_sendersOf hwf _

end Registry

/-! ## The names of events -/

section Frames

variable {config : EventBusConfig} {s s' : MemoryBus}

theorem entered_of_log {observations : Log} (hlog : s'.log = s.log ++ observations)
    (h : ∀ o ∈ observations, o.enters = none) : s'.entered = s.entered := by
  rw [entered, hlog, List.filterMap_append, List.filterMap_eq_nil_iff.mpr h, List.append_nil,
    entered]

/-- Only publishers and the tasks of scheduled events put events into the queue. -/
theorem of_not_publisher {a : Action} (h : step config s a = some s')
    (ha : ∀ b, a ≠ .publisher b) :
    s'.entered = s.entered ∧ s'.sleepers = s.sleepers ∧ s'.calls = s.calls := by
  cases a with
  | publisher b => exact absurd rfl (ha b)
  | worker b =>
    have hstep := stepWorker_cases h
    obtain ⟨os, hlog, hos⟩ := hstep.log
    have hentered : s'.entered = s.entered := entered_of_log hlog fun o ho => by
      rcases hos o ho with ⟨_, _, rfl⟩ | ⟨_, rfl⟩ | ⟨_, _, rfl⟩ <;> rfl
    obtain ⟨_, _, _, _, rfl⟩ := hstep.frame
    exact ⟨hentered, rfl, rfl⟩
  | handler id b =>
    obtain ⟨task, -, hstep⟩ := stepHandler_cases h
    obtain ⟨es, hlog, -⟩ := hstep.log
    have hentered : s'.entered = s.entered := entered_of_log hlog fun o ho => by
      obtain ⟨_, -, rfl⟩ := List.mem_map.mp ho
      rfl
    obtain ⟨_, _, _, _, _, rfl⟩ := hstep.frame
    exact ⟨hentered, rfl, rfl⟩
  | subscriber b =>
    have hstep := stepSubscriber_cases h
    refine ⟨entered_of_log (hstep.log_eq.trans (List.append_nil _).symm) (by simp), ?_⟩
    obtain ⟨_, _, _, _, _, rfl⟩ := hstep.frame
    exact ⟨rfl, rfl⟩
  | shutdown b =>
    have hstep := stepShutdown_cases h
    obtain ⟨hooks, hlog⟩ := hstep.log
    have hentered : s'.entered = s.entered := entered_of_log hlog fun o ho => by
      obtain ⟨_, -, rfl⟩ := List.mem_map.mp ho
      rfl
    obtain ⟨_, _, _, _, _, _, _, _, _, rfl⟩ := hstep.frame
    exact ⟨hentered, rfl, rfl⟩

/-- Only shutdown calls change the shutdown state, the slot of the dispatcher and
    `is_running`. -/
theorem of_not_shutdown {a : Action} (h : step config s a = some s')
    (ha : ∀ b, a ≠ .shutdown b) :
    s'.shutdowns = s.shutdowns ∧ s'.shutdownState = s.shutdownState ∧ s'.hooks = s.hooks ∧
      s'.dispatcher = s.dispatcher ∧ s'.isRunning = s.isRunning := by
  cases a with
  | publisher b =>
    obtain ⟨_, _, _, _, rfl⟩ := (stepPublisher_cases h).frame
    exact ⟨rfl, rfl, rfl, rfl, rfl⟩
  | worker b =>
    obtain ⟨_, _, _, _, rfl⟩ := (stepWorker_cases h).frame
    exact ⟨rfl, rfl, rfl, rfl, rfl⟩
  | handler id b =>
    obtain ⟨task, -, hstep⟩ := stepHandler_cases h
    obtain ⟨_, _, _, _, _, rfl⟩ := hstep.frame
    exact ⟨rfl, rfl, rfl, rfl, rfl⟩
  | subscriber b =>
    obtain ⟨_, _, _, _, _, rfl⟩ := (stepSubscriber_cases h).frame
    exact ⟨rfl, rfl, rfl, rfl, rfl⟩
  | shutdown b => exact absurd rfl (ha b)

/-- Publishers fill the queue, and the worker takes from it. -/
theorem queue_of_other {a : Action} (h : step config s a = some s') (ha : ∀ b, a ≠ .publisher b)
    (hb : ∀ b, a ≠ .worker b) : s'.queue = s.queue := by
  cases a with
  | publisher b => exact absurd rfl (ha b)
  | worker b => exact absurd rfl (hb b)
  | handler id b =>
    obtain ⟨task, -, hstep⟩ := stepHandler_cases h
    obtain ⟨_, _, _, _, _, rfl⟩ := hstep.frame
    rfl
  | subscriber b =>
    obtain ⟨_, _, _, _, _, rfl⟩ := (stepSubscriber_cases h).frame
    rfl
  | shutdown b =>
    obtain ⟨_, _, _, _, _, _, _, _, _, rfl⟩ := (stepShutdown_cases h).frame
    rfl

/-- Only the worker goes on itself. -/
theorem worker_of_not_worker {a : Action} (h : step config s a = some s')
    (ha : ∀ b, a ≠ .worker b) : s'.worker = s.worker := by
  cases a with
  | publisher b =>
    obtain ⟨_, _, _, _, rfl⟩ := (stepPublisher_cases h).frame
    rfl
  | worker b => exact absurd rfl (ha b)
  | handler id b =>
    obtain ⟨task, -, hstep⟩ := stepHandler_cases h
    obtain ⟨_, _, _, _, _, rfl⟩ := hstep.frame
    rfl
  | subscriber b =>
    obtain ⟨_, _, _, _, _, rfl⟩ := (stepSubscriber_cases h).frame
    rfl
  | shutdown b =>
    obtain ⟨_, _, _, _, _, _, _, _, _, rfl⟩ := (stepShutdown_cases h).frame
    rfl

/-- A worker that has ended stays so. -/
theorem ended_step {a : Action} (h : step config s a = some s') (hended : s.worker.ended = true) :
    s'.worker.ended = true := by
  by_cases hworker : ∃ b, a = .worker b
  · obtain ⟨b, rfl⟩ := hworker
    cases stepWorker_cases h with
    | recv hphase => simp [hphase, DispatchWorker.ended] at hended
    | drained => rfl
    | select hphase => simp [hphase, DispatchWorker.ended] at hended
    | halt => rfl
    | push hphase => simp [hphase, DispatchWorker.ended] at hended
    | miss hphase => simp [hphase, DispatchWorker.ended] at hended
    | finish hphase => simp [hphase, DispatchWorker.ended] at hended
    | timeout hphase => simp [hphase, DispatchWorker.ended] at hended
    | panic => rfl
  · rw [worker_of_not_worker h fun b hb => hworker ⟨b, hb⟩]
    exact hended

/-- The subscriptions of a step: only `subscribe` adds one, and it has a fresh task. -/
theorem mem_subscriptions_step {a : Action} (h : step config s a = some s') {id : Uuid}
    (hid : id ∈ s'.subscriptions) :
    id ∈ s.subscriptions ∨
      (∃ eventType typeName entry, a = .subscriber (.subscribe eventType typeName entry) ∧
        entry.id = id ∧ s.tasks[id]? = none) := by
  have hfilter : ∀ removed, id ∈ s.subscriptions.filter (· != removed) → id ∈ s.subscriptions :=
    fun removed hmem => (List.mem_filter.mp hmem).1
  cases a with
  | publisher b =>
    obtain ⟨_, _, _, _, rfl⟩ := (stepPublisher_cases h).frame
    exact .inl hid
  | worker b =>
    obtain ⟨_, _, _, _, rfl⟩ := (stepWorker_cases h).frame
    exact .inl hid
  | handler i b =>
    obtain ⟨task, -, hstep⟩ := stepHandler_cases h
    obtain ⟨_, _, _, _, _, rfl⟩ := hstep.frame
    exact .inl hid
  | subscriber b =>
    cases stepSubscriber_cases h with
    | @subscribe eventType typeName entry hfresh =>
      rcases List.mem_append.mp hid with hold | hnew
      · exact .inl hold
      · obtain rfl := List.mem_singleton.mp hnew
        exact .inr ⟨eventType, typeName, entry, rfl, rfl, hfresh⟩
    | unsubscribe =>
      rw [subscriptions_abort] at hid
      exact .inl (hfilter _ hid)
    | autoUnsubscribe =>
      rw [subscriptions_abort] at hid
      exact .inl (hfilter _ hid)
    | _ => exact .inl hid
  | shutdown b =>
    cases stepShutdown_cases h with
    | abortAll => cases hid
    | remove => exact .inl (hfilter _ hid)
    | _ => exact .inl hid

theorem isSome_task_subscribe {eventType : TypeId} {typeName : String} {entry : SubscriptionEntry}
    (h : step config s (.subscriber (.subscribe eventType typeName entry)) = some s') :
    (s'.tasks[entry.id]?).isSome := by
  cases stepSubscriber_cases (a := .subscribe eventType typeName entry) h with
  | subscribe => simp [setTask]

/-- Every subscription has a task. -/
def Subscribed (s : MemoryBus) : Prop := ∀ id ∈ s.subscriptions, (s.tasks[id]?).isSome

theorem Subscribed.step {a : Action} (hs : s.Subscribed) (h : step config s a = some s') :
    s'.Subscribed := by
  intro id hid
  rcases mem_subscriptions_step h hid with hold | ⟨eventType, typeName, entry, rfl, rfl, -⟩
  · exact isSome_task_step h (hs id hold)
  · exact isSome_task_subscribe h

/-- The state is stored by a call that begins and by one that is about to return. -/
theorem ShutdownStep.state_cases {a : ShutdownAction} (h : ShutdownStep s a s') :
    s'.shutdownState = s.shutdownState ∨ (∃ graceful, a = .begin graceful) ∨
      (s'.shutdownState = .stopped ∧ ∃ n call, s.shutdowns[n]? = some call ∧
        call.phase = .storing ∧ s'.shutdowns = s.shutdowns.set n { call with phase := .returned })
    := by
  cases h with
  | begin graceful => exact .inr (.inl ⟨graceful, rfl⟩)
  | @store n call hcall hphase => exact .inr (.inr ⟨rfl, n, call, hcall, hphase, rfl⟩)
  | _ => exact .inl rfl

end Frames

/-- The events that have left their publish call, in the tasks of scheduled events or in
    the queue: each has its own name, and no call that is still pending has left one. -/
structure Named (s : MemoryBus) : Prop where
  nodup : (s.entered ++ s.sleepers.map (·.addr)).Nodup
  returned : ∀ n ∈ s.entered ++ s.sleepers.map (·.addr), ∃ call, s.calls[n]? = some call ∧
    call.pending = false

section Names

variable {config : EventBusConfig} {s s' : MemoryBus}

theorem named_build : (build config).Named := by
  constructor <;> simp [build, entered]

theorem Named.of_perm (h : s.Named) (hcalls : s'.calls = s.calls)
    (hperm : (s'.entered ++ s'.sleepers.map (·.addr)).Perm
      (s.entered ++ s.sleepers.map (·.addr))) : s'.Named where
  nodup := hperm.nodup_iff.mpr h.nodup
  returned n hn := hcalls ▸ h.returned n (hperm.mem_iff.mp hn)

/-- A call that has not left an event goes on without leaving one. -/
theorem Named.setCall (h : s.Named) {n : Nat} {call : PublishCall} {phase : PublishPhase}
    (hcall : s.calls[n]? = some call) (hpending : call.pending = true) :
    (s.setCall n call phase).Named where
  nodup := h.nodup
  returned m hm := by
    obtain ⟨other, hother, hreturned⟩ := h.returned m hm
    have hne : n ≠ m := by
      rintro rfl
      cases hcall.symm.trans hother
      exact Bool.false_ne_true (hreturned.symm.trans hpending)
    exact ⟨other, by rwa [MemoryBus.setCall, List.getElem?_set_ne hne], hreturned⟩

/-- A pending call leaves its event and returns. -/
theorem Named.leave (h : s.Named) {n : Nat} {call : PublishCall} {result : PublishResult}
    (hcall : s.calls[n]? = some call) (hpending : call.pending = true)
    (hcalls : s'.calls = s.calls.set n { call with phase := .returned result })
    (hperm : (s'.entered ++ s'.sleepers.map (·.addr)).Perm
      (n :: (s.entered ++ s.sleepers.map (·.addr)))) : s'.Named := by
  have hnew : n ∉ s.entered ++ s.sleepers.map (·.addr) := by
    intro hn
    obtain ⟨other, hother, hreturned⟩ := h.returned n hn
    cases hcall.symm.trans hother
    exact Bool.false_ne_true (hreturned.symm.trans hpending)
  have hmoved : (s.setCall n call (.returned result)).Named := h.setCall hcall hpending
  constructor
  · exact hperm.nodup_iff.mpr (List.nodup_cons.mpr ⟨hnew, h.nodup⟩)
  · intro m hm
    rw [hcalls]
    rcases List.mem_cons.mp (hperm.mem_iff.mp hm) with rfl | hold
    · have hlt : m < s.calls.length := (List.getElem?_eq_some_iff.mp hcall).1
      exact ⟨_, List.getElem?_set_self hlt, rfl⟩
    · exact hmoved.returned m hold

theorem entered_observe_entered (n : Nat) :
    (s.observe (.entered n)).entered = s.entered ++ [n] := by
  simp [entered, observe, Observation.enters]

theorem PublisherStep.named (h : PublisherStep config s s') (hs : s.Named) : s'.Named := by
  cases h with
  | publish envelope nonBlocking =>
    refine ⟨hs.nodup, fun n hn => ?_⟩
    obtain ⟨call, hcall, hreturned⟩ := hs.returned n hn
    obtain ⟨hlt, -⟩ := List.getElem?_eq_some_iff.mp hcall
    exact ⟨call, (List.getElem?_append_left hlt).trans hcall, hreturned⟩
  | acquire hcall hphase => exact hs.setCall hcall (by simp [PublishCall.pending, hphase])
  | refuse hcall hguarded => exact hs.setCall hcall (pending_of_guarded hguarded)
  | discard hcall hguarded => exact hs.setCall hcall (pending_of_guarded hguarded)
  | @schedule n call dispatcher hcall hphase hdispatcher sleepers hsleepers =>
    have hpending := pending_of_guarded (guarded_of_checking hphase)
    cases hsender : dispatcher.sender with
    | true =>
      refine hs.leave hcall hpending rfl ?_
      rw [hsender, if_pos rfl] at hsleepers
      show (s.entered ++ sleepers.map (·.addr)).Perm _
      rw [hsleepers, List.map_append, ← List.append_assoc]
      exact List.perm_append_singleton _ _
    | false =>
      rw [hsender] at hsleepers
      subst hsleepers
      exact hs.setCall hcall hpending
  | await hcall hphase =>
    exact hs.setCall hcall (pending_of_guarded (guarded_of_checking hphase))
  | @enter n call hcall hguarded haccepts =>
    refine hs.leave hcall (pending_of_guarded hguarded) rfl ?_
    have hentered : ((s.enqueue n (s.queue.push ⟨n, call.envelope⟩)).finish n call
        (.ok call.envelope.eventId)).entered = s.entered ++ [n] :=
      entered_observe_entered (s := s) n
    rw [hentered, List.append_assoc]
    exact List.perm_middle
  | cancel hcall hphase =>
    exact hs.setCall hcall (by rcases hphase with h | h <;> simp [PublishCall.pending, h])
  | @wake index event hevent haccepts =>
    refine hs.of_perm rfl ?_
    obtain ⟨hlt, rfl⟩ := List.getElem?_eq_some_iff.mp hevent
    rw [enqueue, entered_observe_entered, List.append_assoc]
    exact ((List.getElem_cons_eraseIdx_perm hlt).map (·.addr)).append_left _
  | @lose index event hevent hclosed =>
    have hsub : (s.entered ++ (s.sleepers.eraseIdx index).map (·.addr)).Sublist
        (s.entered ++ s.sleepers.map (·.addr)) :=
      ((List.eraseIdx_sublist _ _).map _).append_left _
    exact ⟨hsub.nodup hs.nodup, fun n hn => hs.returned n (hsub.subset hn)⟩

/-- **Every event has its own name.** -/
theorem Named.step {a : Action} (hs : s.Named) (h : step config s a = some s') : s'.Named := by
  cases a with
  | publisher a => exact (stepPublisher_cases h).named hs
  | _ =>
    obtain ⟨hentered, hsleepers, hcalls⟩ := of_not_publisher h (by simp)
    exact hs.of_perm hcalls (by rw [hentered, hsleepers])

theorem named_exec {as : List Action} (hexec : exec config (build config) as = some s) : s.Named :=
  Transition.invariant (fun _ _ _ h hstep => h.step hstep) named_build hexec

end Names
end MemoryBus
end TokioEvents
