/-
  TokioEvents.Bus.Effects

  What a step of each party can do: one relation for each, with a constructor for each
  way the step can go, and the parts of the state the party does not touch.
-/

import TokioEvents.Bus.System

namespace TokioEvents
namespace MemoryBus

/-! ## Publishers -/

/-- What a step of a publisher, or of the task of a scheduled event, can do. -/
inductive PublisherStep (config : EventBusConfig) (s : MemoryBus) : MemoryBus → Prop where
  | publish (envelope : EventEnvelope) (nonBlocking : Bool) :
      PublisherStep config s (s.publish envelope nonBlocking)
  | acquire {n : Nat} {call : PublishCall} (hcall : s.calls[n]? = some call)
      (hphase : call.phase = .acquiring) (hlock : s.writeLocked = false) :
      PublisherStep config s (s.setCall n call .checking)
  /-- An error is returned. -/
  | refuse {n : Nat} {call : PublishCall} {result : PublishResult}
      (hcall : s.calls[n]? = some call) (hguarded : call.guarded = true)
      (hresult : ∀ eventId, result ≠ .ok eventId) :
      PublisherStep config s (s.finish n call result)
  /-- The event of a full queue is dropped. -/
  | discard {n : Nat} {call : PublishCall} (hcall : s.calls[n]? = some call)
      (hguarded : call.guarded = true) (hdrop : config.dropOnFull = true) :
      PublisherStep config s (s.finish n call (.ok call.envelope.eventId))
  /-- The event is left to a task; without a sender the task has nothing to do. -/
  | schedule {n : Nat} {call : PublishCall} {dispatcher : ChannelDispatcher}
      (hcall : s.calls[n]? = some call) (hphase : call.phase = .checking)
      (hdispatcher : s.dispatcher = some dispatcher) {sleepers : List ArcEnvelope}
      (hsleepers : sleepers = if dispatcher.sender then s.sleepers ++ [⟨n, call.envelope⟩]
        else s.sleepers) :
      PublisherStep config s
        ({ s with sleepers := sleepers }.finish n call (.ok call.envelope.eventId))
  | await {n : Nat} {call : PublishCall} {dispatcher : ChannelDispatcher}
      (hcall : s.calls[n]? = some call) (hphase : call.phase = .checking)
      (hdispatcher : s.dispatcher = some dispatcher) (hsender : dispatcher.sender = true)
      (hrunning : s.isRunning = true) :
      PublisherStep config s (s.setCall n call .sending)
  | enter {n : Nat} {call : PublishCall} (hcall : s.calls[n]? = some call)
      (hguarded : call.guarded = true) (haccepts : s.queue.Accepts) :
      PublisherStep config s
        ((s.enqueue n (s.queue.push ⟨n, call.envelope⟩)).finish n call
          (.ok call.envelope.eventId))
  | cancel {n : Nat} {call : PublishCall} (hcall : s.calls[n]? = some call)
      (hphase : call.phase = .acquiring ∨ call.phase = .sending) :
      PublisherStep config s (s.setCall n call .cancelled)
  | wake {index : Nat} {event : ArcEnvelope} (hevent : s.sleepers[index]? = some event)
      (haccepts : s.queue.Accepts) :
      PublisherStep config s
        ({ s with sleepers := s.sleepers.eraseIdx index }.enqueue event.addr (s.queue.push event))
  /-- The receiver is gone. -/
  | lose {index : Nat} {event : ArcEnvelope} (hevent : s.sleepers[index]? = some event)
      (hclosed : s.queue.receiver = false) :
      PublisherStep config s { s with sleepers := s.sleepers.eraseIdx index }

section Publisher

variable {config : EventBusConfig} {s s' : MemoryBus}

theorem shuttingDown_ne_ok (nonBlocking : Bool) (eventId : Uuid) :
    shuttingDown nonBlocking ≠ .ok eventId := by
  cases nonBlocking <;> simp [shuttingDown]

theorem guarded_of_checking {call : PublishCall} (h : call.phase = .checking) :
    call.guarded = true := by
  simp [PublishCall.guarded, h]

theorem guarded_of_sending {call : PublishCall} (h : call.phase = .sending) :
    call.guarded = true := by
  simp [PublishCall.guarded, h]

theorem pending_of_guarded {call : PublishCall} (h : call.guarded = true) :
    call.pending = true := by
  cases hphase : call.phase <;> simp_all [PublishCall.guarded, PublishCall.pending]

theorem tryDispatch_cases {n : Nat} {call : PublishCall} {dispatcher : ChannelDispatcher}
    (hcall : s.calls[n]? = some call) (hphase : call.phase = .checking) :
    PublisherStep config s (s.tryDispatch dispatcher n call) := by
  have hguarded := guarded_of_checking hphase
  unfold tryDispatch
  split
  · exact .refuse hcall hguarded (by simp)
  split
  · exact .refuse hcall hguarded (by simp)
  split
  · exact .refuse hcall hguarded (by simp)
  split
  · rename_i queue hsend
    obtain ⟨haccepts, rfl⟩ := Mpsc.Channel.trySend_eq_ok.mp hsend
    exact .enter hcall hguarded haccepts
  · exact .refuse hcall hguarded (by simp)
  · exact .refuse hcall hguarded (by simp)

theorem dispatcherDispatch_cases {n : Nat} {call : PublishCall} {dispatcher : ChannelDispatcher}
    {now : DateTime} (hcall : s.calls[n]? = some call) (hphase : call.phase = .checking)
    (hdispatcher : s.dispatcher = some dispatcher) :
    PublisherStep config s (s.dispatcherDispatch config dispatcher n call now) := by
  have hguarded := guarded_of_checking hphase
  unfold dispatcherDispatch
  dsimp only
  split
  · exact .refuse hcall hguarded (by simp)
  rename_i hrunning
  split
  · exact .schedule hcall hphase hdispatcher rfl
  split
  · exact .refuse hcall hguarded (by simp)
  rename_i hsender
  split
  · rename_i hdrop
    split
    · rename_i queue hsend
      obtain ⟨haccepts, rfl⟩ := Mpsc.Channel.trySend_eq_ok.mp hsend
      exact .enter hcall hguarded haccepts
    · exact .discard hcall hguarded hdrop
    · exact .refuse hcall hguarded (by simp)
  · exact .await hcall hphase hdispatcher (by simpa using hsender) (by simpa using hrunning)

theorem dispatch_cases {n : Nat} {now : DateTime} (h : s.dispatch config n now = some s') :
    PublisherStep config s s' := by
  unfold dispatch at h
  split at h
  · rename_i call hcall
    split at h
    · rename_i hphase
      have hguarded := guarded_of_checking hphase
      split at h
      · rename_i dispatcher hdispatcher
        split at h
        · cases h
          exact .refuse hcall hguarded (shuttingDown_ne_ok _)
        split at h
        · cases h
          exact tryDispatch_cases hcall hphase
        · cases h
          exact dispatcherDispatch_cases hcall hphase hdispatcher
      · cases h
        exact .refuse hcall hguarded (shuttingDown_ne_ok _)
    · cases h
  · cases h

theorem send_cases {n : Nat} (h : s.send n = some s') : PublisherStep config s s' := by
  unfold send at h
  split at h
  · rename_i call hcall
    split at h
    · rename_i hphase
      have hguarded := guarded_of_sending hphase
      split at h
      · rename_i queue hsend
        obtain ⟨haccepts, rfl⟩ := Mpsc.Channel.trySend_eq_ok.mp hsend
        cases h
        exact .enter hcall hguarded haccepts
      · cases h
      · cases h
        exact .refuse hcall hguarded (by simp)
    · cases h
  · cases h

theorem wake_cases {index : Nat} (h : s.wake index = some s') : PublisherStep config s s' := by
  unfold wake at h
  split at h
  · rename_i event hevent
    dsimp only at h
    split at h
    · rename_i queue hsend
      obtain ⟨haccepts, rfl⟩ := Mpsc.Channel.trySend_eq_ok.mp hsend
      cases h
      exact .wake hevent haccepts
    · cases h
    · rename_i hclosed
      cases h
      exact .lose hevent (Mpsc.Channel.receiver_of_closed hclosed)
  · cases h

theorem stepPublisher_cases {a : PublisherAction} (h : s.stepPublisher config a = some s') :
    PublisherStep config s s' := by
  cases a with
  | publish envelope nonBlocking =>
    cases h
    exact .publish envelope nonBlocking
  | acquire n =>
    simp only [stepPublisher, acquire] at h
    split at h
    · rename_i call hcall
      split at h
      · rename_i hguard
        cases h
        exact .acquire hcall hguard.1 hguard.2
      · cases h
    · cases h
  | dispatch n now => exact dispatch_cases h
  | send n => exact send_cases h
  | cancel n =>
    simp only [stepPublisher, cancel] at h
    split at h
    · rename_i call hcall
      split at h
      · rename_i hphase
        cases h
        exact .cancel hcall hphase
      · cases h
    · cases h
  | wake index => exact wake_cases h

/-- Publishers touch their calls, the tasks of scheduled events and the queue. -/
theorem PublisherStep.frame (h : PublisherStep config s s') :
    ∃ queue sleepers calls log, s' = { s with
      queue := queue
      sleepers := sleepers
      calls := calls
      log := log } := by
  cases h <;> exact ⟨_, _, _, _, rfl⟩

end Publisher

/-! ## The worker -/

/-- What a step of the worker can do. -/
inductive WorkerStep (config : EventBusConfig) (s : MemoryBus) : WorkerAction → MemoryBus → Prop
    where
  | recv {event : ArcEnvelope} {rest : List ArcEnvelope} (hworker : s.worker = .receiving)
      (hbuffer : s.queue.buffer = event :: rest) :
      WorkerStep config s .recv
        { s with worker := .received event, queue := { s.queue with buffer := rest } }
  /-- The channel is closed and empty. -/
  | drained (hworker : s.worker = .receiving) (hbuffer : s.queue.buffer = [])
      (hsender : s.noSender = true) : WorkerStep config s .recv s.stopWorker
  | select {event : ArcEnvelope} (hworker : s.worker = .received event)
      (hrunning : s.isRunning = true) :
      WorkerStep config s .select
        ({ s with worker := .dispatching event (s.senders event.envelope) }.observe
          (.selected event.addr (s.senders event.envelope)))
  /-- `is_running` became false. -/
  | halt {event : ArcEnvelope} (hworker : s.worker = .received event)
      (hrunning : s.isRunning = false) : WorkerStep config s .select s.stopWorker
  | push {event : ArcEnvelope} {sends : List Uuid} {id : Uuid} {task : HandlerTask}
      (hworker : s.worker = .dispatching event sends) (hid : id ∈ sends)
      (htask : s.tasks[id]? = some task) (haccepts : task.channel.Accepts) :
      WorkerStep config s (.push id)
        (({ s with worker := .dispatching event (sends.erase id) }.setTask id
          { task with channel := task.channel.push event }).observe (.marked .pushed id event.addr))
  /-- The receiver is gone. -/
  | miss {event : ArcEnvelope} {sends : List Uuid} {id : Uuid}
      (hworker : s.worker = .dispatching event sends) (hid : id ∈ sends)
      (htask : ∀ task, s.tasks[id]? = some task → task.channel.receiver = false) :
      WorkerStep config s (.push id) { s with worker := .dispatching event (sends.erase id) }
  | finish {event : ArcEnvelope} (hworker : s.worker = .dispatching event []) :
      WorkerStep config s .finish (s.leaveDispatch event)
  | timeout {event : ArcEnvelope} {sends : List Uuid}
      (hworker : s.worker = .dispatching event sends) (htimeout : 0 < config.processingTimeoutMs) :
      WorkerStep config s .timeout (s.leaveDispatch event)
  | panic {event : ArcEnvelope} (hworker : s.worker = .received event) :
      WorkerStep config s .panic s.stopWorker

section Worker

variable {config : EventBusConfig} {s s' : MemoryBus}

theorem push_cases {id : Uuid} (h : s.push id = some s') : WorkerStep config s (.push id) s' := by
  unfold push at h
  split at h
  · rename_i event sends hworker
    split at h
    · rename_i hid
      dsimp only at h
      split at h
      · rename_i task htask
        split at h
        · rename_i channel hsend
          obtain ⟨haccepts, rfl⟩ := Mpsc.Channel.trySend_eq_ok.mp hsend
          cases h
          exact .push hworker hid htask haccepts
        · cases h
        · rename_i hclosed
          cases h
          refine .miss hworker hid fun task' htask' => ?_
          cases htask.symm.trans htask'
          exact Mpsc.Channel.receiver_of_closed hclosed
      · rename_i htask
        cases h
        exact .miss hworker hid fun task' htask' => by cases htask.symm.trans htask'
    · cases h
  · cases h

theorem stepWorker_cases {a : WorkerAction} (h : s.stepWorker config a = some s') :
    WorkerStep config s a s' := by
  cases a with
  | recv =>
    simp only [stepWorker, recv] at h
    split at h
    · rename_i event rest hworker hbuffer
      cases h
      exact .recv hworker hbuffer
    · rename_i hworker hbuffer
      split at h
      · rename_i hsender
        cases h
        exact .drained hworker hbuffer hsender
      · cases h
    · cases h
  | select =>
    simp only [stepWorker, select] at h
    split at h
    · rename_i event hworker
      split at h
      · rename_i hrunning
        cases h
        exact .halt hworker (by simpa using hrunning)
      · rename_i hrunning
        cases h
        exact .select hworker (by simpa using hrunning)
    · cases h
  | push id => exact push_cases h
  | finish =>
    simp only [stepWorker, finishDispatch] at h
    split at h
    · rename_i event hworker
      cases h
      exact .finish hworker
    · cases h
  | timeout =>
    simp only [stepWorker, timeoutDispatch] at h
    split at h
    · rename_i event sends hworker
      split at h
      · rename_i htimeout
        cases h
        exact .timeout hworker htimeout
      · cases h
    · cases h
  | panic =>
    simp only [stepWorker, workerPanic] at h
    split at h
    · rename_i event hworker
      cases h
      exact .panic hworker
    · cases h

/-- The worker touches the queue and the channels of the tasks. -/
theorem WorkerStep.frame {a : WorkerAction} (h : WorkerStep config s a s') :
    ∃ tasks queue worker log, s' = { s with
      tasks := tasks
      queue := queue
      worker := worker
      log := log } := by
  cases h <;> exact ⟨_, _, _, _, rfl⟩

end Worker

/-! ## Handler tasks -/

/-- What a step of a handler task can do. -/
inductive HandlerStep (config : EventBusConfig) (s : MemoryBus) (id : Uuid) (task : HandlerTask) :
    HandlerAction → MemoryBus → Prop where
  | recv {event : ArcEnvelope} {rest : List ArcEnvelope} (hphase : task.phase = .selecting)
      (hbuffer : task.channel.buffer = event :: rest) :
      HandlerStep config s id task .recv
        ((s.observe (.marked .started id event.addr)).attempt id
          { task with channel := { task.channel with buffer := rest } } event 0)
  | closed (hphase : task.phase = .selecting) (hbuffer : task.channel.buffer = [])
      (hsubscribed : id ∉ s.subscriptions) (hsends : id ∉ s.worker.sends) :
      HandlerStep config s id task .closed (s.leaveLoop id task)
  | interrupt (hphase : task.phase = .selecting) (hsignalled : task.signalled = true) :
      HandlerStep config s id task .interrupt (s.leaveLoop id task)
  | ack {event : ArcEnvelope} {n : Nat} (hphase : task.phase = .handling event n) :
      HandlerStep config s id task (.outcome .ok)
        ((s.setPhase id task .selecting).ackEvent id event)
  | giveUp {event : ArcEnvelope} {n : Nat} (hphase : task.phase = .handling event n)
      (hafter : config.afterError n = .giveUp) (hdlq : s.dlq.isSome = true) :
      HandlerStep config s id task (.outcome .error) (s.setPhase id task (.deadLettering event))
  /-- No DLQ is configured. -/
  | fail {event : ArcEnvelope} {n : Nat} (hphase : task.phase = .handling event n)
      (hafter : config.afterError n = .giveUp) (hdlq : s.dlq = none) :
      HandlerStep config s id task (.outcome .error)
        ((s.setPhase id task .selecting).markFailed id event)
  | backOff {event : ArcEnvelope} {n m backoff : Nat} (hphase : task.phase = .handling event n)
      (hafter : config.afterError n = .retry m backoff) :
      HandlerStep config s id task (.outcome .error) (s.setPhase id task (.backingOff event m))
  | overflow {event : ArcEnvelope} {n : Nat} (hphase : task.phase = .handling event n)
      (hafter : config.afterError n = .panics) :
      HandlerStep config s id task (.outcome .error) (s.endTask id task)
  | panic {event : ArcEnvelope} {n : Nat} (hphase : task.phase = .handling event n) :
      HandlerStep config s id task (.outcome .panic) (s.endTask id task)
  | deadLetter {event : ArcEnvelope} {dlq dlq' : Mpsc.Channel ArcEnvelope}
      (hphase : task.phase = .deadLettering event) (hdlq : s.dlq = some dlq)
      (hsend : (dlq.Accepts ∧ dlq' = dlq.push event) ∨ (dlq.receiver = false ∧ dlq' = dlq)) :
      HandlerStep config s id task .deadLetter (s.leaveDeadLetter id task event dlq')
  | retry {event : ArcEnvelope} {n : Nat} (hphase : task.phase = .backingOff event n) :
      HandlerStep config s id task .retry (s.attempt id task event n)
  | cancelled (hphase : task.phase ≠ .ended) (haborted : task.aborted = true) :
      HandlerStep config s id task .cancelled (s.endTask id task)

section Handler

variable {config : EventBusConfig} {s s' : MemoryBus} {id : Uuid}

theorem handlerOutcome_cases {task : HandlerTask} {outcome : Outcome}
    (h : s.handlerOutcome config id task outcome = some s') :
    HandlerStep config s id task (.outcome outcome) s' := by
  unfold handlerOutcome at h
  split at h
  · rename_i event n hphase
    cases outcome with
    | ok =>
      cases h
      exact .ack hphase
    | error =>
      dsimp only at h
      split at h
      · rename_i hafter
        split at h
        · rename_i hdlq
          cases h
          exact .giveUp hphase hafter hdlq
        · rename_i hdlq
          cases h
          exact .fail hphase hafter (by simpa using hdlq)
      · rename_i m backoff hafter
        cases h
        exact .backOff hphase hafter
      · rename_i hafter
        cases h
        exact .overflow hphase hafter
    | panic =>
      cases h
      exact .panic hphase
  · cases h

theorem handlerDeadLetter_cases {task : HandlerTask}
    (h : s.handlerDeadLetter id task = some s') : HandlerStep config s id task .deadLetter s' := by
  unfold handlerDeadLetter at h
  split at h
  · rename_i event dlq hphase hdlq
    split at h
    · rename_i dlq' hsend
      cases h
      exact .deadLetter hphase hdlq (.inl (Mpsc.Channel.trySend_eq_ok.mp hsend))
    · cases h
    · rename_i hclosed
      cases h
      exact .deadLetter hphase hdlq (.inr ⟨Mpsc.Channel.receiver_of_closed hclosed, rfl⟩)
  · cases h

theorem stepHandler_cases {a : HandlerAction} (h : s.stepHandler config id a = some s') :
    ∃ task, s.tasks[id]? = some task ∧ HandlerStep config s id task a s' := by
  unfold stepHandler at h
  split at h
  · rename_i task htask
    refine ⟨task, htask, ?_⟩
    cases a with
    | recv =>
      simp only [handlerRecv] at h
      split at h
      · rename_i event rest hphase hbuffer
        cases h
        exact .recv hphase hbuffer
      · cases h
    | closed =>
      simp only [handlerClosed] at h
      split at h
      · rename_i hphase
        split at h
        · rename_i hclosed
          cases h
          exact .closed hphase hclosed.1 hclosed.2.1 hclosed.2.2
        · cases h
      · cases h
    | interrupt =>
      simp only [handlerInterrupt] at h
      split at h
      · rename_i hphase
        split at h
        · rename_i hsignalled
          cases h
          exact .interrupt hphase hsignalled
        · cases h
      · cases h
    | outcome outcome => exact handlerOutcome_cases h
    | deadLetter => exact handlerDeadLetter_cases h
    | retry =>
      simp only [handlerRetry] at h
      split at h
      · rename_i event n hphase
        cases h
        exact .retry hphase
      · cases h
    | cancelled =>
      simp only [handlerCancelled] at h
      split at h
      · cases h
      · rename_i hphase
        split at h
        · rename_i haborted
          cases h
          exact .cancelled hphase haborted
        · cases h
  · cases h

/-- A handler task touches itself, the registry, and the channels it sends to. -/
theorem HandlerStep.frame {task : HandlerTask} {a : HandlerAction}
    (h : HandlerStep config s id task a s') :
    ∃ registry tasks unsubs dlq log, s' = { s with
      registry := registry
      tasks := tasks
      unsubs := unsubs
      dlq := dlq
      log := log } := by
  cases h <;> exact ⟨_, _, _, _, _, rfl⟩

end Handler

/-! ## Subscribers -/

/-- What a step of a subscriber can do. -/
inductive SubscriberStep (config : EventBusConfig) (s : MemoryBus) :
    SubscriberAction → MemoryBus → Prop where
  | subscribe {eventType : TypeId} {typeName : String} {entry : SubscriptionEntry}
      (hfresh : s.tasks[entry.id]? = none) :
      SubscriberStep config s (.subscribe eventType typeName entry)
        { s.setTask entry.id ⟨.new config.handlerChannelSize, .selecting, false, false⟩ with
          subscriptions := s.subscriptions ++ [entry.id]
          registry := (s.registry.register eventType typeName entry).2 }
  | signal {id : Uuid} {task : HandlerTask} (htask : s.tasks[id]? = some task) :
      SubscriberStep config s (.signal id) (s.setTask id { task with signalled := true })
  /-- The manager has no such subscription. -/
  | unregister {id : Uuid} :
      SubscriberStep config s (.unsubscribe id)
        { s with registry := (s.registry.unregister id).2 }
  | unsubscribe {id : Uuid} (hid : id ∈ s.subscriptions) :
      SubscriberStep config s (.unsubscribe id)
        (({ s with registry := (s.registry.unregister id).2 }.removeSubscription id).abort id)
  | ignore {id : Uuid} {rest : List Uuid} (hunsubs : s.unsubs = id :: rest)
      (hid : id ∉ s.subscriptions) :
      SubscriberStep config s .autoUnsubscribe { s with unsubs := rest }
  | autoUnsubscribe {id : Uuid} {rest : List Uuid} (hunsubs : s.unsubs = id :: rest)
      (hid : id ∈ s.subscriptions) :
      SubscriberStep config s .autoUnsubscribe
        (({ s with unsubs := rest, registry := (s.registry.unregister id).2 }.removeSubscription
          id).abort id)
  | takeDlq {dlq : Mpsc.Channel ArcEnvelope} (hdlq : s.dlq = some dlq) :
      SubscriberStep config s .takeDlq
        { s with dlq := some { dlq with buffer := dlq.buffer.tail } }
  | dropDlq : SubscriberStep config s .dropDlq s.dropDlq

section Subscriber

variable {config : EventBusConfig} {s s' : MemoryBus}

/-- An abort concerns one task, and nothing else of the state. -/
theorem abort_eq (s : MemoryBus) (id : Uuid) : ∃ tasks, s.abort id = { s with tasks := tasks } := by
  unfold abort
  split
  · exact ⟨_, rfl⟩
  · exact ⟨s.tasks, rfl⟩

theorem registry_abort (s : MemoryBus) (id : Uuid) : (s.abort id).registry = s.registry := by
  obtain ⟨tasks, h⟩ := abort_eq s id
  rw [h]

theorem subscriptions_abort (s : MemoryBus) (id : Uuid) :
    (s.abort id).subscriptions = s.subscriptions := by
  obtain ⟨tasks, h⟩ := abort_eq s id
  rw [h]

theorem unsubs_abort (s : MemoryBus) (id : Uuid) : (s.abort id).unsubs = s.unsubs := by
  obtain ⟨tasks, h⟩ := abort_eq s id
  rw [h]

theorem dlq_abort (s : MemoryBus) (id : Uuid) : (s.abort id).dlq = s.dlq := by
  obtain ⟨tasks, h⟩ := abort_eq s id
  rw [h]

/-- Subscribers leave the dispatcher, its queue and its worker alone, and all calls. -/
theorem SubscriberStep.frame {a : SubscriberAction} (h : SubscriberStep config s a s') :
    ∃ registry subscriptions tasks unsubs dlq, s' = { s with
      registry := registry
      subscriptions := subscriptions
      tasks := tasks
      unsubs := unsubs
      dlq := dlq } := by
  cases h with
  | unsubscribe hid =>
    obtain ⟨tasks, habort⟩ := abort_eq _ _
    exact ⟨_, _, tasks, _, _, habort⟩
  | autoUnsubscribe hunsubs hid =>
    obtain ⟨tasks, habort⟩ := abort_eq _ _
    exact ⟨_, _, tasks, _, _, habort⟩
  | _ => exact ⟨_, _, _, _, _, rfl⟩

theorem unsubscribe_cases (id : Uuid) :
    SubscriberStep config s (.unsubscribe id) (s.unsubscribe id) := by
  unfold unsubscribe
  split
  · rename_i e registry hunregister
    have hstep : SubscriberStep config s (.unsubscribe id)
        { s with registry := (s.registry.unregister id).2 } := .unregister
    rwa [hunregister] at hstep
  · rename_i u registry hunregister
    dsimp only
    split
    · rename_i hid
      have hstep : SubscriberStep config s (.unsubscribe id)
          (({ s with registry := (s.registry.unregister id).2 }.removeSubscription id).abort id) :=
        .unsubscribe hid
      rwa [hunregister] at hstep
    · have hstep : SubscriberStep config s (.unsubscribe id)
          { s with registry := (s.registry.unregister id).2 } := .unregister
      rwa [hunregister] at hstep

theorem stepSubscriber_cases {a : SubscriberAction} (h : s.stepSubscriber config a = some s') :
    SubscriberStep config s a s' := by
  cases a with
  | subscribe eventType typeName entry =>
    simp only [stepSubscriber, subscribe] at h
    split at h
    · cases h
    · rename_i hfresh
      cases h
      exact .subscribe hfresh
  | signal id =>
    obtain ⟨task, htask, rfl⟩ := Option.map_eq_some_iff.mp h
    exact .signal htask
  | unsubscribe id =>
    cases h
    exact unsubscribe_cases id
  | autoUnsubscribe =>
    simp only [stepSubscriber, autoUnsubscribe] at h
    split at h
    · rename_i id rest hunsubs
      split at h
      · rename_i hid
        cases h
        exact .autoUnsubscribe hunsubs hid
      · rename_i hid
        cases h
        exact .ignore hunsubs hid
    · cases h
  | takeDlq =>
    simp only [stepSubscriber, takeDlq] at h
    split at h
    · rename_i dlq hdlq
      cases h
      exact .takeDlq hdlq
    · cases h
  | dropDlq =>
    cases h
    exact .dropDlq

end Subscriber

/-! ## Shutdown calls -/

/-- What a step of a shutdown call can do. -/
inductive ShutdownStep (s : MemoryBus) : ShutdownAction → MemoryBus → Prop where
  | registerHook (hfree : s.hooksLocked = false) :
      ShutdownStep s .registerHook { s with hooks := s.hooks + 1 }
  | begin (graceful : Bool) : ShutdownStep s (.begin graceful) (s.beginShutdown graceful)
  | lockHooks {n : Nat} {call : ShutdownCall} (hcall : s.shutdowns[n]? = some call)
      (hphase : call.phase = .lockingHooks) (hfree : s.hooksLocked = false) :
      ShutdownStep s (.advance n) (s.setShutdown n call (.runningHooks 0))
  | runHook {n next : Nat} {call : ShutdownCall} (hcall : s.shutdowns[n]? = some call)
      (hphase : call.phase = .runningHooks next) (hnext : next < s.hooks) :
      ShutdownStep s (.advance n)
        ((s.setShutdown n call (.runningHooks (next + 1))).observe (.hooked next))
  | releaseHooks {n next : Nat} {call : ShutdownCall} (hcall : s.shutdowns[n]? = some call)
      (hphase : call.phase = .runningHooks next) (hnext : s.hooks ≤ next) :
      ShutdownStep s (.advance n) (s.setShutdown n call .lockingDispatcher)
  | noDispatcher {n : Nat} {call : ShutdownCall} (hcall : s.shutdowns[n]? = some call)
      (hphase : call.phase = .lockingDispatcher) (hread : s.readLocked = false)
      (hwrite : s.writeLocked = false) (hdispatcher : s.dispatcher = none) :
      ShutdownStep s (.advance n) (s.setShutdown n call .closing)
  | takeDispatcher {n : Nat} {call : ShutdownCall} {dispatcher : ChannelDispatcher}
      {isRunning : Bool} (hcall : s.shutdowns[n]? = some call)
      (hphase : call.phase = .lockingDispatcher) (hread : s.readLocked = false)
      (hwrite : s.writeLocked = false) (hdispatcher : s.dispatcher = some dispatcher)
      (hhandle : dispatcher.workerHandle = true)
      (hrunning : isRunning = if call.graceful then s.isRunning else false) :
      ShutdownStep s (.advance n)
        ({ s with dispatcher := none, isRunning := isRunning }.setShutdown n call .joining)
  /-- There is no worker to wait for, or `is_running` is false already. -/
  | skipJoin {n : Nat} {call : ShutdownCall} {dispatcher : ChannelDispatcher}
      {isRunning : Bool} (hcall : s.shutdowns[n]? = some call)
      (hphase : call.phase = .lockingDispatcher) (hread : s.readLocked = false)
      (hwrite : s.writeLocked = false) (hdispatcher : s.dispatcher = some dispatcher)
      (hskip : dispatcher.workerHandle = false ∨ s.isRunning = false) :
      ShutdownStep s (.advance n)
        ({ s with dispatcher := none, isRunning := isRunning }.setShutdown n call .closing)
  | join {n : Nat} {call : ShutdownCall} {isRunning : Bool} (hcall : s.shutdowns[n]? = some call)
      (hphase : call.phase = .joining) (hended : s.worker.ended = true)
      (hrunning : isRunning = if call.graceful then false else s.isRunning) :
      ShutdownStep s (.advance n)
        ({ s with isRunning := isRunning }.setShutdown n call .closing)
  | collect {n : Nat} {call : ShutdownCall} (hcall : s.shutdowns[n]? = some call)
      (hphase : call.phase = .closing) (hgraceful : call.graceful = true) :
      ShutdownStep s (.advance n) (s.setShutdown n call (.removing s.subscriptions []))
  | abortAll {n : Nat} {call : ShutdownCall} (hcall : s.shutdowns[n]? = some call)
      (hphase : call.phase = .closing) (hgraceful : call.graceful = false) :
      ShutdownStep s (.advance n) (s.shutdownManager.setShutdown n call .storing)
  | remove {n : Nat} {call : ShutdownCall} {id : Uuid} {ids handles : List Uuid}
      (hcall : s.shutdowns[n]? = some call) (hphase : call.phase = .removing (id :: ids) handles)
      (hid : id ∈ s.subscriptions) :
      ShutdownStep s (.advance n)
        (({ s with registry := (s.registry.unregister id).2 }.removeSubscription id).setShutdown n
          call (.removing ids (handles ++ [id])))
  | skip {n : Nat} {call : ShutdownCall} {id : Uuid} {ids handles : List Uuid}
      (hcall : s.shutdowns[n]? = some call) (hphase : call.phase = .removing (id :: ids) handles)
      (hid : id ∉ s.subscriptions) :
      ShutdownStep s (.advance n) (s.setShutdown n call (.removing ids handles))
  | await {n : Nat} {call : ShutdownCall} {handles : List Uuid}
      (hcall : s.shutdowns[n]? = some call) (hphase : call.phase = .removing [] handles) :
      ShutdownStep s (.advance n) (s.setShutdown n call (.awaiting handles))
  | joinTask {n : Nat} {call : ShutdownCall} {id : Uuid} {handles : List Uuid}
      (hcall : s.shutdowns[n]? = some call) (hphase : call.phase = .awaiting (id :: handles))
      (hended : ∀ task, s.tasks[id]? = some task → task.phase = .ended) :
      ShutdownStep s (.advance n) (s.setShutdown n call (.awaiting handles))
  | joinedAll {n : Nat} {call : ShutdownCall} (hcall : s.shutdowns[n]? = some call)
      (hphase : call.phase = .awaiting []) :
      ShutdownStep s (.advance n) (s.setShutdown n call .storing)
  | store {n : Nat} {call : ShutdownCall} (hcall : s.shutdowns[n]? = some call)
      (hphase : call.phase = .storing) :
      ShutdownStep s (.advance n)
        ({ s with shutdownState := .stopped }.setShutdown n call .returned)
  | timeout {n : Nat} {call : ShutdownCall} (hcall : s.shutdowns[n]? = some call)
      (hgraceful : call.graceful = false)
      (hphase : call.phase = .lockingDispatcher ∨ call.phase = .joining) :
      ShutdownStep s (.timeout n) (s.setShutdown n call .closing)
  | drop {n : Nat} {call : ShutdownCall} (hcall : s.shutdowns[n]? = some call)
      (hphase : call.phase.awaits = true) :
      ShutdownStep s (.drop n) (s.setShutdown n call .dropped)

section Shutdown

variable {s s' : MemoryBus}

theorem takeDispatcher_cases {n : Nat} {call : ShutdownCall} (hcall : s.shutdowns[n]? = some call)
    (hphase : call.phase = .lockingDispatcher) (hread : s.readLocked = false)
    (hwrite : s.writeLocked = false) :
    ShutdownStep s (.advance n) (s.takeDispatcher n call) := by
  unfold takeDispatcher
  split
  · rename_i hdispatcher
    exact .noDispatcher hcall hphase hread hwrite hdispatcher
  · rename_i dispatcher hdispatcher
    dsimp only
    split
    · rename_i hstopped
      exact .skipJoin hcall hphase hread hwrite hdispatcher (.inr (by simp_all))
    split
    · rename_i hhandle
      exact .takeDispatcher hcall hphase hread hwrite hdispatcher hhandle rfl
    · rename_i hhandle
      exact .skipJoin hcall hphase hread hwrite hdispatcher (.inl (by simpa using hhandle))

theorem advanceCall_cases {n : Nat} {call : ShutdownCall} (hcall : s.shutdowns[n]? = some call)
    (h : s.advanceCall n call = some s') : ShutdownStep s (.advance n) s' := by
  unfold advanceCall at h
  split at h
  · rename_i hphase
    split at h
    · cases h
    · rename_i hfree
      cases h
      exact .lockHooks hcall hphase (by simpa using hfree)
  · rename_i next hphase
    split at h
    · rename_i hnext
      cases h
      exact .runHook hcall hphase hnext
    · rename_i hnext
      cases h
      exact .releaseHooks hcall hphase (Nat.le_of_not_lt hnext)
  · rename_i hphase
    split at h
    · cases h
    · rename_i hlocks
      rw [Bool.or_eq_true, not_or, Bool.not_eq_true, Bool.not_eq_true] at hlocks
      cases h
      exact takeDispatcher_cases hcall hphase hlocks.1 hlocks.2
  · rename_i hphase
    split at h
    · rename_i hended
      cases h
      exact .join hcall hphase hended rfl
    · cases h
  · rename_i hphase
    split at h
    · rename_i hgraceful
      cases h
      exact .collect hcall hphase hgraceful
    · rename_i hgraceful
      cases h
      exact .abortAll hcall hphase (by simpa using hgraceful)
  · rename_i id ids handles hphase
    split at h
    · rename_i hid
      cases h
      exact .remove hcall hphase hid
    · rename_i hid
      cases h
      exact .skip hcall hphase hid
  · rename_i handles hphase
    cases h
    exact .await hcall hphase
  · rename_i id handles hphase
    split at h
    · rename_i task htask
      split at h
      · rename_i hended
        cases h
        refine .joinTask hcall hphase fun task' htask' => ?_
        cases htask.symm.trans htask'
        exact hended
      · cases h
    · rename_i htask
      cases h
      exact .joinTask hcall hphase fun task' htask' => by cases htask.symm.trans htask'
  · rename_i hphase
    cases h
    exact .joinedAll hcall hphase
  · rename_i hphase
    cases h
    exact .store hcall hphase
  · cases h
  · cases h

theorem stepShutdown_cases {a : ShutdownAction} (h : s.stepShutdown a = some s') :
    ShutdownStep s a s' := by
  cases a with
  | registerHook =>
    simp only [stepShutdown, registerHook] at h
    split at h
    · cases h
    · rename_i hfree
      cases h
      exact .registerHook (by simpa using hfree)
  | begin graceful =>
    cases h
    exact .begin graceful
  | advance n =>
    obtain ⟨call, hcall, hadvance⟩ := Option.bind_eq_some_iff.mp h
    exact advanceCall_cases hcall hadvance
  | timeout n =>
    simp only [stepShutdown, timeoutShutdown] at h
    split at h
    · rename_i call hcall
      split at h
      · rename_i hphase
        cases h
        exact .timeout hcall hphase.1 hphase.2
      · cases h
    · cases h
  | drop n =>
    simp only [stepShutdown, dropShutdown] at h
    split at h
    · rename_i call hcall
      split at h
      · rename_i hphase
        cases h
        exact .drop hcall hphase
      · cases h
    · cases h

/-- Shutdown calls touch the dispatcher and the subscriptions, not what is in the queue, nor
    the worker or the other calls. -/
theorem ShutdownStep.frame {a : ShutdownAction} (h : ShutdownStep s a s') :
    ∃ registry subscriptions tasks dispatcher isRunning shutdownState hooks shutdowns log,
      s' = { s with
        registry := registry
        subscriptions := subscriptions
        tasks := tasks
        dispatcher := dispatcher
        isRunning := isRunning
        shutdownState := shutdownState
        hooks := hooks
        shutdowns := shutdowns
        log := log } := by
  cases h <;> exact ⟨_, _, _, _, _, _, _, _, _, rfl⟩

end Shutdown

/-! ## The log

Each party writes its own observations, after what is there. -/

section Log

variable {config : EventBusConfig} {s s' : MemoryBus}

theorem PublisherStep.log (h : PublisherStep config s s') :
    ∃ events : List Nat, s'.log = s.log ++ events.map .entered := by
  cases h with
  | @enter n => exact ⟨[n], rfl⟩
  | @wake index event => exact ⟨[event.addr], rfl⟩
  | _ => exact ⟨[], (List.append_nil _).symm⟩

theorem WorkerStep.log {a : WorkerAction} (h : WorkerStep config s a s') :
    ∃ observations : Log, s'.log = s.log ++ observations ∧
      ∀ o ∈ observations, (∃ event ids, o = .selected event ids) ∨
        (∃ event, o = .dispatched event) ∨ ∃ id event, o = .marked .pushed id event := by
  cases h with
  | @select event => exact ⟨[_], rfl, by simp⟩
  | @push event sends id => exact ⟨[_], rfl, by simp⟩
  | @finish event => exact ⟨[_], rfl, by simp⟩
  | @timeout event => exact ⟨[_], rfl, by simp⟩
  | _ => exact ⟨[], (List.append_nil _).symm, by simp⟩

theorem HandlerStep.log {id : Uuid} {task : HandlerTask} {a : HandlerAction}
    (h : HandlerStep config s id task a s') :
    ∃ entries : List (Mark × Nat),
      s'.log = s.log ++ entries.map (fun entry => .marked entry.1 id entry.2) ∧
      ∀ entry ∈ entries, entry.1 ≠ .pushed := by
  cases h with
  | @recv event =>
    exact ⟨[(.started, event.addr), (.attempted, event.addr)], List.append_assoc _ _ _, by simp⟩
  | @ack event => exact ⟨[(.acked, event.addr)], rfl, by simp⟩
  | @fail event => exact ⟨[(.failed, event.addr)], rfl, by simp⟩
  | @deadLetter event =>
    exact ⟨[(.deadLettered, event.addr), (.failed, event.addr)], List.append_assoc _ _ _, by simp⟩
  | @retry event => exact ⟨[(.attempted, event.addr)], rfl, by simp⟩
  | _ => exact ⟨[], (List.append_nil _).symm, by simp⟩

theorem SubscriberStep.log_eq {a : SubscriberAction} (h : SubscriberStep config s a s') :
    s'.log = s.log := by
  obtain ⟨_, _, _, _, _, rfl⟩ := h.frame
  rfl

theorem ShutdownStep.log {a : ShutdownAction} (h : ShutdownStep s a s') :
    ∃ hooks : List Nat, s'.log = s.log ++ hooks.map .hooked := by
  cases h with
  | @runHook n next => exact ⟨[next], rfl⟩
  | _ => exact ⟨[], (List.append_nil _).symm⟩

/-- What the parties other than the worker record. -/
theorem log_of_not_worker {a : Action} (h : step config s a = some s')
    (ha : ∀ b, a ≠ .worker b) :
    ∃ observations : Log, s'.log = s.log ++ observations ∧
      ∀ o ∈ observations, (∃ event, o = .entered event) ∨
        (∃ mark id event, mark ≠ .pushed ∧ o = .marked mark id event) ∨
          ∃ hook, o = .hooked hook := by
  cases a with
  | publisher b =>
    obtain ⟨events, hlog⟩ := (stepPublisher_cases h).log
    refine ⟨_, hlog, fun o ho => ?_⟩
    obtain ⟨event, -, rfl⟩ := List.mem_map.mp ho
    exact .inl ⟨event, rfl⟩
  | worker b => exact absurd rfl (ha b)
  | handler id b =>
    obtain ⟨task, -, hstep⟩ := stepHandler_cases h
    obtain ⟨entries, hlog, hentries⟩ := hstep.log
    refine ⟨_, hlog, fun o ho => ?_⟩
    obtain ⟨entry, hentry, rfl⟩ := List.mem_map.mp ho
    exact .inr (.inl ⟨_, _, _, hentries entry hentry, rfl⟩)
  | subscriber b =>
    exact ⟨[], (stepSubscriber_cases h).log_eq.trans (List.append_nil _).symm, by simp⟩
  | shutdown b =>
    obtain ⟨hooks, hlog⟩ := (stepShutdown_cases h).log
    refine ⟨_, hlog, fun o ho => ?_⟩
    obtain ⟨hook, -, rfl⟩ := List.mem_map.mp ho
    exact .inr (.inr ⟨hook, rfl⟩)

/-- What was recorded stays recorded. -/
theorem mem_log_step {a : Action} (h : step config s a = some s') {o : Observation}
    (ho : o ∈ s.log) : o ∈ s'.log := by
  have hlog : ∃ observations : Log, s'.log = s.log ++ observations := by
    by_cases hworker : ∃ b, a = .worker b
    · obtain ⟨b, rfl⟩ := hworker
      obtain ⟨os, hlog, -⟩ := (stepWorker_cases h).log
      exact ⟨os, hlog⟩
    · obtain ⟨os, hlog, -⟩ := log_of_not_worker h fun b hb => hworker ⟨b, hb⟩
      exact ⟨os, hlog⟩
  obtain ⟨os, hlog⟩ := hlog
  rw [hlog]
  exact List.mem_append_left os ho

end Log
end MemoryBus
end TokioEvents
