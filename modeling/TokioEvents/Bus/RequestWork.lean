/-
  TokioEvents.Bus.RequestWork

  How long the requests and the responders of a bus can go on.  A reply does not ask for
  replies, so it is only an event that asks for one that can make a responder publish, and it
  does so at most once for each attempt of each handler that is called with it.

  The measure counts, in this order: the events that ask for replies and are not selected for
  yet, together with the steps of the requests; the attempts at them that are still to come;
  and what the bus has to do by itself.
-/

import TokioEvents.Bus.RpcEffects
import TokioEvents.Bus.Settling

namespace TokioEvents

/-! ## What asks for replies -/

/-- The event asks for a reply. -/
def EventEnvelope.asks (envelope : EventEnvelope) : Bool := envelope.metadata.replyTo.isSome

def ArcEnvelope.asks (event : ArcEnvelope) : Bool := event.envelope.asks

/-- A publish call that may still publish such an event. -/
def PublishCall.ahead (call : PublishCall) : Nat := (call.pending && call.envelope.asks).toNat

def DispatchWorker.ahead : DispatchWorker → Nat
  | .received event => event.asks.toNat
  | _ => 0

/-- The attempts at the event of a task that asks for a reply. -/
def HandlerPhase.due (config : EventBusConfig) : HandlerPhase → Nat
  | .handling event n => event.asks.toNat * (config.maxRetries + 1 - n)
  | .backingOff event n => event.asks.toNat * (config.maxRetries + 1 - n)
  | _ => 0

def HandlerTask.due (config : EventBusConfig) (task : HandlerTask) : Nat :=
  task.channel.buffer.countP ArcEnvelope.asks * (config.maxRetries + 1) + task.phase.due config

def DispatchWorker.due (config : EventBusConfig) : DispatchWorker → Nat
  | .dispatching event sends => event.asks.toNat * (sends.length * (config.maxRetries + 1))
  | _ => 0

namespace MemoryBus

/-- The events that ask for replies and are not selected for. -/
def ahead (s : MemoryBus) : Nat :=
  (s.calls.map PublishCall.ahead).sum + s.sleepers.countP ArcEnvelope.asks +
    s.queue.buffer.countP ArcEnvelope.asks + s.worker.ahead

/-- The attempts that are to come at those that are. -/
def due (config : EventBusConfig) (s : MemoryBus) : Nat :=
  s.worker.due config + Weight.total (HandlerTask.due config) s.tasks

variable {config : EventBusConfig} {s s' : MemoryBus}

/-! ## The steps of the bus -/

theorem ahead_of_pending (call : PublishCall) (h : call.pending = true) :
    call.ahead = call.envelope.asks.toNat := by
  simp [PublishCall.ahead, h]

theorem countP_cons_asks (event : ArcEnvelope) (events : List ArcEnvelope) :
    (event :: events).countP ArcEnvelope.asks
      = events.countP ArcEnvelope.asks + event.asks.toNat := by
  cases hasks : event.asks <;> simp [hasks]

theorem countP_concat_asks (events : List ArcEnvelope) (event : ArcEnvelope) :
    (events ++ [event]).countP ArcEnvelope.asks
      = events.countP ArcEnvelope.asks + event.asks.toNat := by
  cases hasks : event.asks <;> simp [List.countP_append, hasks]

/-- A publish call that asks for a reply is a step ahead until its event is in the queue, or
    with a task of its own. -/
theorem PublisherStep.ahead_le (h : PublisherStep config s s')
    (hcalls : s'.calls.length = s.calls.length) : s'.ahead ≤ s.ahead := by
  have hset : ∀ {n : Nat} {call : PublishCall}, s.calls[n]? = some call → ∀ phase,
      ((s.calls.set n { call with phase := phase }).map PublishCall.ahead).sum + call.ahead
        = (s.calls.map PublishCall.ahead).sum + PublishCall.ahead { call with phase := phase } :=
    fun hcall phase => Weight.sum_set PublishCall.ahead _ hcall
  have hreturned : ∀ (call : PublishCall) result,
      PublishCall.ahead { call with phase := .returned result } = 0 := fun _ _ => rfl
  have hguarded : ∀ {call : PublishCall}, call.guarded = true →
      call.ahead = call.envelope.asks.toNat :=
    fun hg => ahead_of_pending _ (pending_of_guarded hg)
  have hsleeper : ∀ {index : Nat} {event : ArcEnvelope}, s.sleepers[index]? = some event →
      (s.sleepers.eraseIdx index).countP ArcEnvelope.asks + event.asks.toNat
        = s.sleepers.countP ArcEnvelope.asks := by
    intro index event hevent
    obtain ⟨hlt, rfl⟩ := List.getElem?_eq_some_iff.mp hevent
    rw [← countP_cons_asks]
    exact (List.getElem_cons_eraseIdx_perm hlt).countP_eq _
  cases h with
  | publish envelope nonBlocking => simp [MemoryBus.publish] at hcalls
  | @acquire n call hcall hphase =>
    have hwork := hset hcall .checking
    have hbefore := ahead_of_pending call (by simp [PublishCall.pending, hphase])
    have hafter := ahead_of_pending { call with phase := .checking } rfl
    simp only [ahead, setCall] at hwork hafter ⊢
    omega
  | @refuse n call result hcall =>
    have hwork := hset hcall (.returned result)
    rw [hreturned] at hwork
    simp only [ahead, finish, setCall]
    omega
  | @discard n call hcall =>
    have hwork := hset hcall (.returned (.ok call.envelope.eventId))
    rw [hreturned] at hwork
    simp only [ahead, finish, setCall]
    omega
  | @schedule n call dispatcher hcall hphase hdispatcher sleepers hsleepers =>
    have hwork := hset hcall (.returned (.ok call.envelope.eventId))
    rw [hreturned, hguarded (guarded_of_checking hphase)] at hwork
    have hevents : sleepers.countP ArcEnvelope.asks
        ≤ s.sleepers.countP ArcEnvelope.asks + call.envelope.asks.toNat := by
      rw [hsleepers]
      split
      · exact (countP_concat_asks _ _).le
      · exact Nat.le_add_right _ _
    simp only [ahead, finish, setCall]
    omega
  | @await n call dispatcher hcall hphase =>
    have hwork := hset hcall .sending
    have hbefore := hguarded (guarded_of_checking hphase)
    have hafter := ahead_of_pending { call with phase := .sending } rfl
    simp only [ahead, setCall] at hwork hafter ⊢
    omega
  | @enter n call hcall hg =>
    have hwork := hset hcall (.returned (.ok call.envelope.eventId))
    rw [hreturned, hguarded hg] at hwork
    have hevent := countP_concat_asks s.queue.buffer ⟨n, call.envelope⟩
    simp only [ArcEnvelope.asks] at hevent
    simp only [ahead, finish, setCall, enqueue, observe, Mpsc.Channel.push_buffer]
    omega
  | @cancel n call hcall =>
    have hwork := hset hcall .cancelled
    rw [show PublishCall.ahead { call with phase := .cancelled } = 0 from rfl] at hwork
    simp only [ahead, setCall]
    omega
  | @wake index event hevent =>
    have hbefore := hsleeper hevent
    have hafter := countP_concat_asks s.queue.buffer event
    simp only [ahead, enqueue, observe, Mpsc.Channel.push_buffer]
    omega
  | lose hevent =>
    have hbefore := hsleeper hevent
    simp only [ahead]
    omega

/-- No attempt at an event is added, unless an event is off the first part. -/
def Recedes (config : EventBusConfig) (s s' : MemoryBus) : Prop :=
  s'.ahead < s.ahead ∨ s'.ahead ≤ s.ahead ∧ s'.due config ≤ s.due config

/-- The attempts at one event, sent to one subscription. -/
theorem due_erase (config : EventBusConfig) (event : ArcEnvelope) {sends : List Uuid} {id : Uuid}
    (hid : id ∈ sends) :
    (DispatchWorker.dispatching event (sends.erase id)).due config
        + event.asks.toNat * (config.maxRetries + 1)
      = (DispatchWorker.dispatching event sends).due config := by
  have hpos := List.length_pos_of_mem hid
  have hlength : sends.length = (sends.erase id).length + 1 := by
    rw [List.length_erase_of_mem hid]
    omega
  simp only [DispatchWorker.due]
  rw [hlength, Nat.succ_mul]
  exact (Nat.mul_add _ _ _).symm

theorem due_push (task : HandlerTask) (event : ArcEnvelope) :
    HandlerTask.due config { task with channel := task.channel.push event }
      = task.due config + event.asks.toNat * (config.maxRetries + 1) := by
  simp only [HandlerTask.due, Mpsc.Channel.push_buffer, countP_concat_asks, Nat.add_mul]
  omega

/-- **The worker.** An event is selected for, or its sends go on. -/
theorem WorkerStep.recedes {a : WorkerAction} (h : WorkerStep config s a s') :
    s.Recedes config s' := by
  have hstop : s.Recedes config s.stopWorker := by
    refine .inr ⟨?_, ?_⟩
    · simp only [ahead, stopWorker, Mpsc.Channel.dropReceiver, DispatchWorker.ahead,
        List.countP_nil]
      omega
    · simp only [due, stopWorker, DispatchWorker.due]
      omega
  cases h with
  | recv hworker hbuffer =>
    refine .inr ⟨?_, ?_⟩
    · simp only [ahead, hworker, hbuffer, DispatchWorker.ahead, countP_cons_asks]
      omega
    · simp only [due, hworker, DispatchWorker.due]
      omega
  | drained => exact hstop
  | halt => exact hstop
  | panic => exact hstop
  | @select event hworker =>
    cases hasks : event.asks with
    | true =>
      refine .inl ?_
      simp only [ahead, observe, hworker, DispatchWorker.ahead, hasks, Bool.toNat_true]
      omega
    | false =>
      refine .inr ⟨?_, ?_⟩
      · simp only [ahead, observe, hworker, DispatchWorker.ahead, hasks, Bool.toNat_false,
          Nat.le_refl]
      · simp only [due, observe, hworker, DispatchWorker.due, hasks, Bool.toNat_false,
          Nat.zero_mul, Nat.le_refl]
  | @push event sends id task hworker hid htask =>
    refine .inr ⟨?_, ?_⟩
    · simp only [ahead, observe, setTask, hworker, DispatchWorker.ahead, Nat.le_refl]
    · have herase := due_erase config event hid
      have htotal := Weight.total_insert_of_some (HandlerTask.due config)
        { task with channel := task.channel.push event } htask
      rw [due_push] at htotal
      simp only [due, observe, setTask, hworker]
      omega
  | @miss event sends id hworker hid =>
    refine .inr ⟨?_, ?_⟩
    · simp only [ahead, hworker, DispatchWorker.ahead, Nat.le_refl]
    · have herase := due_erase config event hid
      simp only [due, hworker]
      omega
  | finish hworker =>
    refine .inr ⟨?_, ?_⟩
    · simp only [ahead, leaveDispatch, observe, hworker, DispatchWorker.ahead, Nat.le_refl]
    · simp only [due, leaveDispatch, observe, hworker, DispatchWorker.due]
      omega
  | timeout hworker =>
    refine .inr ⟨?_, ?_⟩
    · simp only [ahead, leaveDispatch, observe, hworker, DispatchWorker.ahead, Nat.le_refl]
    · simp only [due, leaveDispatch, observe, hworker, DispatchWorker.due]
      omega

/-! ## Handler tasks -/

/-- What a step makes of a task: no more attempts are to come, and one less where an attempt
    at an event that asks for a reply ends. -/
structure Spends (config : EventBusConfig) (task task' : HandlerTask) : Prop where
  le : task'.due config ≤ task.due config
  lt : ∀ event n, task.phase = .handling event n → event.asks = true → n ≤ config.maxRetries →
    task'.due config < task.due config

/-- The task has no more attempts at the event before it. -/
theorem spends_of_done {task task' : HandlerTask} (hbuffer : task'.channel.buffer = [] ∨
      task'.channel.buffer = task.channel.buffer) (hphase : task'.phase.due config = 0) :
    Spends config task task' := by
  have hevents : task'.channel.buffer.countP ArcEnvelope.asks * (config.maxRetries + 1)
      ≤ task.channel.buffer.countP ArcEnvelope.asks * (config.maxRetries + 1) := by
    refine Nat.mul_le_mul_right _ ?_
    rcases hbuffer with hbuffer | hbuffer
    · rw [hbuffer]
      exact Nat.zero_le _
    · rw [hbuffer]
  refine ⟨?_, fun event n hhandling hasks hn => ?_⟩
  · simp only [HandlerTask.due, hphase]
    omega
  · have hbefore : task.phase.due config = config.maxRetries + 1 - n := by
      simp [hhandling, HandlerPhase.due, hasks]
    simp only [HandlerTask.due, hphase, hbefore]
    omega

/-- **A handler task.** -/
theorem HandlerStep.spends {id : Uuid} {task : HandlerTask} {a : HandlerAction}
    (hretries : config.maxRetries + 1 < 2 ^ 32) (hcounted : (s.journal id).Counted config)
    (htask : s.tasks[id]? = some task) (h : HandlerStep config s id task a s') :
    ∃ task', s'.tasks = s.tasks.insert id task' ∧ Spends config task task' := by
  have hjournal : (s.journal id).task = some (task.channel, task.phase) := journal_task htask
  cases h with
  | @recv event rest hphase hbuffer =>
    refine ⟨_, rfl, ?_, fun event n hhandling => ?_⟩
    · simp only [HandlerTask.due, hphase, hbuffer, HandlerPhase.due, countP_cons_asks, Nat.add_mul,
        Nat.sub_zero]
      omega
    · rw [hphase] at hhandling
      cases hhandling
  | @backOff event n m backoff hphase hafter =>
    -- the next attempt is one closer to the last
    have hn := hcounted.handling _ event n (hphase ▸ hjournal)
    obtain ⟨rfl, hm⟩ := EventBusConfig.retry_attempt (by omega) hafter
    refine ⟨_, rfl, ?_, fun event' n' hhandling hasks hn' => ?_⟩
    · have hle := Nat.mul_le_mul_left event.asks.toNat
        (by omega : config.maxRetries + 1 - (n + 1) ≤ config.maxRetries + 1 - n)
      simp only [HandlerTask.due, hphase, HandlerPhase.due]
      omega
    · rw [hphase] at hhandling
      cases hhandling
      simp only [HandlerTask.due, hphase, HandlerPhase.due, hasks, Bool.toNat_true]
      omega
  | retry hphase =>
    refine ⟨_, rfl, ?_, fun event n hhandling => ?_⟩
    · simp only [HandlerTask.due, hphase, HandlerPhase.due, Nat.le_refl]
    · rw [hphase] at hhandling
      cases hhandling
  | closed => exact ⟨_, rfl, spends_of_done (.inl rfl) rfl⟩
  | interrupt => exact ⟨_, rfl, spends_of_done (.inl rfl) rfl⟩
  | overflow => exact ⟨_, rfl, spends_of_done (.inl rfl) rfl⟩
  | panic => exact ⟨_, rfl, spends_of_done (.inl rfl) rfl⟩
  | cancelled => exact ⟨_, rfl, spends_of_done (.inl rfl) rfl⟩
  | _ => exact ⟨_, rfl, spends_of_done (.inr rfl) rfl⟩

theorem stepHandler_spends {id : Uuid} {a : HandlerAction}
    (hretries : config.maxRetries + 1 < 2 ^ 32) (hcounted : (s.journal id).Counted config)
    (h : s.stepHandler config id a = some s') :
    s'.ahead = s.ahead ∧ ∃ task task', s.tasks[id]? = some task ∧ Spends config task task' ∧
      s'.due config + task.due config = s.due config + task'.due config := by
  obtain ⟨task, htask, hstep⟩ := stepHandler_cases h
  obtain ⟨task', htasks, hspends⟩ := hstep.spends hretries hcounted htask
  have htotal := Weight.total_insert_of_some (HandlerTask.due config) task' htask
  obtain ⟨_, tasks, _, _, _, rfl⟩ := hstep.frame
  refine ⟨rfl, task, task', htask, hspends, ?_⟩
  rw [← show tasks = s.tasks.insert id task' from htasks] at htotal
  simp only [due]
  omega

/-! ## The others -/

theorem SubscriberStep.ahead_eq {a : SubscriberAction} (h : SubscriberStep config s a s') :
    s'.ahead = s.ahead := by
  obtain ⟨_, _, _, _, _, rfl⟩ := h.frame
  rfl

theorem SubscriberStep.due_eq (h : SubscriberStep config s .autoUnsubscribe s') :
    s'.due config = s.due config := by
  cases h with
  | ignore => rfl
  | @autoUnsubscribe id rest hunsubs hid =>
    have htotal := total_abort (HandlerTask.due config) (fun _ => rfl)
      ({ s with unsubs := rest, registry := (s.registry.unregister id).2 }.removeSubscription id) id
    rw [due, htotal]
    obtain ⟨tasks, habort⟩ := abort_eq
      ({ s with unsubs := rest, registry := (s.registry.unregister id).2 }.removeSubscription id) id
    rw [habort]
    rfl

theorem ShutdownStep.ahead_eq {a : ShutdownAction} (h : ShutdownStep s a s') :
    s'.ahead = s.ahead := by
  obtain ⟨_, _, _, _, _, _, _, _, _, rfl⟩ := h.frame
  rfl

theorem ShutdownStep.due_eq {a : ShutdownAction} (h : ShutdownStep s a s') :
    s'.due config = s.due config := by
  cases h with
  | abortAll =>
    have htotal := Weight.total_map (HandlerTask.due config) s.tasks
      (f := fun id task => if id ∈ s.subscriptions then { task with aborted := true } else task)
      fun id task => by split <;> rfl
    simp only [due, shutdownManager, setShutdown, htotal]
  | _ => rfl

/-- **Every step** of the bus's own. -/
theorem recedes_step {a : Action} (hretries : config.maxRetries + 1 < 2 ^ 32)
    (hcounted : ∀ id, (s.journal id).Counted config) (hasked : a.asked = false)
    (h : step config s a = some s') : s.Recedes config s' := by
  cases a with
  | publisher b =>
    have hstep := stepPublisher_cases h
    refine .inr ⟨hstep.ahead_le (length_calls_step hasked h), ?_⟩
    obtain ⟨_, _, _, _, rfl⟩ := hstep.frame
    exact Nat.le_refl _
  | worker b => exact (stepWorker_cases h).recedes
  | handler id b =>
    obtain ⟨hahead, task, task', -, hspends, hdue⟩ :=
      stepHandler_spends hretries (hcounted id) h
    have hle := hspends.le
    exact .inr ⟨hahead.le, by omega⟩
  | subscriber b =>
    have hstep := stepSubscriber_cases h
    cases b with
    | autoUnsubscribe => exact .inr ⟨hstep.ahead_eq.le, hstep.due_eq.le⟩
    | _ => simp [Action.asked] at hasked
  | shutdown b =>
    have hstep := stepShutdown_cases h
    exact .inr ⟨hstep.ahead_eq.le, hstep.due_eq.le⟩

/-- The end of an attempt at an event that asks for a reply. -/
theorem due_lt_of_handling {id : Uuid} {a : HandlerAction} {event : ArcEnvelope}
    (hretries : config.maxRetries + 1 < 2 ^ 32) (hcounted : (s.journal id).Counted config)
    (hhandling : s.handling id = some event) (hasks : event.asks = true)
    (h : s.stepHandler config id a = some s') : s'.due config < s.due config := by
  obtain ⟨-, task, task', htask, hspends, hdue⟩ := stepHandler_spends hretries hcounted h
  obtain ⟨n, hphase⟩ : ∃ n, task.phase = .handling event n := by
    unfold handling at hhandling
    rw [htask] at hhandling
    dsimp only at hhandling
    split at hhandling
    · rename_i event' n hphase
      cases hhandling
      exact ⟨n, hphase⟩
    · cases hhandling
  have hn := hcounted.handling _ event n (hphase ▸ journal_task htask)
  have hlt := hspends.lt event n hphase hasks hn
  omega

theorem ahead_dropCall (config : EventBusConfig) {n : Nat} (h : s.dropCall n = some s') :
    s'.ahead ≤ s.ahead ∧ s'.due config = s.due config ∧ s'.tasks = s.tasks := by
  rcases dropCall_cases config h with rfl | hstep
  · exact ⟨Nat.le_refl _, rfl, rfl⟩
  · have hcancel : PublisherStep config s s' := stepPublisher_cases (a := .cancel n) hstep
    refine ⟨hcancel.ahead_le (length_calls_step rfl hstep), ?_⟩
    obtain ⟨_, _, _, _, rfl⟩ := hcancel.frame
    exact ⟨rfl, rfl⟩

theorem ahead_dropHandle (config : EventBusConfig) (s : MemoryBus) (id : Uuid) :
    (s.dropHandle id).ahead = s.ahead := by
  rcases dropHandle_cases config s id with hsame | hstep
  · rw [hsame]
  · have hsignal : SubscriberStep config s (.signal id) (s.dropHandle id) :=
      stepSubscriber_cases (a := .signal id) hstep
    exact hsignal.ahead_eq

theorem ahead_publish (s : MemoryBus) (envelope : EventEnvelope) :
    (s.publish envelope false).ahead ≤ s.ahead + envelope.asks.toNat := by
  have hle : ∀ phase, PublishCall.ahead ⟨envelope, false, phase⟩ ≤ envelope.asks.toNat := by
    intro phase
    unfold PublishCall.ahead
    cases PublishCall.pending ⟨envelope, false, phase⟩ <;> simp
  have hcall := hle (if s.shutdownState = .running then .acquiring
    else .returned (shuttingDown false))
  simp only [ahead, publish, List.map_append, List.map_cons, List.map_nil, List.sum_append,
    List.sum_cons, List.sum_nil]
  omega

end MemoryBus

/-! ## Requests and responders -/

/-- The steps of a request; it publishes one event that asks for a reply. -/
def RequestPhase.work : RequestPhase → Nat
  | .subscribed => 5
  | .publishing _ => 3
  | .awaiting => 2
  | .closing _ => 1
  | .returned _ => 0
  | .dropped => 0

/-- The step is asked for from outside: a call of `request` or `respond`, or of the bus. -/
def RpcAction.asked : RpcAction → Bool
  | .bus a => a.asked
  | .request _ _ _ _ _ => true
  | .respond _ _ _ => true
  | _ => false

namespace RpcBus

variable {config : EventBusConfig} {s s' : RpcBus}

def requesting (s : RpcBus) : Nat := (s.requests.map fun call => call.phase.work).sum

/-- The responders that are not publishing a reply. -/
def idle (s : RpcBus) : Nat :=
  (s.responders.map fun responder => responder.replying.isNone.toNat).sum

/-- All that is left to do. -/
def work (config : EventBusConfig) (s : RpcBus) : ℕ ×ₗ ℕ ×ₗ ℕ ×ₗ ℕ :=
  toLex (s.bus.ahead + s.requesting, toLex (2 * s.bus.due config + s.idle, s.bus.work config))

theorem work_lt_of_first (h : s'.bus.ahead + s'.requesting < s.bus.ahead + s.requesting) :
    s'.work config < s.work config := Prod.Lex.toLex_lt_toLex.mpr (.inl h)

theorem work_lt_of_second (hfirst : s'.bus.ahead + s'.requesting ≤ s.bus.ahead + s.requesting)
    (h : 2 * s'.bus.due config + s'.idle < 2 * s.bus.due config + s.idle) :
    s'.work config < s.work config := by
  rcases Nat.lt_or_eq_of_le hfirst with hlt | heq
  · exact work_lt_of_first hlt
  · exact Prod.Lex.toLex_lt_toLex.mpr (.inr ⟨heq, Prod.Lex.toLex_lt_toLex.mpr (.inl h)⟩)

/-- The bus goes on by itself. -/
theorem work_lt_of_bus (hrecedes : s.bus.Recedes config s'.bus)
    (hwork : s'.bus.work config < s.bus.work config) (hrequesting : s'.requesting = s.requesting)
    (hidle : s'.idle = s.idle) : s'.work config < s.work config := by
  rcases hrecedes with hahead | ⟨hahead, hdue⟩
  · exact work_lt_of_first (by omega)
  · rcases Nat.lt_or_eq_of_le hahead with hlt | hahead
    · exact work_lt_of_first (by omega)
    · rcases Nat.lt_or_eq_of_le hdue with hlt | hdue
      · exact work_lt_of_second (by omega) (by omega)
      · refine Prod.Lex.toLex_lt_toLex.mpr (.inr ⟨by omega, ?_⟩)
        exact Prod.Lex.toLex_lt_toLex.mpr (.inr ⟨by omega, hwork⟩)

theorem requesting_setRequest {n : Nat} {call : RequestCall} (call' : RequestCall)
    (hcall : s.requests[n]? = some call) :
    (s.setRequest n call').requesting + call.phase.work = s.requesting + call'.phase.work :=
  Weight.sum_set (fun call : RequestCall => call.phase.work) call' hcall

theorem idle_setReplying {n : Nat} {responder : Responder} (replying : Option Nat)
    (hresponder : s.responders[n]? = some responder) :
    (s.setReplying n responder replying).idle + responder.replying.isNone.toNat
      = s.idle + replying.isNone.toNat :=
  Weight.sum_set (fun responder : Responder => responder.replying.isNone.toNat)
    { responder with replying := replying } hresponder

/-- A request goes on to a phase with less to do. -/
theorem work_lt_of_request {n : Nat} {call call' : RequestCall}
    (hcall : s.requests[n]? = some call) (hrequests : s'.requests = s.requests.set n call')
    (hlt : s'.bus.ahead + call'.phase.work < s.bus.ahead + call.phase.work) :
    s'.work config < s.work config := by
  have hset := requesting_setRequest call' hcall
  have hrequesting : s'.requesting = (s.setRequest n call').requesting := by
    rw [requesting, hrequests]
    rfl
  exact work_lt_of_first (by omega)

/-- The handler that publishes replies to an event asks for is called with such an event. -/
def Replying (s : RpcBus) : Prop :=
  ∀ responder ∈ s.responders, ∀ m, responder.replying = some m →
    ∃ event, s.bus.handling responder.subscription = some event ∧ event.asks = true

/-- A responder is through with its reply, and with an attempt. -/
theorem second_lt_of_done {n m : Nat} {responder : Responder}
    (hresponder : s.responders[n]? = some responder) (hm : responder.replying = some m)
    {bus : MemoryBus} (hlt : bus.due config < s.bus.due config) :
    2 * bus.due config + (s.setReplying n responder none).idle
      < 2 * s.bus.due config + s.idle := by
  have hset := idle_setReplying none hresponder
  rw [hm] at hset
  have hidle : (s.setReplying n responder none).idle = s.idle + 1 := hset
  omega

/-- **Every step of the system's own leaves less to do.** -/
theorem RpcStep.work_lt {a : RpcAction} (hretries : config.maxRetries + 1 < 2 ^ 32)
    (hcounted : ∀ id, (s.bus.journal id).Counted config) (hreplying : s.Replying)
    (hasked : a.asked = false) (h : RpcStep config s a s') : s'.work config < s.work config := by
  have hhandler : ∀ {id : Uuid} {b : MemoryBus.HandlerAction} {bus : MemoryBus},
      s.bus.stepHandler config id b = some bus → s.bus.Recedes config bus ∧
        bus.work config < s.bus.work config := by
    intro id b bus hbus
    have hstep : s.bus.step config (.handler id b) = some bus := hbus
    exact ⟨MemoryBus.recedes_step hretries hcounted rfl hstep,
      MemoryBus.work_lt hretries hcounted rfl hstep⟩
  have hdropped : ∀ {m : Nat} {bus : MemoryBus}, s.bus.dropCall m = some bus →
      ∀ id, (bus.journal id).Counted config := by
    intro m bus hdrop id
    rcases MemoryBus.dropCall_cases config hdrop with rfl | hstep
    · exact hcounted id
    · exact (hcounted id).step hretries (MemoryBus.journal_step hstep id)
  cases h with
  | bus hpermits hbus =>
    exact work_lt_of_bus (MemoryBus.recedes_step hretries hcounted hasked hbus)
      (MemoryBus.work_lt hretries hcounted hasked hbus) rfl rfl
  | reject hcall =>
    rcases hcall with ⟨_, _, _, _, _, rfl⟩ | ⟨_, _, _, rfl⟩ <;> cases hasked
  | request => cases hasked
  | respond => cases hasked
  | @publishRequest n call eventId timestamp hcall hphase =>
    refine work_lt_of_request hcall rfl ?_
    have hahead := MemoryBus.ahead_publish s.bus (call.envelope eventId timestamp)
    have hone := Bool.toNat_le (call.envelope eventId timestamp).asks
    simp only [setRequest, hphase, RequestPhase.work]
    omega
  | awaitReply hcall hphase =>
    refine work_lt_of_request hcall rfl ?_
    simp only [setRequest, hphase, RequestPhase.work]
    omega
  | failRequest hcall hphase =>
    refine work_lt_of_request hcall rfl ?_
    simp only [setRequest, hphase, RequestPhase.work, MemoryBus.ahead_dropHandle config]
    omega
  | conclude _ hcall hphase =>
    refine work_lt_of_request hcall rfl ?_
    simp only [setRequest, hphase, RequestPhase.work]
    omega
  | @close n call response hcall hphase =>
    refine work_lt_of_request hcall rfl ?_
    have hunsubscribe : MemoryBus.SubscriberStep config s.bus (.unsubscribe call.subscription)
        (s.bus.unsubscribe call.subscription) := MemoryBus.unsubscribe_cases call.subscription
    have hahead := hunsubscribe.ahead_eq
    simp only [setRequest, hphase, RequestPhase.work, MemoryBus.ahead_dropHandle config, hahead]
    omega
  | dropPublishing hcall hphase hdrop =>
    refine work_lt_of_request hcall rfl ?_
    have hahead := (MemoryBus.ahead_dropCall config hdrop).1
    simp only [setRequest, hphase, RequestPhase.work, MemoryBus.ahead_dropHandle config]
    omega
  | dropAwaiting hcall hphase =>
    refine work_lt_of_request hcall rfl ?_
    simp only [setRequest, hphase, RequestPhase.work, MemoryBus.ahead_dropHandle config]
    omega
  | @deliver n call call' outcome bus hcall hpanic hbus hsame =>
    obtain ⟨hrecedes, hwork⟩ := hhandler hbus
    have hset := requesting_setRequest call' hcall
    rw [hsame.2.2] at hset
    exact work_lt_of_bus hrecedes hwork (Nat.add_right_cancel hset) rfl
  | answer ha hresponder _ _ hbus =>
    obtain ⟨hrecedes, hwork⟩ := hhandler hbus
    exact work_lt_of_bus hrecedes hwork rfl rfl
  | @reply n responder event reply _ _ _ computed hresponder hfree _ _ hreply =>
    -- the reply asks for none
    have hahead := MemoryBus.ahead_publish s.bus reply
    rw [EventEnvelope.asks, hreply] at hahead
    have hset := idle_setReplying (some s.bus.calls.length) hresponder
    rw [hfree] at hset
    refine work_lt_of_second ?_ ?_
    · exact Nat.add_le_add_right hahead s.requesting
    · exact Nat.add_lt_add_left (Nat.lt_of_succ_le hset.le) _
  | @replied n m responder result bus hresponder hm hresult hbus =>
    obtain ⟨event, hhandling, hasks⟩ := hreplying responder (List.mem_of_getElem? hresponder) m hm
    have hlt := MemoryBus.due_lt_of_handling hretries (hcounted _) hhandling hasks hbus
    have hahead := (MemoryBus.stepHandler_spends hretries (hcounted _) hbus).1
    refine work_lt_of_second (Nat.add_le_add_right hahead.le s.requesting) ?_
    exact second_lt_of_done hresponder hm hlt
  | @cancelReply n m responder bus bus' hresponder hm hdrop hbus =>
    obtain ⟨event, hhandling, hasks⟩ := hreplying responder (List.mem_of_getElem? hresponder) m hm
    obtain ⟨hahead, hdue, htasks⟩ := MemoryBus.ahead_dropCall config hdrop
    have hcounted' := hdropped hdrop responder.subscription
    have hhandling' : bus.handling responder.subscription = some event := by
      rw [MemoryBus.handling, htasks]
      exact hhandling
    have hlt := MemoryBus.due_lt_of_handling hretries hcounted' hhandling' hasks hbus
    have hahead' := (MemoryBus.stepHandler_spends hretries hcounted' hbus).1
    refine work_lt_of_second (Nat.add_le_add_right (hahead'.trans_le hahead) s.requesting) ?_
    exact second_lt_of_done hresponder hm (hdue ▸ hlt)

end RpcBus
end TokioEvents
