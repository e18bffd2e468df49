/-
  TokioEvents.Bus.Settling

  What becomes of an in-memory bus of which nothing more is asked.  Every step of its own
  takes a measure down, so it comes to rest, with or without a shutdown going on; and where
  it rests nothing is left undone: every publish call and every shutdown call has returned,
  and no event is left in the queue or with a handler.  Only a handler that waits for room
  in a dead letter queue that nobody empties can keep it from that.

  The measure has two parts.  What an event weighs before its subscriptions are selected is
  in the first; the second counts the sends and what the handler tasks still have to do, and
  a selection may raise it.
-/

import Mathlib.Data.Prod.Lex
import TokioEvents.Bus.Accounting
import TokioEvents.Bus.Capacity
import TokioEvents.Bus.ShutdownOnce
import TokioEvents.Bus.Stopped
import TokioEvents.Lib.Settling

namespace TokioEvents

/-! ## The measure -/

/-- The steps a publish call can still cause, until its event is selected for. -/
def PublishCall.work (call : PublishCall) : Nat :=
  match call.phase with
  | .acquiring => 6
  | .checking => 5
  | .sending => 4
  | _ => 0

/-- The steps of the worker, until it receives again. -/
def DispatchWorker.work : DispatchWorker → Nat
  | .receiving => 1
  | .received _ => 3
  | .dispatching _ _ => 2
  | .stopped => 0

/-- The steps of a shutdown call, with so many hooks and subscriptions. -/
def ShutdownPhase.work (hooks subscriptions : Nat) : ShutdownPhase → Nat
  | .lockingHooks => 8 + hooks + 2 * subscriptions
  | .runningHooks next => 7 + (hooks - next) + 2 * subscriptions
  | .lockingDispatcher => 6 + 2 * subscriptions
  | .joining => 5 + 2 * subscriptions
  | .closing => 4 + 2 * subscriptions
  | .removing ids handles => 3 + 2 * ids.length + handles.length
  | .awaiting handles => 2 + handles.length
  | .storing => 1
  | .returned => 0
  | .dropped => 0

/-- Fewer subscriptions are less work for a shutdown. -/
theorem ShutdownPhase.work_le (hooks : Nat) {n m : Nat} (h : n ≤ m) (phase : ShutdownPhase) :
    phase.work hooks n ≤ phase.work hooks m := by
  cases phase <;> simp only [ShutdownPhase.work] <;> omega

/-- The handles that a shutdown call has taken out of the manager. -/
def ShutdownPhase.handles : ShutdownPhase → List Uuid
  | .removing _ handles => handles
  | .awaiting handles => handles
  | _ => []

/-- The steps of a handler task with the event it is busy with. -/
def HandlerPhase.work (config : EventBusConfig) : HandlerPhase → Nat
  | .selecting => 2
  | .handling _ n => 4 + 2 * (config.maxRetries + 1 - n)
  | .deadLettering _ => 3
  | .backingOff _ n => 5 + 2 * (config.maxRetries + 1 - n)
  | .ended => 0

/-- The steps of a handler task. -/
def HandlerTask.work (config : EventBusConfig) (task : HandlerTask) : Nat :=
  task.channel.buffer.length * (2 * config.maxRetries + 8) + task.phase.work config

/-! ## The retries

The retries of a handler task are counted, so it is through with an event some time. -/

namespace Journal

/-- No attempt and no backoff goes past the retries. -/
structure Counted (config : EventBusConfig) (j : Journal) : Prop where
  handling : ∀ channel event n, j.task = some (channel, .handling event n) →
    n ≤ config.maxRetries
  backingOff : ∀ channel event n, j.task = some (channel, .backingOff event n) →
    n ≤ config.maxRetries

variable {config : EventBusConfig} {dlq : Bool} {a : Option MemoryBus.HandlerAction}
  {j j' : Journal}

theorem Counted.of_phase {channel : Mpsc.Channel ArcEnvelope} {phase : HandlerPhase}
    {entries : List (Mark × Nat)} (hhandling : ∀ event n, phase = .handling event n →
      n ≤ config.maxRetries)
    (hbackingOff : ∀ event n, phase = .backingOff event n → n ≤ config.maxRetries) :
    (j.write (channel, phase) entries).Counted config where
  handling _ event n htask := hhandling event n (Prod.mk.inj (Option.some.inj htask)).2
  backingOff _ event n htask := hbackingOff event n (Prod.mk.inj (Option.some.inj htask)).2

theorem Counted.step (hretries : config.maxRetries + 1 < 2 ^ 32) (h : j.Counted config)
    (hstep : j.Step config dlq a j') : j'.Counted config := by
  cases hstep with
  | idle => exact h
  | push htask =>
    refine .of_phase (fun event n hphase => ?_) fun event n hphase => ?_
    · exact h.handling _ event n (hphase ▸ htask)
    · exact h.backingOff _ event n (hphase ▸ htask)
  | recv =>
    refine .of_phase (fun event n hphase => ?_) (by simp)
    cases hphase
    exact Nat.zero_le _
  | @backOff channel event n m backoff htask hafter =>
    refine .of_phase (by simp) fun event' m' hphase => ?_
    cases hphase
    have hn := h.handling _ _ _ htask
    exact (EventBusConfig.retry_attempt (by omega) hafter).2
  | retry htask =>
    refine .of_phase (fun event n hphase => ?_) (by simp)
    cases hphase
    exact h.backingOff _ _ _ htask
  | _ => exact .of_phase (by simp) (by simp)

end Journal

namespace MemoryBus

/-- The steps of the shutdown calls. -/
def shutdownWork (s : MemoryBus) : Nat :=
  (s.shutdowns.map fun call => call.phase.work s.hooks s.subscriptions.length).sum

/-- What is left to do up to the selections. -/
def front (s : MemoryBus) : Nat :=
  (s.calls.map PublishCall.work).sum + 4 * s.sleepers.length + 3 * s.queue.buffer.length +
    s.worker.work + s.shutdownWork

/-- What is left to do after them. -/
def back (config : EventBusConfig) (s : MemoryBus) : Nat :=
  (2 * config.maxRetries + 9) * s.worker.sends.length +
    Weight.total (HandlerTask.work config) s.tasks + s.unsubs.length

/-- All that is left to do. -/
def work (config : EventBusConfig) (s : MemoryBus) : ℕ ×ₗ ℕ := toLex (s.front, s.back config)

/-- The step is asked for from outside: a call, a signal, or the consumer of the dead letter
    queue. -/
def Action.asked : Action → Bool
  | .publisher (.publish _ _) => true
  | .subscriber .autoUnsubscribe => false
  | .subscriber _ => true
  | .shutdown .registerHook => true
  | .shutdown (.begin _) => true
  | _ => false

variable {config : EventBusConfig} {s s' : MemoryBus}

theorem work_lt_of_front (h : s'.front < s.front) : s'.work config < s.work config :=
  Prod.Lex.toLex_lt_toLex.mpr (.inl h)

theorem work_lt_of_back (hfront : s'.front ≤ s.front) (h : s'.back config < s.back config) :
    s'.work config < s.work config := by
  rcases Nat.lt_or_eq_of_le hfront with hlt | heq
  · exact work_lt_of_front hlt
  · exact Prod.Lex.toLex_lt_toLex.mpr (.inr ⟨heq, h⟩)

/-! ## The steps of the parties -/

/-- **Publishers.** Only `publish` makes a call. -/
theorem PublisherStep.front_lt (h : PublisherStep config s s')
    (hcalls : s'.calls.length = s.calls.length) : s'.front < s.front := by
  have hset : ∀ {n : Nat} {call : PublishCall}, s.calls[n]? = some call → ∀ phase,
      ((s.calls.set n { call with phase := phase }).map PublishCall.work).sum + call.work
        = (s.calls.map PublishCall.work).sum + PublishCall.work { call with phase := phase } :=
    fun hcall phase => Weight.sum_set PublishCall.work _ hcall
  have hguarded : ∀ {call : PublishCall}, call.guarded = true → 4 ≤ call.work := by
    intro call hg
    cases hphase : call.phase <;> simp_all [PublishCall.guarded, PublishCall.work]
  have hsleeper : ∀ {index : Nat} {event : ArcEnvelope}, s.sleepers[index]? = some event →
      (s.sleepers.eraseIdx index).length + 1 = s.sleepers.length := by
    intro index event hevent
    have hlt := (List.getElem?_eq_some_iff.mp hevent).1
    rw [List.length_eraseIdx_of_lt hlt]
    omega
  cases h with
  | publish envelope nonBlocking => simp [MemoryBus.publish] at hcalls
  | acquire hcall hphase hlock =>
    have hwork := hset hcall .checking
    simp only [PublishCall.work, hphase] at hwork
    simp only [front, setCall, shutdownWork]
    omega
  | @refuse n call result hcall hg hresult =>
    have hwork := hset hcall (.returned result)
    have hbefore := hguarded hg
    rw [show PublishCall.work { call with phase := .returned result } = 0 from rfl] at hwork
    simp only [front, finish, setCall, shutdownWork]
    omega
  | @discard n call hcall hg hdrop =>
    have hwork := hset hcall (.returned (.ok call.envelope.eventId))
    have hbefore := hguarded hg
    rw [show PublishCall.work { call with phase := .returned _ } = 0 from rfl] at hwork
    simp only [front, finish, setCall, shutdownWork]
    omega
  | @schedule n call dispatcher hcall hphase hdispatcher sleepers hsleepers =>
    have hwork := hset hcall (.returned (.ok call.envelope.eventId))
    rw [show PublishCall.work { call with phase := .returned _ } = 0 from rfl] at hwork
    have hbefore : call.work = 5 := by simp [PublishCall.work, hphase]
    have hlength : sleepers.length ≤ s.sleepers.length + 1 := by
      rw [hsleepers]
      split <;> simp
    simp only [front, finish, setCall, shutdownWork]
    omega
  | await hcall hphase =>
    have hwork := hset hcall .sending
    simp only [PublishCall.work, hphase] at hwork
    simp only [front, setCall, shutdownWork]
    omega
  | @enter n call hcall hg haccepts =>
    have hwork := hset hcall (.returned (.ok call.envelope.eventId))
    have hbefore := hguarded hg
    rw [show PublishCall.work { call with phase := .returned _ } = 0 from rfl] at hwork
    simp only [front, finish, setCall, enqueue, observe, shutdownWork, Mpsc.Channel.push_buffer,
      List.length_append, List.length_singleton]
    omega
  | @cancel n call hcall hphase =>
    have hwork := hset hcall .cancelled
    rw [show PublishCall.work { call with phase := .cancelled } = 0 from rfl] at hwork
    have hbefore : 4 ≤ call.work := by
      unfold PublishCall.work
      rcases hphase with hphase | hphase <;> simp [hphase]
    simp only [front, setCall, shutdownWork]
    omega
  | wake hevent haccepts =>
    have hlength := hsleeper hevent
    simp only [front, enqueue, observe, shutdownWork, Mpsc.Channel.push_buffer,
      List.length_append, List.length_singleton]
    omega
  | lose hevent hclosed =>
    have hlength := hsleeper hevent
    simp only [front, shutdownWork]
    omega

/-- **The worker.** An event that is received, selected for or left behind is off the first
    part, and a send that completes is off the second. -/
theorem WorkerStep.work_lt {a : WorkerAction} (h : WorkerStep config s a s') :
    s'.work config < s.work config := by
  have herase : ∀ {id : Uuid} {sends : List Uuid}, id ∈ sends →
      (sends.erase id).length + 1 = sends.length := by
    intro id sends hid
    have hpos := List.length_pos_of_mem hid
    rw [List.length_erase_of_mem hid]
    omega
  have hends : 0 < s.worker.work → s.stopWorker.work config < s.work config := by
    intro hpos
    refine work_lt_of_front ?_
    have hstopped : DispatchWorker.stopped.work = 0 := rfl
    simp only [front, stopWorker, shutdownWork, hstopped, Mpsc.Channel.dropReceiver,
      List.length_nil]
    omega
  cases h with
  | recv hworker hbuffer =>
    refine work_lt_of_front ?_
    simp only [front, shutdownWork, hworker, hbuffer, DispatchWorker.work, List.length_cons]
    omega
  | drained hworker => exact hends (by simp [hworker, DispatchWorker.work])
  | halt hworker => exact hends (by simp [hworker, DispatchWorker.work])
  | panic hworker => exact hends (by simp [hworker, DispatchWorker.work])
  | select hworker =>
    refine work_lt_of_front ?_
    simp only [front, observe, shutdownWork, hworker, DispatchWorker.work]
    omega
  | @push event sends id task hworker hid htask haccepts =>
    refine work_lt_of_back ?_ ?_
    · simp only [front, observe, setTask, shutdownWork, hworker, DispatchWorker.work, Nat.le_refl]
    · have hsends := herase hid
      have htotal := Weight.total_insert_of_some (HandlerTask.work config)
        { task with channel := task.channel.push event } htask
      simp only [HandlerTask.work, Mpsc.Channel.push_buffer, List.length_append,
        List.length_singleton, Nat.add_mul] at htotal
      have hmul := congrArg ((2 * config.maxRetries + 9) * ·) hsends
      simp only [Nat.mul_succ] at hmul
      simp only [back, observe, setTask, hworker, DispatchWorker.sends]
      omega
  | @miss event sends id hworker hid =>
    refine work_lt_of_back ?_ ?_
    · simp only [front, shutdownWork, hworker, DispatchWorker.work, Nat.le_refl]
    · have hmul := congrArg ((2 * config.maxRetries + 9) * ·) (herase hid)
      simp only [Nat.mul_succ] at hmul
      simp only [back, hworker, DispatchWorker.sends]
      omega
  | finish hworker =>
    refine work_lt_of_front ?_
    simp only [front, leaveDispatch, observe, shutdownWork, hworker, DispatchWorker.work]
    omega
  | timeout hworker =>
    refine work_lt_of_front ?_
    simp only [front, leaveDispatch, observe, shutdownWork, hworker, DispatchWorker.work]
    omega

/-- **Handler tasks.** A task that goes on takes its own measure down, and leaves the first
    part alone. -/
theorem work_lt_of_task {id : Uuid} {task task' : HandlerTask} (unsubs : List Uuid)
    (htask : s.tasks[id]? = some task) (hfront : s'.front = s.front)
    (hsends : s'.worker = s.worker) (htasks : s'.tasks = s.tasks.insert id task')
    (hunsubs : s'.unsubs = s.unsubs ++ unsubs)
    (hlt : task'.work config + unsubs.length < task.work config) :
    s'.work config < s.work config := by
  refine work_lt_of_back hfront.le ?_
  have htotal := Weight.total_insert_of_some (HandlerTask.work config) task' htask
  simp only [back, hsends, htasks, hunsubs, List.length_append]
  omega

theorem HandlerStep.work_lt {id : Uuid} {task : HandlerTask} {a : HandlerAction}
    (hretries : config.maxRetries + 1 < 2 ^ 32) (hcounted : (s.journal id).Counted config)
    (htask : s.tasks[id]? = some task) (h : HandlerStep config s id task a s') :
    s'.work config < s.work config := by
  have hjournal : (s.journal id).task = some (task.channel, task.phase) := journal_task htask
  cases h with
  | @recv event rest hphase hbuffer =>
    refine work_lt_of_task [] htask rfl rfl rfl (List.append_nil _).symm ?_
    simp only [HandlerTask.work, hphase, hbuffer, HandlerPhase.work, List.length_cons,
      List.length_nil, Nat.succ_mul]
    omega
  | closed hphase =>
    refine work_lt_of_task [id] htask rfl rfl rfl rfl ?_
    simp only [HandlerTask.work, hphase, HandlerPhase.work, Mpsc.Channel.dropReceiver,
      List.length_nil, List.length_singleton]
    omega
  | interrupt hphase =>
    refine work_lt_of_task [id] htask rfl rfl rfl rfl ?_
    simp only [HandlerTask.work, hphase, HandlerPhase.work, Mpsc.Channel.dropReceiver,
      List.length_nil, List.length_singleton]
    omega
  | ack hphase =>
    refine work_lt_of_task [] htask rfl rfl rfl (List.append_nil _).symm ?_
    simp only [HandlerTask.work, hphase, HandlerPhase.work, List.length_nil]
    omega
  | giveUp hphase =>
    refine work_lt_of_task [] htask rfl rfl rfl (List.append_nil _).symm ?_
    simp only [HandlerTask.work, hphase, HandlerPhase.work, List.length_nil]
    omega
  | fail hphase =>
    refine work_lt_of_task [] htask rfl rfl rfl (List.append_nil _).symm ?_
    simp only [HandlerTask.work, hphase, HandlerPhase.work, List.length_nil]
    omega
  | @backOff event n m backoff hphase hafter =>
    -- the next attempt is one closer to the last
    have hn := hcounted.handling _ event n (hphase ▸ hjournal)
    obtain ⟨rfl, hm⟩ := EventBusConfig.retry_attempt (by omega) hafter
    refine work_lt_of_task [] htask rfl rfl rfl (List.append_nil _).symm ?_
    simp only [HandlerTask.work, hphase, HandlerPhase.work, List.length_nil]
    omega
  | overflow hphase =>
    refine work_lt_of_task [] htask rfl rfl rfl (List.append_nil _).symm ?_
    simp only [HandlerTask.work, hphase, HandlerPhase.work, Mpsc.Channel.dropReceiver,
      List.length_nil]
    omega
  | panic hphase =>
    refine work_lt_of_task [] htask rfl rfl rfl (List.append_nil _).symm ?_
    simp only [HandlerTask.work, hphase, HandlerPhase.work, Mpsc.Channel.dropReceiver,
      List.length_nil]
    omega
  | deadLetter hphase =>
    refine work_lt_of_task [] htask rfl rfl rfl (List.append_nil _).symm ?_
    simp only [HandlerTask.work, hphase, HandlerPhase.work, List.length_nil]
    omega
  | retry hphase =>
    refine work_lt_of_task [] htask rfl rfl rfl (List.append_nil _).symm ?_
    simp only [HandlerTask.work, hphase, HandlerPhase.work, List.length_nil]
    omega
  | cancelled hphase =>
    refine work_lt_of_task [] htask rfl rfl rfl (List.append_nil _).symm ?_
    have hopen : 0 < task.phase.work config := by
      cases hp : task.phase with
      | ended => exact absurd hp hphase
      | _ => simp only [HandlerPhase.work]; omega
    have hended : HandlerPhase.ended.work config = 0 := rfl
    simp only [HandlerTask.work, hended, Mpsc.Channel.dropReceiver, List.length_nil]
    omega

theorem total_abort (weight : HandlerTask → Nat)
    (hweight : ∀ task, weight { task with aborted := true } = weight task) (s : MemoryBus)
    (id : Uuid) : Weight.total weight (s.abort id).tasks = Weight.total weight s.tasks := by
  unfold abort
  split
  · rename_i task htask
    have htotal := Weight.total_insert_of_some weight { task with aborted := true } htask
    rw [hweight] at htotal
    exact Nat.add_right_cancel htotal
  · rfl

/-- **The auto-unsubscribe worker.** It has one id less to take, and takes nothing but
    subscriptions away. -/
theorem SubscriberStep.work_lt (h : SubscriberStep config s .autoUnsubscribe s') :
    s'.work config < s.work config := by
  cases h with
  | ignore hunsubs hid =>
    refine work_lt_of_back (Nat.le_refl _) ?_
    simp only [back, hunsubs, List.length_cons]
    omega
  | @autoUnsubscribe id rest hunsubs hid =>
    refine work_lt_of_back ?_ ?_
    · have hshutdowns := Weight.sum_le (fun call : ShutdownCall => ShutdownPhase.work_le
        s.hooks (List.length_filter_le (· != id) s.subscriptions) call.phase) s.shutdowns
      rw [front, shutdownWork, subscriptions_abort]
      obtain ⟨tasks, habort⟩ := abort_eq
        ({ s with
          unsubs := rest
          registry := (s.registry.unregister id).2 }.removeSubscription id) id
      rw [habort]
      simp only [front, shutdownWork, removeSubscription]
      omega
    · rw [back, total_abort (HandlerTask.work config) fun _ => rfl, unsubs_abort]
      obtain ⟨tasks, habort⟩ := abort_eq
        ({ s with
          unsubs := rest
          registry := (s.registry.unregister id).2 }.removeSubscription id) id
      rw [habort]
      simp only [back, removeSubscription, hunsubs, List.length_cons]
      omega

/-- A shutdown call goes on to a phase with less to do. -/
theorem front_lt_of_call {n : Nat} {call : ShutdownCall} {phase : ShutdownPhase}
    (hcall : s.shutdowns[n]? = some call) (hcalls : s'.calls = s.calls)
    (hsleepers : s'.sleepers = s.sleepers) (hqueue : s'.queue = s.queue)
    (hworker : s'.worker = s.worker) (hhooks : s'.hooks = s.hooks)
    (hsubscriptions : s'.subscriptions.length ≤ s.subscriptions.length)
    (hshutdowns : s'.shutdowns = s.shutdowns.set n { call with phase := phase })
    (hlt : phase.work s.hooks s.subscriptions.length
      < call.phase.work s.hooks s.subscriptions.length) : s'.front < s.front := by
  have hset := Weight.sum_set
    (fun call : ShutdownCall => call.phase.work s.hooks s.subscriptions.length)
    { call with phase := phase } hcall
  have hle := Weight.sum_le (fun call : ShutdownCall => ShutdownPhase.work_le s.hooks
    hsubscriptions call.phase) (s.shutdowns.set n { call with phase := phase })
  dsimp only at hset
  simp only [front, shutdownWork, hcalls, hsleepers, hqueue, hworker, hhooks, hshutdowns]
  omega

/-- **Shutdown calls.** Only `register_shutdown_hook` and a new call add to what is to do. -/
theorem ShutdownStep.front_lt {b : ShutdownAction} (h : ShutdownStep s b s')
    (hasked : Action.asked (.shutdown b) = false) : s'.front < s.front := by
  have hsame := Nat.le_refl s.subscriptions.length
  cases h with
  | registerHook => simp [Action.asked] at hasked
  | begin => simp [Action.asked] at hasked
  | lockHooks hcall hphase =>
    refine front_lt_of_call hcall rfl rfl rfl rfl rfl hsame rfl ?_
    simp only [hphase, ShutdownPhase.work]
    omega
  | runHook hcall hphase hnext =>
    refine front_lt_of_call hcall rfl rfl rfl rfl rfl hsame rfl ?_
    simp only [hphase, ShutdownPhase.work]
    omega
  | releaseHooks hcall hphase =>
    refine front_lt_of_call hcall rfl rfl rfl rfl rfl hsame rfl ?_
    simp only [hphase, ShutdownPhase.work]
    omega
  | noDispatcher hcall hphase =>
    refine front_lt_of_call hcall rfl rfl rfl rfl rfl hsame rfl ?_
    simp only [hphase, ShutdownPhase.work]
    omega
  | takeDispatcher hcall hphase =>
    refine front_lt_of_call hcall rfl rfl rfl rfl rfl hsame rfl ?_
    simp only [hphase, ShutdownPhase.work]
    omega
  | skipJoin hcall hphase =>
    refine front_lt_of_call hcall rfl rfl rfl rfl rfl hsame rfl ?_
    simp only [hphase, ShutdownPhase.work]
    omega
  | join hcall hphase =>
    refine front_lt_of_call hcall rfl rfl rfl rfl rfl hsame rfl ?_
    simp only [hphase, ShutdownPhase.work]
    omega
  | collect hcall hphase =>
    refine front_lt_of_call hcall rfl rfl rfl rfl rfl hsame rfl ?_
    simp only [hphase, ShutdownPhase.work, List.length_nil]
    omega
  | abortAll hcall hphase =>
    refine front_lt_of_call hcall rfl rfl rfl rfl rfl (Nat.zero_le _) rfl ?_
    simp only [hphase, ShutdownPhase.work]
    omega
  | remove hcall hphase =>
    refine front_lt_of_call hcall rfl rfl rfl rfl rfl (List.length_filter_le _ _) rfl ?_
    simp only [hphase, ShutdownPhase.work, List.length_cons, List.length_append, List.length_nil]
    omega
  | skip hcall hphase =>
    refine front_lt_of_call hcall rfl rfl rfl rfl rfl hsame rfl ?_
    simp only [hphase, ShutdownPhase.work, List.length_cons]
    omega
  | await hcall hphase =>
    refine front_lt_of_call hcall rfl rfl rfl rfl rfl hsame rfl ?_
    simp only [hphase, ShutdownPhase.work, List.length_nil]
    omega
  | joinTask hcall hphase =>
    refine front_lt_of_call hcall rfl rfl rfl rfl rfl hsame rfl ?_
    simp only [hphase, ShutdownPhase.work, List.length_cons]
    omega
  | joinedAll hcall hphase =>
    refine front_lt_of_call hcall rfl rfl rfl rfl rfl hsame rfl ?_
    simp only [hphase, ShutdownPhase.work, List.length_nil]
    omega
  | store hcall hphase =>
    refine front_lt_of_call hcall rfl rfl rfl rfl rfl hsame rfl ?_
    simp only [hphase, ShutdownPhase.work]
    omega
  | timeout hcall hgraceful hphase =>
    refine front_lt_of_call hcall rfl rfl rfl rfl rfl hsame rfl ?_
    rcases hphase with hphase | hphase
    · simp only [hphase, ShutdownPhase.work]
      omega
    · simp only [hphase, ShutdownPhase.work]
      omega
  | @drop n call hcall hphase =>
    refine front_lt_of_call hcall rfl rfl rfl rfl rfl hsame rfl ?_
    cases hp : call.phase <;> simp [hp, ShutdownPhase.awaits] at hphase <;>
      simp only [ShutdownPhase.work] <;> omega

/-- Only `publish` makes a call. -/
theorem length_calls_step {a : Action} (hasked : a.asked = false)
    (h : step config s a = some s') : s'.calls.length = s.calls.length := by
  have hnone : a.publishes = [] := by
    cases a with
    | publisher b => cases b <;> simp_all [Action.asked, Action.publishes]
    | _ => rfl
  have hpublished := congrArg List.length (published_step h)
  rwa [hnone, List.append_nil, published, published, List.length_map, List.length_map]
    at hpublished

/-- **Every step of the bus's own leaves less to do.** -/
theorem work_lt {a : Action} (hretries : config.maxRetries + 1 < 2 ^ 32)
    (hcounted : ∀ id, (s.journal id).Counted config) (hasked : a.asked = false)
    (h : step config s a = some s') : s'.work config < s.work config := by
  cases a with
  | publisher b =>
    exact work_lt_of_front ((stepPublisher_cases h).front_lt (length_calls_step hasked h))
  | worker b => exact (stepWorker_cases h).work_lt
  | handler id b =>
    obtain ⟨task, htask, hstep⟩ := stepHandler_cases h
    exact hstep.work_lt hretries (hcounted id) htask
  | subscriber b =>
    cases b with
    | autoUnsubscribe => exact (stepSubscriber_cases (a := .autoUnsubscribe) h).work_lt
    | _ => simp [Action.asked] at hasked
  | shutdown b => exact work_lt_of_front ((stepShutdown_cases h).front_lt hasked)

/-! ## Where the bus comes to rest -/

/-- The step is one that the program takes when nothing goes wrong: no timeout strikes, no
    task panics or is aborted, and no caller gives up.  Every handler that is called returns. -/
def Action.driven : Action → Bool
  | .publisher (.publish _ _) => false
  | .publisher (.cancel _) => false
  | .publisher _ => true
  | .worker .timeout => false
  | .worker .panic => false
  | .worker _ => true
  | .handler _ .cancelled => false
  | .handler _ _ => true
  | .subscriber .autoUnsubscribe => true
  | .shutdown (.advance _) => true
  | _ => false

/-- And no handler has to return for it. -/
def Action.paced : Action → Bool
  | .handler _ (.outcome _) => false
  | a => a.driven

theorem Action.driven_of_paced {a : Action} (h : a.paced = true) : a.driven = true := by
  cases a with
  | handler id b => cases b <;> first | rfl | cases h
  | _ => exact h

/-- The worker waits for events, or has ended, and the queue is empty. -/
def WorkerRests (s : MemoryBus) : Prop :=
  s.queue.buffer = [] ∧ (s.worker = .receiving ∨ s.worker = .stopped)

/-- Nothing is left to do. -/
structure Idle (s : MemoryBus) : Prop where
  calls : ∀ call ∈ s.calls, call.pending = false
  sleepers : s.sleepers = []
  queue : s.queue.buffer = []
  worker : s.worker = .receiving ∨ s.worker = .stopped
  tasks : ∀ (id : Uuid) task, s.tasks[id]? = some task → task.held = []
  unsubs : s.unsubs = []
  shutdowns : ∀ call ∈ s.shutdowns, call.phase = .returned ∨ call.phase = .dropped

/-- A handler task waits for room in the dead letter queue, and the consumer holds on to the
    queue. -/
def DlqBlocked (config : EventBusConfig) (s : MemoryBus) : Prop :=
  (∃ (id : Uuid) (task : HandlerTask) (event : ArcEnvelope), s.tasks[id]? = some task ∧
    task.phase = .deadLettering event) ∧
  ∃ dlq, s.dlq = some dlq ∧ dlq.receiver = true ∧ dlq.buffer.length = config.dlqChannelSize

/-- What a shutdown call has taken away stays away. -/
structure TakenAway (s : MemoryBus) (phase : ShutdownPhase) : Prop where
  dispatcher : phase = .joining → s.dispatcher = none
  handles : ∀ id ∈ phase.handles, id ∉ s.subscriptions ∧ (s.tasks[id]?).isSome

theorem TakenAway.step {a : Action} {phase : ShutdownPhase} (hs : s.TakenAway phase)
    (h : step config s a = some s') : s'.TakenAway phase where
  dispatcher hphase := by
    have hkept : Kept s s' [] := kept_step h (by simp)
    exact hkept.dispatcher (hs.dispatcher hphase)
  handles id hid := by
    have hkept : Kept s s' phase.handles := kept_step h fun id hid => (hs.handles id hid).2
    obtain ⟨hgone, htask⟩ := hs.handles id hid
    exact ⟨fun hsub => hgone (hkept.subscriptions id hid hsub), isSome_task_step h htask⟩

/-- A phase that has taken nothing away. -/
theorem takenAway_of_none {phase : ShutdownPhase} (hjoining : phase ≠ .joining)
    (hhandles : phase.handles = []) : s.TakenAway phase where
  dispatcher hphase := absurd hphase hjoining
  handles id hid := by simp [hhandles] at hid

theorem ShutdownStep.takenAway {b : ShutdownAction} (hsubscribed : s.Subscribed)
    (hs : ∀ call ∈ s.shutdowns, s.TakenAway call.phase)
    (hstep : step config s (.shutdown b) = some s') :
    ∀ call ∈ s'.shutdowns, s'.TakenAway call.phase := by
  have hkeep : ∀ call ∈ s.shutdowns, s'.TakenAway call.phase :=
    fun call hcall => (hs call hcall).step hstep
  have hgo : ∀ {n : Nat} {call : ShutdownCall} (phase : ShutdownPhase),
      s'.TakenAway phase → s'.shutdowns = s.shutdowns.set n { call with phase := phase } →
      ∀ call ∈ s'.shutdowns, s'.TakenAway call.phase := by
    intro n call phase hphase hshutdowns other hother
    rw [hshutdowns] at hother
    rcases List.mem_or_eq_of_mem_set hother with hold | rfl
    · exact hkeep other hold
    · exact hphase
  cases stepShutdown_cases hstep with
  | registerHook => exact hkeep
  | begin graceful =>
    intro call hcall
    rcases List.mem_append.mp hcall with hold | hnew
    · exact hkeep call hold
    · cases List.mem_singleton.mp hnew
      exact takenAway_of_none (by simp) rfl
  | takeDispatcher => exact hgo .joining ⟨fun _ => rfl, by simp [ShutdownPhase.handles]⟩ rfl
  | @remove n call id ids handles hcall hphase hid =>
    have hbefore := hkeep call (List.mem_of_getElem? hcall)
    rw [hphase] at hbefore
    refine hgo (.removing ids (handles ++ [id])) ⟨by simp, fun other hother => ?_⟩ rfl
    rcases List.mem_append.mp hother with hold | hnew
    · exact hbefore.handles other hold
    · cases List.mem_singleton.mp hnew
      refine ⟨fun hsub => ?_, isSome_task_step hstep (hsubscribed id hid)⟩
      simpa using (List.mem_filter.mp hsub).2
  | @skip n call id ids handles hcall hphase =>
    have hbefore := hkeep call (List.mem_of_getElem? hcall)
    rw [hphase] at hbefore
    exact hgo (.removing ids handles) ⟨by simp, hbefore.handles⟩ rfl
  | @await n call handles hcall hphase =>
    have hbefore := hkeep call (List.mem_of_getElem? hcall)
    rw [hphase] at hbefore
    exact hgo (.awaiting handles) ⟨by simp, hbefore.handles⟩ rfl
  | @joinTask n call id handles hcall hphase =>
    have hbefore := hkeep call (List.mem_of_getElem? hcall)
    rw [hphase] at hbefore
    refine hgo (.awaiting handles) ⟨by simp, fun other hother => ?_⟩ rfl
    exact hbefore.handles other (List.mem_cons_of_mem id hother)
  | _ => exact hgo _ (takenAway_of_none (by simp) rfl) rfl

/-- What is behind the progress of the bus. -/
structure Founded (config : EventBusConfig) (s : MemoryBus) : Prop where
  capacity : s.WithinCapacity config
  queued : s.Queued
  takenAway : ∀ call ∈ s.shutdowns, s.TakenAway call.phase

theorem takenAway_exec {as : List Action} (hexec : exec config (build config) as = some s) :
    s.Subscribed ∧ ∀ call ∈ s.shutdowns, s.TakenAway call.phase := by
  refine Transition.invariant (I := fun s => s.Subscribed ∧
    ∀ call ∈ s.shutdowns, s.TakenAway call.phase) (fun s a s' hs h => ?_) ?_ hexec
  · refine ⟨hs.1.step h, ?_⟩
    by_cases hshutdown : ∃ b, a = .shutdown b
    · obtain ⟨b, rfl⟩ := hshutdown
      exact ShutdownStep.takenAway hs.1 hs.2 h
    · rw [(of_not_shutdown h fun b hb => hshutdown ⟨b, hb⟩).1]
      exact fun call hcall => (hs.2 call hcall).step h
  · exact ⟨by simp [Subscribed, build], by simp [build]⟩

theorem founded_exec {as : List Action} (hexec : exec config (build config) as = some s) :
    s.Founded config where
  capacity := withinCapacity_exec hexec
  queued := (orderly_exec hexec).queued
  takenAway := (takenAway_exec hexec).2

/-- A sender of the queue does not wait for room where the worker rests. -/
theorem Founded.trySend_ne_full (hs : s.Founded config) (hqueue : 0 < config.maxQueueSize)
    (hworker : s.WorkerRests) (event : ArcEnvelope) : s.queue.trySend event ≠ .error .full := by
  have hroom : s.queue.buffer.length < s.queue.capacity := by
    rwa [hworker.1, hs.capacity.queue.capacity_eq]
  cases hreceiver : s.queue.receiver <;> simp [Mpsc.Channel.trySend, hreceiver, hroom]

section Progress

variable (hsettled : Transition.Settled (step config) (fun a => a.paced = true) s)

include hsettled

/-- A handler task that rests waits for events, and there are none, or it has ended; or it
    waits for room in the dead letter queue. -/
theorem Founded.task_rests (hs : s.Founded config) {id : Uuid} {task : HandlerTask}
    (htask : s.tasks[id]? = some task) (hreturned : ∀ event n, task.phase ≠ .handling event n) :
    task.channel.buffer = [] ∧ (task.phase = .selecting ∨ task.phase = .ended) ∨
      (∃ event, task.phase = .deadLettering event) ∧ s.DlqBlocked config := by
  have hstuck : ∀ b, Action.paced (.handler id b) = true → s.stepHandler config id b = none :=
    fun b hb => hsettled (.handler id b) hb
  cases hphase : task.phase with
  | selecting =>
    refine .inl ⟨?_, .inl rfl⟩
    have hrecv := hstuck .recv rfl
    cases hbuffer : task.channel.buffer with
    | nil => rfl
    | cons event rest => simp [stepHandler, htask, handlerRecv, hphase, hbuffer] at hrecv
  | handling event n => exact absurd hphase (hreturned event n)
  | deadLettering event =>
    -- the only send that can be kept waiting
    have hdead := hstuck .deadLetter rfl
    obtain ⟨dlq, hdlq, hwithin⟩ := hs.capacity.dlq
    simp only [stepHandler, htask, handlerDeadLetter, hphase, hdlq] at hdead
    refine .inr ⟨⟨event, rfl⟩, ⟨id, task, event, htask, hphase⟩, dlq, hdlq, ?_⟩
    unfold Mpsc.Channel.trySend at hdead
    cases hreceiver : dlq.receiver with
    | false => simp [hreceiver] at hdead
    | true =>
      refine ⟨rfl, Nat.le_antisymm hwithin.length_le (Nat.le_of_not_lt fun hlt => ?_)⟩
      rw [← hwithin.capacity_eq] at hlt
      simp [hreceiver, hlt] at hdead
  | backingOff event n =>
    have hretry := hstuck .retry rfl
    simp [stepHandler, htask, handlerRetry, hphase] at hretry
  | ended => exact .inl ⟨(hs.capacity.ended htask hphase).1, .inr rfl⟩

/-- A worker that has no sends left to wait for does not stop halfway. -/
theorem Founded.worker_rests (hs : s.Founded config)
    (hsends : ∀ event sends, s.worker ≠ .dispatching event sends) : s.WorkerRests := by
  have hstuck : ∀ b, Action.paced (.worker b) = true → s.stepWorker config b = none :=
    fun b hb => hsettled (.worker b) hb
  cases hworker : s.worker with
  | receiving =>
    refine ⟨?_, .inl hworker⟩
    have hrecv := hstuck .recv rfl
    cases hbuffer : s.queue.buffer with
    | nil => rfl
    | cons event rest => simp [stepWorker, recv, hworker, hbuffer] at hrecv
  | received event =>
    have hselect := hstuck .select rfl
    simp only [stepWorker, select, hworker] at hselect
    split at hselect <;> cases hselect
  | dispatching event sends => exact absurd hworker (hsends event sends)
  | stopped =>
    exact ⟨(hs.queued.ended (by simp [hworker, DispatchWorker.ended])).2.1, .inr hworker⟩

theorem Founded.sleepers_rest (hs : s.Founded config) (hqueue : 0 < config.maxQueueSize)
    (hworker : s.WorkerRests) : s.sleepers = [] := by
  cases hsleepers : s.sleepers with
  | nil => rfl
  | cons event rest =>
    have hwake : s.wake 0 = none := hsettled (.publisher (.wake 0)) rfl
    have hfull := hs.trySend_ne_full hqueue hworker event
    simp only [wake, hsleepers, List.getElem?_cons_zero] at hwake
    split at hwake
    · cases hwake
    · rename_i hsend
      exact absurd hsend hfull
    · cases hwake

/-- No shutdown call rests with the write guard: without a dispatcher the worker ends. -/
theorem Founded.not_writeLocked (hs : s.Founded config) (hqueue : 0 < config.maxQueueSize)
    (hrests : s.WorkerRests) : s.writeLocked = false := by
  rw [Bool.eq_false_iff]
  intro hlocked
  obtain ⟨call, hcall, hjoining⟩ := List.any_eq_true.mp hlocked
  have hphase : call.phase = .joining := by simpa using hjoining
  have hdispatcher := (hs.takenAway call hcall).dispatcher hphase
  obtain ⟨n, hn⟩ := List.mem_iff_getElem?.mp hcall
  have hadvance : s.advance n = none := hsettled (.shutdown (.advance n)) rfl
  have hsleepers := hs.sleepers_rest hsettled hqueue hrests
  obtain ⟨hempty, hworker | hworker⟩ := hrests
  · have hrecv : s.recv = none := hsettled (.worker .recv) rfl
    simp [recv, hworker, hempty, noSender, hdispatcher, hsleepers] at hrecv
  · simp [advance, hn, advanceCall, hphase, hworker, DispatchWorker.ended] at hadvance

theorem Founded.calls_rest (hs : s.Founded config) (hqueue : 0 < config.maxQueueSize)
    (hworker : s.WorkerRests) : ∀ call ∈ s.calls, call.pending = false := by
  intro call hcall
  obtain ⟨n, hn⟩ := List.mem_iff_getElem?.mp hcall
  cases hphase : call.phase with
  | acquiring =>
    have hacquire : s.acquire n = none := hsettled (.publisher (.acquire n)) rfl
    have hfree := hs.not_writeLocked hsettled hqueue hworker
    simp [acquire, hn, hphase, hfree] at hacquire
  | checking =>
    have hdispatch : s.dispatch config n 0 = none := hsettled (.publisher (.dispatch n 0)) rfl
    simp only [dispatch, hn, hphase, if_true] at hdispatch
    split at hdispatch
    · split at hdispatch
      · cases hdispatch
      · split at hdispatch <;> cases hdispatch
    · cases hdispatch
  | sending =>
    have hsend : s.send n = none := hsettled (.publisher (.send n)) rfl
    have hfull := hs.trySend_ne_full hqueue hworker ⟨n, call.envelope⟩
    simp only [send, hn, hphase, if_true] at hsend
    split at hsend
    · cases hsend
    · rename_i hsend'
      exact absurd hsend' hfull
    · cases hsend
  | returned result => simp [PublishCall.pending, hphase]
  | cancelled => simp [PublishCall.pending, hphase]

/-- The auto-unsubscribe worker does not wait for anybody. -/
theorem unsubs_rest : s.unsubs = [] := by
  have hauto : s.autoUnsubscribe = none := hsettled (.subscriber .autoUnsubscribe) rfl
  cases hunsubs : s.unsubs with
  | nil => rfl
  | cons id rest =>
    simp only [autoUnsubscribe, hunsubs] at hauto
    split at hauto <;> cases hauto

section Returned

variable (hreturned : ∀ (id : Uuid) task, s.tasks[id]? = some task →
  ∀ event n, task.phase ≠ .handling event n)

include hreturned

/-- Where every handler has returned, all sends of the worker have room. -/
theorem Founded.worker_rests_of_returned (hs : s.Founded config)
    (hchannel : 0 < config.handlerChannelSize) (hblocked : ¬ s.DlqBlocked config) :
    s.WorkerRests := by
  refine hs.worker_rests hsettled fun event sends hworker => ?_
  have hstuck : ∀ b, Action.paced (.worker b) = true → s.stepWorker config b = none :=
    fun b hb => hsettled (.worker b) hb
  cases sends with
  | nil =>
    have hfinish := hstuck .finish rfl
    simp [stepWorker, finishDispatch, hworker] at hfinish
  | cons id sends =>
    have hpush := hstuck (.push id) rfl
    simp only [stepWorker, push, hworker, List.mem_cons_self, if_true] at hpush
    cases htask : s.tasks[id]? with
    | none => simp [htask] at hpush
    | some task =>
      -- a channel whose task rests has room
      rcases hs.task_rests hsettled htask (hreturned id task htask) with ⟨hempty, -⟩ | ⟨-, hdlq⟩
      · have hroom : task.channel.buffer.length < task.channel.capacity := by
          rwa [hempty, (hs.capacity.task htask).capacity_eq]
        cases hreceiver : task.channel.receiver with
        | false => simp [htask, Mpsc.Channel.trySend, hreceiver] at hpush
        | true => simp [htask, Mpsc.Channel.trySend, hreceiver, hroom] at hpush
      · exact hblocked hdlq

/-- A shutdown call that rests has returned, or was dropped. -/
theorem Founded.shutdowns_rest (hs : s.Founded config) (hqueue : 0 < config.maxQueueSize)
    (hworker : s.WorkerRests) (hblocked : ¬ s.DlqBlocked config) :
    ∀ call ∈ s.shutdowns, call.phase = .returned ∨ call.phase = .dropped := by
  intro call hcall
  have hstuck : ∀ {n : Nat} {call : ShutdownCall}, s.shutdowns[n]? = some call →
      s.advanceCall n call = none := by
    intro n call hn
    have hadvance : s.advance n = none := hsettled (.shutdown (.advance n)) rfl
    rwa [advance, hn] at hadvance
  obtain ⟨n, hn⟩ := List.mem_iff_getElem?.mp hcall
  have hadvance := hstuck hn
  have hrunning : ∀ call ∈ s.shutdowns, ∀ next, call.phase ≠ .runningHooks next := by
    intro call hcall next hphase
    obtain ⟨n, hn⟩ := List.mem_iff_getElem?.mp hcall
    have hadvance := hstuck hn
    simp only [advanceCall, hphase] at hadvance
    split at hadvance <;> cases hadvance
  cases hphase : call.phase with
  | lockingHooks =>
    have hfree : s.hooksLocked = false := by
      rw [hooksLocked, List.any_eq_false]
      intro other hother
      split
      · rename_i next hnext
        exact absurd hnext (hrunning other hother next)
      · exact Bool.false_ne_true
    simp [advanceCall, hphase, hfree] at hadvance
  | runningHooks next => exact absurd hphase (hrunning call hcall next)
  | lockingDispatcher =>
    have hwrite := hs.not_writeLocked hsettled hqueue hworker
    have hread : s.readLocked = false := by
      rw [readLocked, List.any_eq_false]
      intro other hother hguarded
      exact Bool.false_ne_true ((hs.calls_rest hsettled hqueue hworker other hother).symm.trans
        (pending_of_guarded hguarded))
    simp [advanceCall, hphase, hread, hwrite] at hadvance
  | joining =>
    have hlocked : s.writeLocked = true := by
      rw [writeLocked, List.any_eq_true]
      exact ⟨call, hcall, by simp [hphase]⟩
    exact absurd (hlocked.symm.trans (hs.not_writeLocked hsettled hqueue hworker))
      (by simp)
  | closing =>
    simp only [advanceCall, hphase] at hadvance
    split at hadvance <;> cases hadvance
  | removing ids handles =>
    cases ids with
    | nil => simp [advanceCall, hphase] at hadvance
    | cons id ids =>
      simp only [advanceCall, hphase] at hadvance
      split at hadvance <;> cases hadvance
  | awaiting handles =>
    cases handles with
    | nil => simp [advanceCall, hphase] at hadvance
    | cons id handles =>
      simp only [advanceCall, hphase] at hadvance
      cases htask : s.tasks[id]? with
      | none => simp [htask] at hadvance
      | some task =>
        obtain ⟨hempty, hselecting | hended⟩ :=
          (hs.task_rests hsettled htask (hreturned id task htask)).resolve_right
            fun hdlq => hblocked hdlq.2
        · -- the sender went with the entry, and the worker has none left
          have hclosed : s.stepHandler config id .closed = none :=
            hsettled (.handler id .closed) rfl
          have hgone := ((hs.takenAway call hcall).handles id
            (by simp [hphase, ShutdownPhase.handles])).1
          have hsends : id ∉ s.worker.sends := by
            rcases hworker.2 with hworker | hworker <;> simp [hworker, DispatchWorker.sends]
          simp [stepHandler, htask, handlerClosed, hselecting, hempty, hgone, hsends] at hclosed
        · simp [htask, hended] at hadvance
  | storing => simp [advanceCall, hphase] at hadvance
  | returned => exact .inl rfl
  | dropped => exact .inr rfl

/-- **Where the bus rests it is idle**, but for a dead letter queue that is full. -/
theorem Founded.idle (hs : s.Founded config) (hqueue : 0 < config.maxQueueSize)
    (hworker : s.WorkerRests) (hblocked : ¬ s.DlqBlocked config) : s.Idle where
  calls := hs.calls_rest hsettled hqueue hworker
  sleepers := hs.sleepers_rest hsettled hqueue hworker
  queue := hworker.1
  worker := hworker.2
  tasks id task htask := by
    obtain ⟨hempty, hphase | hphase⟩ :=
      (hs.task_rests hsettled htask (hreturned id task htask)).resolve_right
        fun hdlq => hblocked hdlq.2
    · simp [HandlerTask.held, hempty, hphase, HandlerPhase.event]
    · simp [HandlerTask.held, hempty, hphase, HandlerPhase.event]
  unsubs := unsubs_rest hsettled
  shutdowns := hs.shutdowns_rest hsettled hreturned hqueue hworker hblocked

end Returned

end Progress

/-- Handlers return where nothing keeps them from it. -/
theorem returned_of_driven
    (hsettled : Transition.Settled (step config) (fun a => a.driven = true) s) (id : Uuid)
    (task : HandlerTask) (htask : s.tasks[id]? = some task) (event : ArcEnvelope) (n : Nat) :
    task.phase ≠ .handling event n := by
  intro hphase
  have houtcome : s.stepHandler config id (.outcome .ok) = none :=
    hsettled (.handler id (.outcome .ok)) rfl
  simp [stepHandler, htask, handlerOutcome, hphase] at houtcome

/-! ## Every run -/

theorem counted_exec {as : List Action} (hretries : config.maxRetries + 1 < 2 ^ 32)
    (hexec : exec config (build config) as = some s) (id : Uuid) :
    (s.journal id).Counted config := by
  refine Transition.invariant (I := fun s => ∀ id, (s.journal id).Counted config)
    (fun s a s' hs h id => (hs id).step hretries (journal_step h id)) (fun id => ?_) hexec id
  rw [journal_build]
  exact ⟨fun _ _ _ h => (nomatch h), fun _ _ _ h => (nomatch h)⟩

theorem Action.asked_of_driven {a : Action} (h : a.driven = true) : a.asked = false := by
  cases a with
  | publisher b => cases b <;> first | rfl | cases h
  | subscriber b => cases b <;> first | rfl | cases h
  | shutdown b => cases b <;> first | rfl | cases h
  | _ => rfl

/-- What becomes of a bus of which nothing more is asked. -/
structure ComesToRest (config : EventBusConfig) (s : MemoryBus) : Prop where
  /-- It cannot go on for ever. -/
  settles : Transition.Settles (step config) (fun a => a.asked = false) s
  /-- Where it stops, with no help from timeouts, panics or callers that give up. -/
  rests : Transition.Settled (step config) (fun a => a.driven = true) s →
    s.Idle ∨ s.DlqBlocked config
  reaches : ∃ as s', (∀ a ∈ as, a.driven = true) ∧ exec config s as = some s' ∧
    (s'.Idle ∨ s'.DlqBlocked config)

/-- **The bus comes to rest**, from every state that a run can reach: no step of its own can be
    repeated for ever, and none is left only where all work is done, or where a handler task
    waits for room in the dead letter queue. -/
theorem comesToRest_exec {as : List Action} (hqueue : 0 < config.maxQueueSize)
    (hchannel : 0 < config.handlerChannelSize) (hretries : config.maxRetries + 1 < 2 ^ 32)
    (hexec : exec config (build config) as = some s) : s.ComesToRest config := by
  have hstep : ∀ s a s', (∀ id, (s.journal id).Counted config) →
      step config s a = some s' → ∀ id, (s'.journal id).Counted config :=
    fun s a s' hs h id => (hs id).step hretries (journal_step h id)
  have hrests : ∀ {as : List Action} {s : MemoryBus}, exec config (build config) as = some s →
      Transition.Settled (step config) (fun a => a.driven = true) s →
      s.Idle ∨ s.DlqBlocked config := by
    intro as s hexec hsettled
    by_cases hblocked : s.DlqBlocked config
    · exact .inr hblocked
    · have hpaced : Transition.Settled (step config) (fun a => a.paced = true) s :=
        fun a ha => hsettled a (Action.driven_of_paced ha)
      have hreturned := returned_of_driven hsettled
      have hs := founded_exec hexec
      have hworker := hs.worker_rests_of_returned hpaced hreturned hchannel hblocked
      exact .inl (hs.idle hpaced hreturned hqueue hworker hblocked)
  refine ⟨?_, hrests hexec, ?_⟩
  · exact Transition.settles_of_measure (work config) (fun s a s' hs _ h => hstep s a s' hs h)
      (fun s a s' hs hasked h => work_lt hretries hs hasked h) (counted_exec hretries hexec)
  · obtain ⟨bs, s', hdriven, hrun, hsettled⟩ := Transition.exists_exec_settled (work config)
      (C := fun a => a.driven = true) (fun s a s' hs _ h => hstep s a s' hs h)
      (fun s a s' hs hdriven h => work_lt hretries hs (Action.asked_of_driven hdriven) h)
      (counted_exec hretries hexec)
    have hboth : exec config (build config) (as ++ bs) = some s' :=
      (Transition.exec_append_of_exec _ hexec).trans hrun
    exact ⟨bs, s', hdriven, hrun, hrests hboth hsettled⟩

/-- A graceful shutdown waits for the worker, which has an order in the queue. -/
def queuedOrder : List Action :=
  [.shutdown .registerHook, .subscriber (.subscribe 1 "OrderEvent" { id := 10 })]
    ++ publishSteps 0 (order 7) ++ shutdownSteps 0

theorem comesToRest_queuedOrder :
    ∃ s, exec {} (build {}) queuedOrder = some s ∧ s.ComesToRest {} ∧ ¬ s.Idle := by
  obtain ⟨s, hs⟩ := Option.isSome_iff_exists.mp
    (by decide +kernel : (exec {} (build {}) queuedOrder).isSome = true)
  refine ⟨s, hs, comesToRest_exec (by decide) (by decide) (by decide) hs, fun hidle => ?_⟩
  have hlength : (exec {} (build {}) queuedOrder).map (fun s => s.queue.buffer.length) = some 1 :=
    by decide +kernel
  rw [hs] at hlength
  have hone : s.queue.buffer.length = 1 := Option.some.inj hlength
  simp [hidle.queue] at hone

end MemoryBus
end TokioEvents
