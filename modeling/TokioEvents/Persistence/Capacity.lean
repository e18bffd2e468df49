/-
  TokioEvents.Persistence.Capacity

  How much a persistent bus holds in memory.  The dispatcher queue never holds more than
  `max_queue_size` messages, the worker never more than a batch of 1000, and the channel of a
  subscription, open or closed, never more than `handler_channel_size` events, whatever
  publishers, the scheduler and replay calls send.
-/

import TokioEvents.Lib.Weight
import TokioEvents.Persistence.AtMostOnce
import TokioEvents.Persistence.Bus.Crowd

namespace TokioEvents

/-- The events that the worker holds. -/
def Worker.held : Worker → Nat
  | .dispatching _ _ rest => rest.length + 1
  | worker => worker.messages.length

namespace PersistentBus

variable {json : SerdeJson} {config : BusConfig} {s s' : PersistentBus}

/-- Nothing holds more than it was made for. -/
structure WithinCapacity (config : BusConfig) (s : PersistentBus) : Prop where
  queue : s.queue.Within config.maxQueueSize
  batch : s.worker.held ≤ 1000
  channel : Everywhere (fun data => data.channel.length ≤ config.handlerChannelSize)
    s.manager.subscriptions
  closed : Everywhere (fun channel => channel.length ≤ config.handlerChannelSize) s.closed

theorem withinCapacity_boot (json : SerdeJson) (config : BusConfig) (db : Db) :
    (boot json config db).WithinCapacity config where
  queue := Mpsc.Channel.within_new _
  batch := Nat.zero_le _
  channel := everywhere_empty
  closed := everywhere_empty

/-! ## The queue -/

/-- A step that sends nothing, or sends one message where there is room. -/
theorem queue_trySend {n : Nat} {msg : RedbDispatcherMessage}
    {queue : Mpsc.Channel RedbDispatcherMessage} (hqueue : s.queue.Within n)
    (hsend : s.queue.trySend msg = .ok queue) : queue.Within n := by
  obtain ⟨haccepts, rfl⟩ := Mpsc.Channel.trySend_eq_ok.mp hsend
  exact hqueue.push haccepts msg

theorem queue_stepPublisher {n : Nat} {a : PublisherAction} (hqueue : s.queue.Within n)
    (h : s.stepPublisher config a = some s') : s'.queue.Within n := by
  cases a with
  | dispatch envelope =>
    simp only [stepPublisher, dispatch, finish] at h
    repeat' split at h
    all_goals cases h
    all_goals first
      | exact hqueue
      | exact queue_trySend hqueue ‹s.queue.trySend _ = .ok _›
  | tryDispatch envelope =>
    simp only [stepPublisher, tryDispatch] at h
    repeat' split at h
    all_goals cases h
    all_goals first
      | exact hqueue
      | exact queue_trySend hqueue ‹s.queue.trySend _ = .ok _›
  | returns call =>
    simp only [stepPublisher, returns, finish] at h
    split at h <;> cases h
    exact hqueue
  | cancel call =>
    simp only [stepPublisher, cancel] at h
    split at h <;> cases h
    exact hqueue

theorem queue_stepScheduler {n : Nat} {a : SchedulerAction} (hqueue : s.queue.Within n)
    (h : s.stepScheduler json a = some s') : s'.queue.Within n := by
  cases a with
  | wake now =>
    simp only [stepScheduler, wake] at h
    repeat' split at h
    all_goals cases h
    all_goals exact hqueue
  | poll commits =>
    simp only [stepScheduler, poll] at h
    repeat' split at h
    all_goals cases h
    all_goals exact hqueue
  | fire =>
    simp only [stepScheduler, fire] at h
    repeat' split at h
    all_goals cases h
    all_goals exact hqueue
  | send =>
    simp only [stepScheduler, schedulerSend] at h
    repeat' split at h
    all_goals cases h
    · exact queue_trySend hqueue ‹s.queue.trySend _ = .ok _›
    · exact hqueue
  | orphanPoll index commits =>
    simp only [stepScheduler, orphanPoll] at h
    repeat' split at h
    all_goals cases h
    all_goals exact hqueue

theorem queue_stepReplay {n : Nat} {a : ReplayAction} (hqueue : s.queue.Within n)
    (h : s.stepReplay json a = some s') : s'.queue.Within n := by
  cases a with
  | pending =>
    simp only [stepReplay, replayPending] at h
    split at h <;> cases h
    exact hqueue
  | visit index =>
    simp only [stepReplay, replayVisit] at h
    split at h <;> cases h
    exact hqueue
  | send index =>
    simp only [stepReplay, replaySend] at h
    repeat' split at h
    all_goals cases h
    · exact queue_trySend hqueue ‹s.queue.trySend _ = .ok _›
    · exact hqueue
  | collect index commits =>
    simp only [stepReplay, replayCollect] at h
    split at h <;> cases h
    exact hqueue
  | fail index =>
    simp only [stepReplay, replayFail] at h
    split at h <;> cases h
    exact hqueue
  | dlq =>
    simp only [stepReplay, replayDlq] at h
    split at h <;> cases h
    exact hqueue
  | dlqSend index =>
    simp only [stepReplay, replayDlqSend] at h
    repeat' split at h
    all_goals cases h
    all_goals first
      | exact hqueue
      | exact queue_trySend hqueue ‹s.queue.trySend _ = .ok _›

theorem queue_step {a : Action} (hs : s.queue.Within config.maxQueueSize)
    (h : step json config s a = some s') : s'.queue.Within config.maxQueueSize := by
  cases a with
  | publisher a => exact queue_stepPublisher hs h
  | worker a =>
    obtain ⟨hlength, hcapacity⟩ := stepWorker_queue h
    exact ⟨hcapacity.trans hs.capacity_eq, hlength.trans hs.length_le⟩
  | scheduler a => exact queue_stepScheduler hs h
  | handler a =>
    rw [(stepHandler_sameInputs h).1]
    exact hs
  | replay a => exact queue_stepReplay hs h
  | control a =>
    by_cases hcrash : a = .crash
    · subst hcrash
      cases h
      exact Mpsc.Channel.within_new _
    · rw [(stepControl_sameWork h hcrash).queue]
      exact hs

/-! ## The worker -/

/-- The batch takes one more only while it is short of 1000. -/
theorem tryRecv_room (h : s.tryRecv = some s') (batch : List RedbDispatcherMessage)
    (hphase : s.worker = .draining batch) : batch.length < 1000 := by
  unfold tryRecv at h
  rw [hphase] at h
  split at h
  · rename_i heq _
    cases heq
    split at h
    · assumption
    · cases h
  · cases h

theorem held_stepWorker {a : WorkerAction} (hs : s.worker.held ≤ 1000)
    (h : s.stepWorker json config a = some s') : s'.worker.held ≤ 1000 := by
  cases a with
  | recv =>
    obtain ⟨-, ⟨msg, rest, -, rfl⟩ | ⟨-, rfl⟩⟩ := recv_cases h
    · exact Nat.le_add_left 1 999
    · exact Nat.zero_le _
  | tryRecv =>
    have hroom := tryRecv_room h
    obtain ⟨batch, msg, rest, hphase, -, rfl⟩ := tryRecv_cases h
    simpa [Worker.held, Worker.messages] using hroom batch hphase
  | check reads =>
    obtain ⟨batch, checked, hphase, rfl, rfl⟩ := check_cases h
    rw [hphase] at hs
    have hvalid := (DupCheck.valid_sublist RedbDispatcherMessage.idempotencyKey
      (fun key => reads key && s.db.keyRecorded key) batch).length_le
    simpa [Worker.held, Worker.messages] using hvalid.trans hs
  | count now =>
    obtain ⟨done, msg, rest, n, hphase, -, rfl⟩ := count_cases h
    rw [hphase] at hs
    simp only [Worker.held, Worker.messages, List.map_append, List.length_append, List.length_map,
      List.map_cons, List.map_nil, List.length_cons, List.length_nil] at hs ⊢
    omega
  | write faults =>
    obtain ⟨done, hphase, ⟨-, rfl⟩ | ⟨msg, -, rfl⟩ | ⟨-, rfl⟩⟩ := write_cases h
    · simpa [hphase, Worker.held, Worker.messages] using hs
    · simpa [hphase, Worker.held, Worker.messages] using hs
    · exact Nat.zero_le _
  | deliver now =>
    obtain ⟨-, rfl⟩ | ⟨msg, rest, hphase, ⟨-, rfl⟩ | ⟨-, rfl⟩⟩ := deliver_cases h
    · exact Nat.zero_le _
    · simp only [hphase, Worker.held, Worker.messages, List.length_cons] at hs ⊢
      omega
    · simpa [hphase, Worker.held, Worker.messages] using hs
  | push id =>
    obtain ⟨envelope, sends, rest, hphase, -, rfl⟩ := push_cases h
    simpa [hphase, Worker.held] using hs
  | dispatched =>
    obtain ⟨envelope, sends, rest, hphase, rfl⟩ := dispatched_cases h
    simp only [hphase, Worker.held, Worker.messages] at hs ⊢
    omega
  | panic =>
    obtain ⟨-, rfl⟩ := workerPanic_cases h
    exact Nat.zero_le _

theorem held_step {a : Action} (hs : s.worker.held ≤ 1000)
    (h : step json config s a = some s') : s'.worker.held ≤ 1000 := by
  by_cases hworker : ∃ b, a = .worker b
  · obtain ⟨b, rfl⟩ := hworker
    exact held_stepWorker hs h
  · rcases worker_of_not_worker h fun b hb => hworker ⟨b, hb⟩ with heq | heq | heq
    · rw [heq]
      exact hs
    · rw [heq]
      exact Nat.zero_le _
    · rw [heq]
      exact Nat.zero_le _

/-! ## The handlers -/

/-- A send goes only where there is room. -/
theorem push_room {id : Uuid} (h : s.push config id = some s') (data : SubscriptionData)
    (hdata : s.manager.subscriptions[id]? = some data) (hlive : data.live = true) :
    data.channel.length < config.handlerChannelSize := by
  unfold push at h
  repeat' split at h
  all_goals cases h
  · rename_i found hfound hroom
    cases hdata.symm.trans hfound
    simpa [hlive] using hroom
  all_goals cases hdata.symm.trans ‹s.manager.subscriptions[id]? = none›

/-- The same for a channel that is left to its handler. -/
theorem push_room_closed {id : Uuid} (h : s.push config id = some s')
    (hnone : s.manager.subscriptions[id]? = none) (channel : List EventEnvelope)
    (hchannel : s.closed[id]? = some channel) : channel.length < config.handlerChannelSize := by
  unfold push at h
  rw [hnone, hchannel] at h
  dsimp only at h
  repeat' split at h
  all_goals cases h
  omega

theorem channel_push {id : Uuid} (hs : s.WithinCapacity config)
    (h : s.push config id = some s') :
    Everywhere (fun data => data.channel.length ≤ config.handlerChannelSize)
      s'.manager.subscriptions := by
  have hroom := push_room h
  obtain ⟨envelope, sends, rest, -, -, rfl⟩ := push_cases h
  unfold SubscriptionManager.push
  dsimp only
  split
  · rename_i data hdata
    split
    · rename_i hlive
      refine hs.channel.insert id ?_
      simpa using hroom data hdata hlive
    · exact hs.channel
  · exact hs.channel

theorem closed_push {id : Uuid} (hs : s.WithinCapacity config)
    (h : s.push config id = some s') :
    Everywhere (fun channel => channel.length ≤ config.handlerChannelSize) s'.closed := by
  have hroom := push_room_closed h
  obtain ⟨envelope, sends, rest, -, -, rfl⟩ := push_cases h
  unfold pushClosed
  dsimp only
  split
  · rename_i channel hnone hchannel
    refine hs.closed.insert id ?_
    simpa using hroom hnone channel hchannel
  · exact hs.closed

/-- The worker puts events into channels by its sends only. -/
theorem channels_of_not_push {a : WorkerAction} (h : s.stepWorker json config a = some s')
    (ha : ∀ id, a ≠ .push id) : s'.manager = s.manager ∧ s'.closed = s.closed := by
  cases a with
  | push id => exact absurd rfl (ha id)
  | recv => obtain ⟨-, ⟨msg, rest, -, rfl⟩ | ⟨-, rfl⟩⟩ := recv_cases h <;> exact ⟨rfl, rfl⟩
  | tryRecv => obtain ⟨batch, msg, rest, -, -, rfl⟩ := tryRecv_cases h; exact ⟨rfl, rfl⟩
  | check reads => obtain ⟨batch, checked, -, -, rfl⟩ := check_cases h; exact ⟨rfl, rfl⟩
  | count now => obtain ⟨done, msg, rest, n, -, -, rfl⟩ := count_cases h; exact ⟨rfl, rfl⟩
  | write faults =>
    obtain ⟨done, -, ⟨-, rfl⟩ | ⟨msg, -, rfl⟩ | ⟨-, rfl⟩⟩ := write_cases h <;> exact ⟨rfl, rfl⟩
  | deliver now =>
    obtain ⟨-, rfl⟩ | ⟨msg, rest, -, ⟨-, rfl⟩ | ⟨-, rfl⟩⟩ := deliver_cases h <;>
      exact ⟨rfl, rfl⟩
  | dispatched => obtain ⟨envelope, sends, rest, -, rfl⟩ := dispatched_cases h; exact ⟨rfl, rfl⟩
  | panic => obtain ⟨-, rfl⟩ := workerPanic_cases h; exact ⟨rfl, rfl⟩

theorem WithinCapacity.stepHandler {a : HandlerAction} (hs : s.WithinCapacity config)
    (h : s.stepHandler a = some s') :
    Everywhere (fun data => data.channel.length ≤ config.handlerChannelSize)
        s'.manager.subscriptions ∧
      Everywhere (fun channel => channel.length ≤ config.handlerChannelSize) s'.closed := by
  cases a with
  | registry op => cases h; exact ⟨hs.channel, hs.closed⟩
  | openChannel id =>
    obtain ⟨-, rfl⟩ := openChannel_cases h
    exact ⟨hs.channel.insert id (Nat.zero_le _), hs.closed⟩
  | removeChannel id => cases h; exact ⟨hs.channel.erase id, hs.closed⟩
  | closeChannel id =>
    obtain ⟨data, hdata, rfl⟩ := closeChannel_cases h
    refine ⟨hs.channel.erase id, ?_⟩
    dsimp only
    split
    · exact hs.closed.insert id (hs.channel id data hdata)
    · exact hs.closed
  | take id =>
    obtain ⟨-, envelope, rest, ⟨hdata, rfl⟩ | ⟨hleft, rfl⟩⟩ := handlerTake_cases h
    · have hle := hs.channel id _ hdata
      exact ⟨hs.channel.insert id ((Nat.le_succ _).trans hle), hs.closed⟩
    · have hle := hs.closed id _ hleft
      exact ⟨hs.channel, hs.closed.insert id ((Nat.le_succ _).trans hle)⟩
  | complete id isSuccess =>
    obtain ⟨envelope, registry, -, -, -, rfl⟩ := handlerComplete_cases h
    exact ⟨hs.channel, hs.closed⟩
  | exit id =>
    cases h
    refine ⟨?_, hs.closed.erase id⟩
    unfold handlerExit
    dsimp only
    split
    · exact hs.channel.insert id (Nat.zero_le _)
    · exact hs.channel
  | ack commits =>
    obtain ⟨completion, rest, -, rfl⟩ := ack_step_cases h
    exact ⟨hs.channel, hs.closed⟩

/-! ## Runs -/

/-- **One step** fills nothing beyond its capacity. -/
theorem WithinCapacity.step {a : Action} (hs : s.WithinCapacity config)
    (h : PersistentBus.step json config s a = some s') : s'.WithinCapacity config := by
  have hqueue := queue_step hs.queue h
  have hbatch := held_step hs.batch h
  have hsame : SameHandling s s' → s'.WithinCapacity config := fun hsame =>
    ⟨hqueue, hbatch, by rw [hsame.manager]; exact hs.channel, by rw [hsame.closed]; exact hs.closed⟩
  cases a with
  | publisher a => exact hsame (stepPublisher_frame h).2
  | worker a =>
    by_cases hpush : ∃ id, a = .push id
    · obtain ⟨id, rfl⟩ := hpush
      exact ⟨hqueue, hbatch, channel_push hs h, closed_push hs h⟩
    · obtain ⟨hmanager, hclosed⟩ := channels_of_not_push h fun id hid => hpush ⟨id, hid⟩
      exact ⟨hqueue, hbatch, by rw [hmanager]; exact hs.channel, by rw [hclosed]; exact hs.closed⟩
  | scheduler a => exact hsame (stepScheduler_frame h).2.1
  | handler a =>
    obtain ⟨hchannel, hclosed⟩ := hs.stepHandler h
    exact ⟨hqueue, hbatch, hchannel, hclosed⟩
  | replay a => exact hsame (stepReplay_frame h).2.1
  | control a =>
    by_cases hcrash : a = .crash
    · subst hcrash
      cases h
      have hboot := withinCapacity_boot json config s.db
      exact ⟨hboot.queue, hboot.batch, hboot.channel, hboot.closed⟩
    · have hwork := stepControl_sameWork h hcrash
      exact ⟨hqueue, hbatch, by rw [hwork.manager]; exact hs.channel,
        by rw [hwork.closed]; exact hs.closed⟩

theorem withinCapacity_exec {as : List Action} {db : Db}
    (h : exec json config (boot json config db) as = some s) : s.WithinCapacity config :=
  Transition.invariant (I := fun s : PersistentBus => s.WithinCapacity config)
    (fun _ _ _ hs hstep => hs.step hstep) (withinCapacity_boot json config db) h

/-- The events that wait in memory, for the worker or for a handler, and those the worker
    holds. -/
def heldEvents (s : PersistentBus) : Nat :=
  s.queue.buffer.length + s.worker.held +
    Weight.total (fun data => data.channel.length) s.manager.subscriptions +
    Weight.total List.length s.closed

/-- **Bounded memory.** In every run, whatever publishers, the scheduler and replay calls
    send, the bus holds a full queue, a batch and a full channel for each subscription at
    most. -/
theorem heldEvents_exec {as : List Action} {db : Db}
    (h : exec json config (boot json config db) as = some s) :
    s.heldEvents ≤ config.maxQueueSize + 1000 +
      config.handlerChannelSize * (s.manager.subscriptions.size + s.closed.size) := by
  have hs := withinCapacity_exec h
  have hchannels : Weight.total (fun data : SubscriptionData => data.channel.length)
      s.manager.subscriptions ≤ config.handlerChannelSize * s.manager.subscriptions.size :=
    Weight.total_le_mul_size fun id data hdata => hs.channel id data hdata
  have hclosed : Weight.total List.length s.closed
      ≤ config.handlerChannelSize * s.closed.size :=
    Weight.total_le_mul_size fun id channel hchannel => hs.closed id channel hchannel
  have hqueue := hs.queue.length_le
  have hbatch := hs.batch
  rw [heldEvents, Nat.mul_add]
  omega

/-- Of four orders for one subscription, one is in the queue, one is left in the batch, one
    is on its way to the channel, and one is in it, which is then full. -/
def ordersQueueUp : List Action :=
  crowdArrives 1 ++ [.publisher (.dispatch order), .publisher (.tryDispatch order),
    .publisher (.dispatch order), .worker .recv, .worker .tryRecv, .worker .tryRecv,
    .worker (.check fun _ => true), .worker (.count 0), .worker (.count 0), .worker (.count 0),
    .worker (.write noFaults), .worker (.deliver 0), .worker (.push 0), .worker .dispatched,
    .worker (.deliver 0), .publisher (.dispatch order)]

theorem heldEvents_ordersQueueUp : ∃ s,
    exec orderJson { handlerChannelSize := 1 } (boot orderJson { handlerChannelSize := 1 } .empty)
      ordersQueueUp = some s ∧ s.heldEvents = 4 ∧
      s.heldEvents ≤ 10000 + 1000 + 1 * (s.manager.subscriptions.size + s.closed.size) := by
  obtain ⟨s, hs⟩ := Option.isSome_iff_exists.mp
    (by decide +kernel : (exec orderJson { handlerChannelSize := 1 }
      (boot orderJson { handlerChannelSize := 1 } .empty) ordersQueueUp).isSome = true)
  have hseen : (exec orderJson { handlerChannelSize := 1 }
      (boot orderJson { handlerChannelSize := 1 } .empty) ordersQueueUp).map heldEvents
      = some 4 := by
    decide +kernel
  rw [hs] at hseen
  exact ⟨s, hs, Option.some.inj hseen, heldEvents_exec hs⟩

end PersistentBus
end TokioEvents
