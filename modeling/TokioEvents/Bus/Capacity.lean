/-
  TokioEvents.Bus.Capacity

  How much an in-memory bus holds.  The dispatcher queue, the handler channels and the dead
  letter queue never hold more than they were made for, whoever sends to them, so the
  configuration bounds what the bus holds; only scheduled events and the calls that
  publishers wait in are not bounded by it.
-/

import TokioEvents.Bus.Carried
import TokioEvents.Bus.OrderedDelivery
import TokioEvents.Lib.Weight

namespace TokioEvents

/-- The handler task of a subscription is still there. -/
def HandlerTask.open (task : HandlerTask) : Nat :=
  match task.phase with
  | .ended => 0
  | _ => 1

namespace Journal

/-- The handler channel is within its capacity, and a task that has ended holds nothing. -/
structure Within (config : EventBusConfig) (j : Journal) : Prop where
  channel : ∀ channel phase, j.task = some (channel, phase) →
    channel.Within config.handlerChannelSize
  ended : ∀ channel, j.task = some (channel, .ended) →
    channel.buffer = [] ∧ channel.receiver = false

variable {config : EventBusConfig} {dlq : Bool} {a : Option MemoryBus.HandlerAction}
  {j j' : Journal}

/-- A task that goes on, or a new one. -/
theorem Within.of_open {channel : Mpsc.Channel ArcEnvelope} {phase : HandlerPhase}
    (h : channel.Within config.handlerChannelSize) (hphase : phase ≠ .ended)
    (entries : List (Mark × Nat)) : (j.write (channel, phase) entries).Within config where
  channel c p hc := by
    cases hc
    exact h
  ended c hc := by
    cases hc
    exact absurd rfl hphase

/-- A task that ends drops its receiver. -/
theorem Within.of_ended {channel : Mpsc.Channel ArcEnvelope}
    (h : channel.Within config.handlerChannelSize) (entries : List (Mark × Nat)) :
    (j.write (channel.dropReceiver, .ended) entries).Within config where
  channel c p hc := by
    cases hc
    exact h.dropReceiver
  ended c hc := by
    cases hc
    exact ⟨rfl, rfl⟩

theorem Within.step (h : j.Within config) (hstep : j.Step config dlq a j') : j'.Within config := by
  cases hstep with
  | idle => exact h
  | opened => exact .of_open (Mpsc.Channel.within_new _) (by simp) _
  | @push channel phase event htask haccepts =>
    have hphase : phase ≠ .ended := by
      rintro rfl
      exact Bool.false_ne_true ((h.ended channel htask).2.symm.trans haccepts.1)
    exact .of_open ((h.channel _ _ htask).push haccepts event) hphase _
  | recv htask hbuffer =>
    refine .of_open ((h.channel _ _ htask).recv ?_) (by simp) _
    rw [hbuffer, List.length_cons]
    exact Nat.le_succ _
  | closed htask => exact .of_ended (h.channel _ _ htask) _
  | interrupt htask => exact .of_ended (h.channel _ _ htask) _
  | ack htask => exact .of_open (h.channel _ _ htask) (by simp) _
  | giveUp htask => exact .of_open (h.channel _ _ htask) (by simp) _
  | fail htask => exact .of_open (h.channel _ _ htask) (by simp) _
  | backOff htask => exact .of_open (h.channel _ _ htask) (by simp) _
  | overflow htask => exact .of_ended (h.channel _ _ htask) _
  | panic htask => exact .of_ended (h.channel _ _ htask) _
  | deadLetter htask => exact .of_open (h.channel _ _ htask) (by simp) _
  | retry htask => exact .of_open (h.channel _ _ htask) (by simp) _
  | cancelled htask => exact .of_ended (h.channel _ _ htask) _

end Journal

namespace MemoryBus

variable {config : EventBusConfig} {s s' : MemoryBus}

/-- No channel of the bus holds more than it was made for. -/
structure WithinCapacity (config : EventBusConfig) (s : MemoryBus) : Prop where
  queue : s.queue.Within config.maxQueueSize
  journals : ∀ id, (s.journal id).Within config
  dlq : ∃ dlq, s.dlq = some dlq ∧ dlq.Within config.dlqChannelSize

theorem withinCapacity_build : (build config).WithinCapacity config where
  queue := Mpsc.Channel.within_new _
  journals id := by
    rw [journal_build]
    exact ⟨fun _ _ h => (nomatch h), fun _ h => (nomatch h)⟩
  dlq := ⟨_, rfl, Mpsc.Channel.within_new _⟩

/-- The queue is written by publishers and by the worker. -/
theorem PublisherStep.queue_within (h : PublisherStep config s s')
    (hs : s.queue.Within config.maxQueueSize) : s'.queue.Within config.maxQueueSize := by
  cases h with
  | enter hcall hguarded haccepts => exact hs.push haccepts _
  | wake hevent haccepts => exact hs.push haccepts _
  | _ => exact hs

theorem WorkerStep.queue_within {a : WorkerAction} (h : WorkerStep config s a s')
    (hs : s.queue.Within config.maxQueueSize) : s'.queue.Within config.maxQueueSize := by
  cases h with
  | recv hworker hbuffer =>
    refine hs.recv ?_
    rw [hbuffer, List.length_cons]
    exact Nat.le_succ _
  | drained => exact hs.dropReceiver
  | halt => exact hs.dropReceiver
  | panic => exact hs.dropReceiver
  | _ => exact hs

/-- The dead letter queue is written by handler tasks and by its consumer. -/
theorem HandlerStep.dlq_within {id : Uuid} {task : HandlerTask} {a : HandlerAction}
    (h : HandlerStep config s id task a s')
    (hs : ∃ dlq, s.dlq = some dlq ∧ dlq.Within config.dlqChannelSize) :
    ∃ dlq, s'.dlq = some dlq ∧ dlq.Within config.dlqChannelSize := by
  cases h with
  | deadLetter hphase hdlq hsend =>
    obtain ⟨dlq, heq, hwithin⟩ := hs
    cases heq.symm.trans hdlq
    rcases hsend with ⟨haccepts, rfl⟩ | ⟨-, rfl⟩
    · exact ⟨_, rfl, hwithin.push haccepts _⟩
    · exact ⟨_, rfl, hwithin⟩
  | _ => exact hs

theorem SubscriberStep.dlq_within {a : SubscriberAction} (h : SubscriberStep config s a s')
    (hs : ∃ dlq, s.dlq = some dlq ∧ dlq.Within config.dlqChannelSize) :
    ∃ dlq, s'.dlq = some dlq ∧ dlq.Within config.dlqChannelSize := by
  cases h with
  | unsubscribe =>
    rw [dlq_abort]
    exact hs
  | autoUnsubscribe =>
    rw [dlq_abort]
    exact hs
  | takeDlq hdlq =>
    obtain ⟨dlq, heq, hwithin⟩ := hs
    cases heq.symm.trans hdlq
    refine ⟨_, rfl, hwithin.recv ?_⟩
    rw [List.length_tail]
    exact Nat.sub_le _ _
  | dropDlq =>
    obtain ⟨dlq, heq, hwithin⟩ := hs
    exact ⟨dlq.dropReceiver, by rw [MemoryBus.dropDlq, heq]; rfl, hwithin.dropReceiver⟩
  | _ => exact hs

theorem WithinCapacity.step {a : Action} (hs : s.WithinCapacity config)
    (h : MemoryBus.step config s a = some s') : s'.WithinCapacity config := by
  have hjournals : ∀ id, (s'.journal id).Within config := fun id =>
    (hs.journals id).step (journal_step h id)
  cases a with
  | publisher b =>
    have hstep := stepPublisher_cases h
    refine ⟨hstep.queue_within hs.queue, hjournals, ?_⟩
    obtain ⟨_, _, _, _, rfl⟩ := hstep.frame
    exact hs.dlq
  | worker b =>
    have hstep := stepWorker_cases h
    refine ⟨hstep.queue_within hs.queue, hjournals, ?_⟩
    obtain ⟨_, _, _, _, rfl⟩ := hstep.frame
    exact hs.dlq
  | handler id b =>
    obtain ⟨task, -, hstep⟩ := stepHandler_cases h
    refine ⟨?_, hjournals, hstep.dlq_within hs.dlq⟩
    obtain ⟨_, _, _, _, _, rfl⟩ := hstep.frame
    exact hs.queue
  | subscriber b =>
    have hstep := stepSubscriber_cases h
    refine ⟨?_, hjournals, hstep.dlq_within hs.dlq⟩
    obtain ⟨_, _, _, _, _, rfl⟩ := hstep.frame
    exact hs.queue
  | shutdown b =>
    obtain ⟨_, _, _, _, _, _, _, _, _, rfl⟩ := (stepShutdown_cases h).frame
    exact ⟨hs.queue, hjournals, hs.dlq⟩

theorem withinCapacity_exec {as : List Action} (hexec : exec config (build config) as = some s) :
    s.WithinCapacity config :=
  Transition.invariant (fun _ _ _ hs h => hs.step h) withinCapacity_build hexec

theorem WithinCapacity.task (h : s.WithinCapacity config) {id : Uuid} {task : HandlerTask}
    (htask : s.tasks[id]? = some task) : task.channel.Within config.handlerChannelSize :=
  (h.journals id).channel task.channel task.phase (by rw [journal, htask]; rfl)

/-- A task that has ended takes no more and holds nothing. -/
theorem WithinCapacity.ended (h : s.WithinCapacity config) {id : Uuid} {task : HandlerTask}
    (htask : s.tasks[id]? = some task) (hphase : task.phase = .ended) :
    task.channel.buffer = [] ∧ task.channel.receiver = false :=
  (h.journals id).ended task.channel (by rw [journal, htask, ← hphase]; rfl)

/-- The references to events that the bus holds: in the queue, with the worker, with the
    handler tasks, and in the dead letter queue. -/
def held (s : MemoryBus) : Nat :=
  s.queue.buffer.length + s.worker.event.toList.length +
    Weight.total (fun task => task.held.length) s.tasks +
    s.dlq.elim 0 fun dlq => dlq.buffer.length

/-- The handler tasks that have not ended. -/
def openTasks (s : MemoryBus) : Nat := Weight.total HandlerTask.open s.tasks

theorem WithinCapacity.held_le (h : s.WithinCapacity config) :
    s.held ≤ config.maxQueueSize + 1 + (config.handlerChannelSize + 1) * s.openTasks
      + config.dlqChannelSize := by
  have hhand : s.worker.event.toList.length ≤ 1 := by
    cases s.worker.event <;> simp
  have htasks : Weight.total (fun task => task.held.length) s.tasks
      ≤ (config.handlerChannelSize + 1) * s.openTasks := by
    refine Weight.total_le_mul fun id task htask => ?_
    have hlength := (h.task htask).length_le
    rw [HandlerTask.held, List.length_append, HandlerTask.open]
    cases hphase : task.phase with
    | ended => simp [(h.ended htask hphase).1, HandlerPhase.event]
    | _ => simp [HandlerPhase.event]; omega
  obtain ⟨dlq, hdlq, hwithin⟩ := h.dlq
  have hdead := hwithin.length_le
  have hqueue := h.queue.length_le
  rw [held, hdlq, Option.elim_some]
  omega

/-- **Bounded memory.** In every run, whatever publishers, handlers and shutdown calls do, the
    bus holds no more than its configuration allows for each handler task. -/
theorem held_exec {as : List Action} (hexec : exec config (build config) as = some s) :
    s.held ≤ config.maxQueueSize + 1 + (config.handlerChannelSize + 1) * s.openTasks
      + config.dlqChannelSize :=
  (withinCapacity_exec hexec).held_le

/-- Three orders for one subscription: one is being handled, one waits in the handler channel,
    and one in the queue. -/
def waitingOrders : List Action :=
  [.subscriber (.subscribe 1 "OrderEvent" { id := 10 })] ++ publishSteps 0 (order 7)
    ++ publishSteps 1 (order 8) ++ publishSteps 2 (order 9) ++ dispatchSteps [10]
    ++ [.worker .finish, .handler 10 .recv] ++ dispatchSteps [10] ++ [.worker .finish]

theorem held_waitingOrders :
    ∃ s, exec { handlerChannelSize := 1 } (build { handlerChannelSize := 1 }) waitingOrders
        = some s ∧ s.held = 3 ∧ s.openTasks = 1 ∧
      s.held ≤ 10000 + 1 + (1 + 1) * s.openTasks + 1000 := by
  obtain ⟨s, hs⟩ := Option.isSome_iff_exists.mp
    (by decide +kernel : (exec { handlerChannelSize := 1 } (build { handlerChannelSize := 1 })
      waitingOrders).isSome = true)
  have hseen : (exec { handlerChannelSize := 1 } (build { handlerChannelSize := 1 })
      waitingOrders).map (fun s => (s.held, s.openTasks)) = some (3, 1) := by decide +kernel
  rw [hs] at hseen
  obtain ⟨hheld, hopen⟩ := Prod.mk.inj (Option.some.inj hseen)
  exact ⟨s, hs, hheld, hopen, held_exec hs⟩

end MemoryBus
end TokioEvents
