/-
  TokioEvents.Persistence.Bus.Effects

  What each group of steps can do to the database, to the history and to the events
  that are on their way through handlers.  The invariants of runs are derived from
  these lemmas; they do not unfold the step functions again.
-/

import TokioEvents.Persistence.Bus.System
import TokioEvents.Persistence.Refcount

namespace TokioEvents
namespace PersistentBus

variable {json : SerdeJson} {config : BusConfig} {s s' : PersistentBus}

/-! ## What a group of steps leaves alone -/

/-- The parts of the state that neither the publishers nor the scheduler nor replay
    calls touch. -/
structure SameHandling (s s' : PersistentBus) : Prop where
  manager : s'.manager = s.manager
  closed : s'.closed = s.closed
  busy : s'.busy = s.busy
  worker : s'.worker = s.worker
  history : s'.history = s.history

/-- The calls of publishers are left alone, and the queue gets at most messages without
    a publisher. -/
structure SameCalls (s s' : PersistentBus) : Prop where
  isRunning : s'.isRunning = s.isRunning
  exclusive : s'.exclusive = s.exclusive
  nextCall : s'.nextCall = s.nextCall
  waiting : s'.waiting = s.waiting
  signalled : s'.signalled = s.signalled
  returned : s'.returned = s.returned
  queue : ∃ injected, s'.queue.buffer = s.queue.buffer ++ injected ∧
    ∀ msg ∈ injected, msg.ackTx = none

theorem SameCalls.of_queue_eq (hrunning : s'.isRunning = s.isRunning)
    (hexclusive : s'.exclusive = s.exclusive) (hnext : s'.nextCall = s.nextCall)
    (hwaiting : s'.waiting = s.waiting) (hsignalled : s'.signalled = s.signalled)
    (hreturned : s'.returned = s.returned) (hqueue : s'.queue = s.queue) : SameCalls s s' :=
  ⟨hrunning, hexclusive, hnext, hwaiting, hsignalled, hreturned, [], by simp [hqueue], by simp⟩

/-- A step of the scheduler or of a replay call that sends nothing. -/
theorem frame_tasks (s : PersistentBus) (db : Db) (scheduler : Scheduler) (orphanPolls : List Nat)
    (replays : List Replay) :
    SameHandling s { s with
      db := db, scheduler := scheduler, orphanPolls := orphanPolls, replays := replays } ∧
    SameCalls s { s with
      db := db, scheduler := scheduler, orphanPolls := orphanPolls, replays := replays } :=
  ⟨⟨rfl, rfl, rfl, rfl, rfl⟩, .of_queue_eq rfl rfl rfl rfl rfl rfl rfl⟩

/-- A step of the scheduler or of a replay call that sends an event. -/
theorem frame_send (scheduler : Scheduler) (replays : List Replay) {envelope : EventEnvelope}
    {queue : Mpsc.Channel RedbDispatcherMessage}
    (hsend : s.queue.trySend ⟨envelope, none⟩ = .ok queue) :
    SameHandling s { s with queue := queue, scheduler := scheduler, replays := replays } ∧
    SameCalls s { s with queue := queue, scheduler := scheduler, replays := replays } := by
  obtain ⟨-, rfl⟩ := Mpsc.Channel.trySend_eq_ok.mp hsend
  refine ⟨⟨rfl, rfl, rfl, rfl, rfl⟩, rfl, rfl, rfl, rfl, rfl, rfl, [⟨envelope, none⟩], rfl, ?_⟩
  intro msg hmem
  rw [List.mem_singleton.mp hmem]

/-- A step behind the subscription manager. -/
theorem sameCalls_handling (s : PersistentBus) (db : Db)
    (manager : SubscriptionManager RedbRegistry) (closed : DashMap Uuid (List EventEnvelope))
    (busy : DashMap Uuid EventEnvelope) :
    SameCalls s { s with db := db, manager := manager, closed := closed, busy := busy } :=
  .of_queue_eq rfl rfl rfl rfl rfl rfl rfl

theorem stepPublisher_frame {a : PublisherAction} (h : s.stepPublisher config a = some s') :
    s'.db = s.db ∧ SameHandling s s' := by
  cases a with
  | dispatch envelope =>
    simp only [stepPublisher, dispatch, finish] at h
    repeat' split at h
    all_goals cases h
    all_goals exact ⟨rfl, rfl, rfl, rfl, rfl, rfl⟩
  | tryDispatch envelope =>
    simp only [stepPublisher, tryDispatch] at h
    repeat' split at h
    all_goals cases h
    all_goals exact ⟨rfl, rfl, rfl, rfl, rfl, rfl⟩
  | returns call =>
    simp only [stepPublisher, returns, finish] at h
    split at h <;> cases h
    exact ⟨rfl, rfl, rfl, rfl, rfl, rfl⟩
  | cancel call =>
    simp only [stepPublisher, cancel] at h
    split at h <;> cases h
    exact ⟨rfl, rfl, rfl, rfl, rfl, rfl⟩

/-- A publisher puts at most the event it was called with into the queue. -/
theorem stepPublisher_queue {a : PublisherAction} (h : s.stepPublisher config a = some s') :
    s'.replays = s.replays ∧ s'.scheduler = s.scheduler ∧
      (s'.queue = s.queue ∨ ∃ envelope ackTx,
        (a = .dispatch envelope ∨ a = .tryDispatch envelope) ∧
          s'.queue = s.queue.push ⟨envelope, ackTx⟩) := by
  cases a with
  | dispatch envelope =>
    simp only [stepPublisher, dispatch, finish] at h
    repeat' split at h
    all_goals cases h
    all_goals first
      | exact ⟨rfl, rfl, .inl rfl⟩
      | obtain ⟨-, rfl⟩ := Mpsc.Channel.trySend_eq_ok.mp ‹s.queue.trySend _ = .ok _›
        exact ⟨rfl, rfl, .inr ⟨envelope, _, .inl rfl, rfl⟩⟩
  | tryDispatch envelope =>
    simp only [stepPublisher, tryDispatch] at h
    repeat' split at h
    all_goals cases h
    all_goals first
      | exact ⟨rfl, rfl, .inl rfl⟩
      | obtain ⟨-, rfl⟩ := Mpsc.Channel.trySend_eq_ok.mp ‹s.queue.trySend _ = .ok _›
        exact ⟨rfl, rfl, .inr ⟨envelope, _, .inr rfl, rfl⟩⟩
  | returns call =>
    simp only [stepPublisher, returns, finish] at h
    split at h <;> cases h
    exact ⟨rfl, rfl, .inl rfl⟩
  | cancel call =>
    simp only [stepPublisher, cancel] at h
    split at h <;> cases h
    exact ⟨rfl, rfl, .inl rfl⟩

/-- The time of the poll that a step commits, if it commits one. -/
def pollTime (s : PersistentBus) : SchedulerAction → Option Nat
  | .poll true =>
    match s.scheduler with
    | .polling nowMs => some nowMs
    | _ => none
  | .orphanPoll index true => s.orphanPolls[index]?
  | _ => none

theorem stepScheduler_frame {a : SchedulerAction} (h : s.stepScheduler json a = some s') :
    s'.db = (s.pollTime a).elim s.db s.db.poll ∧ SameHandling s s' ∧ SameCalls s s' := by
  cases a with
  | wake now =>
    simp only [stepScheduler, wake] at h
    repeat' split at h
    all_goals cases h
    all_goals exact ⟨rfl, frame_tasks ..⟩
  | poll commits =>
    simp only [stepScheduler, poll] at h
    split at h
    · rename_i nowMs hphase
      cases commits <;> cases h
      · exact ⟨rfl, frame_tasks ..⟩
      · exact ⟨by simp [pollTime, hphase], frame_tasks ..⟩
    · cases h
  | fire =>
    simp only [stepScheduler, fire] at h
    repeat' split at h
    all_goals cases h
    all_goals exact ⟨rfl, frame_tasks ..⟩
  | send =>
    simp only [stepScheduler, schedulerSend] at h
    repeat' split at h
    all_goals cases h
    · exact ⟨rfl, frame_send _ _ ‹_›⟩
    · exact ⟨rfl, frame_tasks ..⟩
  | orphanPoll index commits =>
    simp only [stepScheduler, orphanPoll] at h
    split at h
    · rename_i nowMs hpoll
      cases commits <;> cases h
      · exact ⟨rfl, frame_tasks ..⟩
      · exact ⟨by simp [pollTime, hpoll], frame_tasks ..⟩
    · cases h

theorem replays_stepScheduler {a : SchedulerAction} (h : s.stepScheduler json a = some s') :
    s'.replays = s.replays := by
  cases a with
  | wake now =>
    simp only [stepScheduler, wake] at h
    repeat' split at h
    all_goals cases h
    all_goals rfl
  | poll commits =>
    simp only [stepScheduler, poll] at h
    repeat' split at h
    all_goals cases h
    all_goals rfl
  | fire =>
    simp only [stepScheduler, fire] at h
    repeat' split at h
    all_goals cases h
    all_goals rfl
  | send =>
    simp only [stepScheduler, schedulerSend] at h
    repeat' split at h
    all_goals cases h
    all_goals rfl
  | orphanPoll index commits =>
    simp only [stepScheduler, orphanPoll] at h
    split at h
    · cases commits <;> cases h <;> rfl
    · cases h

/-- The events a step collects as dead, if it commits a collection. -/
def collected (s : PersistentBus) : ReplayAction → Option (List Uuid)
  | .collect index true =>
    match s.replays[index]? with
    | some (.pending [] dead) => some dead
    | _ => none
  | _ => none

theorem stepReplay_frame {a : ReplayAction} (h : s.stepReplay json a = some s') :
    (∃ envelopes, s'.db = (s.collected a).elim (s.db.removeDlq envelopes) s.db.collectDead) ∧
      SameHandling s s' ∧ SameCalls s s' := by
  cases a with
  | collect index commits =>
    simp only [stepReplay, replayCollect] at h
    split at h
    · rename_i dead hreplay
      cases commits <;> cases h
      · exact ⟨⟨[], rfl⟩, frame_tasks ..⟩
      · exact ⟨⟨[], by simp [collected, hreplay]⟩, frame_tasks ..⟩
    · cases h
  | dlq =>
    simp only [stepReplay, replayDlq] at h
    split at h
    · cases h
    · cases h
      exact ⟨⟨_, rfl⟩, frame_tasks ..⟩
  | pending =>
    simp only [stepReplay, replayPending] at h
    split at h <;> cases h
    exact ⟨⟨[], rfl⟩, frame_tasks ..⟩
  | visit index =>
    simp only [stepReplay, replayVisit] at h
    split at h <;> cases h
    exact ⟨⟨[], rfl⟩, frame_tasks ..⟩
  | send index =>
    simp only [stepReplay, replaySend] at h
    repeat' split at h
    all_goals cases h
    · exact ⟨⟨[], rfl⟩, frame_send _ _ ‹_›⟩
    · exact ⟨⟨[], rfl⟩, frame_tasks ..⟩
  | fail index =>
    simp only [stepReplay, replayFail] at h
    split at h <;> cases h
    exact ⟨⟨[], rfl⟩, frame_tasks ..⟩
  | dlqSend index =>
    simp only [stepReplay, replayDlqSend] at h
    repeat' split at h
    all_goals cases h
    · exact ⟨⟨[], rfl⟩, frame_tasks ..⟩
    · exact ⟨⟨[], rfl⟩, frame_send _ _ ‹_›⟩
    · exact ⟨⟨[], rfl⟩, frame_tasks ..⟩
    · exact ⟨⟨[], rfl⟩, frame_tasks ..⟩

/-! ## The steps behind the subscription manager -/

/-- A call on the registry sends no completion. -/
theorem ackTx_apply (r : RedbRegistry) (op : RegistryOp) : (op.apply r).ackTx = r.ackTx := by
  cases op <;> rfl

theorem ackTx_run (r : RedbRegistry) (ops : List RegistryOp) :
    (RegistryOp.run r ops).ackTx = r.ackTx := by
  induction ops generalizing r with
  | nil => rfl
  | cons op ops ih => rw [RegistryOp.run_cons, ih, ackTx_apply]

theorem openChannel_cases {id : Uuid} (h : s.openChannel id = some s') :
    s.manager.subscriptions[id]? = none ∧
      s' = { s with manager := { s.manager with
        subscriptions := s.manager.subscriptions.insert id ⟨[], true⟩ } } := by
  unfold openChannel at h
  split at h
  · cases h
  · rename_i hnone
    cases h
    exact ⟨hnone, rfl⟩

theorem closeChannel_cases {id : Uuid} (h : s.closeChannel id = some s') :
    ∃ data, s.manager.subscriptions[id]? = some data ∧
      s' = { s with
        manager := { s.manager with subscriptions := s.manager.subscriptions.erase id }
        closed := if data.live then s.closed.insert id data.channel else s.closed } := by
  unfold closeChannel at h
  split at h
  · rename_i data hdata
    cases h
    exact ⟨data, hdata, rfl⟩
  · cases h

/-- An idle handler takes the head of its channel, open or closed. -/
theorem handlerTake_cases {id : Uuid} (h : s.handlerTake id = some s') :
    s.busy[id]? = none ∧ ∃ envelope rest,
      (s.manager.subscriptions[id]? = some ⟨envelope :: rest, true⟩ ∧
        s' = { s with
          manager := { s.manager with
            subscriptions := s.manager.subscriptions.insert id ⟨rest, true⟩ }
          busy := s.busy.insert id envelope }) ∨
      (s.closed[id]? = some (envelope :: rest) ∧
        s' = { s with
          closed := s.closed.insert id rest, busy := s.busy.insert id envelope }) := by
  unfold handlerTake at h
  split at h
  · rename_i envelope rest hidle hdata
    cases h
    exact ⟨hidle, envelope, rest, .inl ⟨hdata, rfl⟩⟩
  · rename_i envelope rest hidle _ hclosed
    cases h
    exact ⟨hidle, envelope, rest, .inr ⟨hclosed, rfl⟩⟩
  · cases h

/-- The completion of a handler is sent to the ack worker; a success is counted. -/
theorem handlerComplete_cases {id : Uuid} {isSuccess : Bool}
    (h : s.handlerComplete id isSuccess = some s') :
    ∃ envelope registry, s.busy[id]? = some envelope ∧
      registry.ackTx = s.manager.registry.ackTx ++ [(envelope.eventId, isSuccess)] ∧
      registry.inner = (if isSuccess then s.manager.registry.inner.incrementProcessed id
        else s.manager.registry.inner) ∧
      s' = { s with
        manager := { s.manager with registry := registry }, busy := s.busy.erase id } := by
  unfold handlerComplete at h
  split at h
  · rename_i envelope hbusy
    cases h
    refine ⟨envelope, _, hbusy, ?_, ?_, rfl⟩
    · cases isSuccess <;> rfl
    · cases isSuccess <;> rfl
  · cases h

theorem ack_step_cases {commits : Bool} (h : s.ack commits = some s') :
    ∃ completion rest, s.manager.registry.ackTx = completion :: rest ∧
      s' = { s with
        manager := { s.manager with registry := { s.manager.registry with ackTx := rest } }
        db := if commits then s.db.ack completion else s.db } := by
  unfold ack at h
  split at h
  · cases h
  · rename_i completion rest hack
    cases h
    exact ⟨completion, rest, hack, rfl⟩

/-- The steps behind the manager change the database only through the ack worker. -/
theorem stepHandler_frame {a : HandlerAction} (h : s.stepHandler a = some s') :
    (s'.db = s.db ∨ ∃ completion ∈ s.manager.registry.ackTx, s'.db = s.db.ack completion) ∧
      s'.worker = s.worker ∧ s'.history = s.history ∧ SameCalls s s' := by
  cases a with
  | ack commits =>
    obtain ⟨completion, rest, hack, rfl⟩ := ack_step_cases h
    cases commits with
    | false => exact ⟨.inl rfl, rfl, rfl, sameCalls_handling ..⟩
    | true => exact ⟨.inr ⟨completion, by simp [hack], rfl⟩, rfl, rfl, sameCalls_handling ..⟩
  | registry op =>
    cases h
    exact ⟨.inl rfl, rfl, rfl, sameCalls_handling ..⟩
  | openChannel id =>
    obtain ⟨-, rfl⟩ := openChannel_cases h
    exact ⟨.inl rfl, rfl, rfl, sameCalls_handling ..⟩
  | removeChannel id =>
    cases h
    exact ⟨.inl rfl, rfl, rfl, sameCalls_handling ..⟩
  | closeChannel id =>
    obtain ⟨data, -, rfl⟩ := closeChannel_cases h
    exact ⟨.inl rfl, rfl, rfl, sameCalls_handling ..⟩
  | take id =>
    obtain ⟨-, envelope, rest, ⟨-, rfl⟩ | ⟨-, rfl⟩⟩ := handlerTake_cases h
    · exact ⟨.inl rfl, rfl, rfl, sameCalls_handling ..⟩
    · exact ⟨.inl rfl, rfl, rfl, sameCalls_handling ..⟩
  | complete id isSuccess =>
    obtain ⟨envelope, registry, -, -, -, rfl⟩ := handlerComplete_cases h
    exact ⟨.inl rfl, rfl, rfl, sameCalls_handling ..⟩
  | exit id =>
    cases h
    exact ⟨.inl rfl, rfl, rfl, sameCalls_handling ..⟩

/-- The steps behind the manager leave the queue and those who send to it alone. -/
theorem stepHandler_sameInputs {a : HandlerAction} (h : s.stepHandler a = some s') :
    s'.queue = s.queue ∧ s'.replays = s.replays ∧ s'.scheduler = s.scheduler := by
  cases a with
  | ack commits =>
    obtain ⟨completion, rest, -, rfl⟩ := ack_step_cases h
    exact ⟨rfl, rfl, rfl⟩
  | registry op => cases h; exact ⟨rfl, rfl, rfl⟩
  | openChannel id =>
    obtain ⟨-, rfl⟩ := openChannel_cases h
    exact ⟨rfl, rfl, rfl⟩
  | removeChannel id => cases h; exact ⟨rfl, rfl, rfl⟩
  | closeChannel id =>
    obtain ⟨data, -, rfl⟩ := closeChannel_cases h
    exact ⟨rfl, rfl, rfl⟩
  | take id =>
    obtain ⟨-, envelope, rest, ⟨-, rfl⟩ | ⟨-, rfl⟩⟩ := handlerTake_cases h
    · exact ⟨rfl, rfl, rfl⟩
    · exact ⟨rfl, rfl, rfl⟩
  | complete id isSuccess =>
    obtain ⟨envelope, registry, -, -, -, rfl⟩ := handlerComplete_cases h
    exact ⟨rfl, rfl, rfl⟩
  | exit id => cases h; exact ⟨rfl, rfl, rfl⟩

theorem stepControl_frame {a : ControlAction} (h : s.stepControl json config a = some s') :
    s'.db = s.db ∧ s'.history = s.history := by
  cases a with
  | start =>
    simp only [stepControl, start] at h
    repeat' split at h
    all_goals cases h
    all_goals exact ⟨rfl, rfl⟩
  | stop =>
    simp only [stepControl, stop] at h
    split at h <;> cases h
    exact ⟨rfl, rfl⟩
  | abortScheduler =>
    simp only [stepControl, abortScheduler] at h
    split at h <;> cases h
    exact ⟨rfl, rfl⟩
  | closeSender =>
    simp only [stepControl, closeSender] at h
    split at h <;> cases h
    exact ⟨rfl, rfl⟩
  | joinWorker =>
    simp only [stepControl, joinWorker] at h
    split at h <;> cases h
    exact ⟨rfl, rfl⟩
  | crash => cases h; exact ⟨rfl, rfl⟩

/-- What starting and stopping the dispatcher leaves alone: the first `start` spawns the
    tasks. -/
structure SameWork (s s' : PersistentBus) : Prop where
  db : s'.db = s.db
  manager : s'.manager = s.manager
  closed : s'.closed = s.closed
  busy : s'.busy = s.busy
  queue : s'.queue = s.queue
  replays : s'.replays = s.replays
  worker : s'.worker = s.worker ∨ s.worker = .unspawned ∧ s'.worker = .receiving
  scheduler : s'.scheduler = s.scheduler ∨ s'.scheduler = .sleeping ∨ s'.scheduler = .stopped

theorem stepControl_sameWork {a : ControlAction} (h : s.stepControl json config a = some s')
    (ha : a ≠ .crash) : SameWork s s' := by
  cases a with
  | start =>
    simp only [stepControl, start] at h
    repeat' split at h
    all_goals cases h
    · exact ⟨rfl, rfl, rfl, rfl, rfl, rfl, .inl rfl, .inl rfl⟩
    · exact ⟨rfl, rfl, rfl, rfl, rfl, rfl, .inr ⟨‹_›, rfl⟩, .inr (.inl rfl)⟩
    · exact ⟨rfl, rfl, rfl, rfl, rfl, rfl, .inr ⟨‹_›, rfl⟩, .inl rfl⟩
    · exact ⟨rfl, rfl, rfl, rfl, rfl, rfl, .inl rfl, .inl rfl⟩
  | stop =>
    simp only [stepControl, stop] at h
    split at h <;> cases h
    exact ⟨rfl, rfl, rfl, rfl, rfl, rfl, .inl rfl, .inl rfl⟩
  | abortScheduler =>
    simp only [stepControl, abortScheduler] at h
    split at h <;> cases h
    exact ⟨rfl, rfl, rfl, rfl, rfl, rfl, .inl rfl, .inr (.inr rfl)⟩
  | closeSender =>
    simp only [stepControl, closeSender] at h
    split at h <;> cases h
    exact ⟨rfl, rfl, rfl, rfl, rfl, rfl, .inl rfl, .inl rfl⟩
  | joinWorker =>
    simp only [stepControl, joinWorker] at h
    split at h <;> cases h
    exact ⟨rfl, rfl, rfl, rfl, rfl, rfl, .inl rfl, .inl rfl⟩
  | crash => exact absurd rfl ha

/-! ## The steps of the worker -/

theorem recv_cases (h : s.recv = some s') : s.worker = .receiving ∧
    ((∃ msg rest, s.queue.buffer = msg :: rest ∧
        s' = { s with worker := .draining [msg], queue := { s.queue with buffer := rest } }) ∨
      ((s.isRunning = false ∨ s.queue.buffer = []) ∧ s' = s.stopWorker)) := by
  unfold recv at h
  split at h
  · rename_i msg rest hphase hqueue
    split at h
    · rename_i hstopped
      cases h
      exact ⟨hphase, .inr ⟨.inl (by simpa using hstopped), rfl⟩⟩
    · cases h
      exact ⟨hphase, .inl ⟨msg, rest, hqueue, rfl⟩⟩
  · rename_i hphase hqueue
    split at h
    · cases h
      exact ⟨hphase, .inr ⟨.inr hqueue, rfl⟩⟩
    · cases h
  · cases h

theorem tryRecv_cases (h : s.tryRecv = some s') :
    ∃ batch msg rest, s.worker = .draining batch ∧ s.queue.buffer = msg :: rest ∧
      s' = { s with
        worker := .draining (batch ++ [msg])
        queue := { s.queue with buffer := rest } } := by
  unfold tryRecv at h
  split at h
  · rename_i batch msg rest hphase hqueue
    split at h
    · cases h
      exact ⟨batch, msg, rest, hphase, hqueue, rfl⟩
    · cases h
  · cases h

theorem check_cases {reads : String → Bool} (h : s.check reads = some s') :
    ∃ batch checked, s.worker = .draining batch ∧
      checked = DupCheck.run RedbDispatcherMessage.idempotencyKey
        (fun key => reads key && s.db.keyRecorded key) batch ∧
      s' = { s with
        worker := .counting [] checked.valid
        signalled := s.signalled ++ checked.duplicates.filterMap (·.ackTx)
        history := { s.history with
          discarded := s.history.discarded ++ checked.duplicates.filterMap (·.ackTx) } } := by
  unfold check at h
  split at h
  · rename_i batch hphase
    split at h
    · cases h
      exact ⟨batch, _, hphase, rfl, rfl⟩
    · cases h
  · cases h

theorem count_cases {now : DateTime} (h : s.count config now = some s') :
    ∃ done msg rest n, s.worker = .counting done (msg :: rest) ∧
      n = s.manager.registry.subCount msg.envelope ∧
      s' = { s with
        worker := .counting (done ++ [⟨msg, n, now⟩]) rest
        history := { s.history with
          uncounted :=
            if n = 0 then s.history.uncounted ++ msg.ackTx.toList else s.history.uncounted } } := by
  unfold count at h
  split at h
  · rename_i done msg rest hphase
    rw [SubscriptionManager.subCount_redb] at h
    cases h
    exact ⟨done, msg, rest, _, hphase, rfl, rfl⟩
  · cases h

theorem deliver_cases {now : DateTime} (h : s.deliver now = some s') :
    (s.worker = .delivering [] ∧ s' = { s with worker := .receiving }) ∨
    ∃ msg rest, s.worker = .delivering (msg :: rest) ∧
      ((msg.envelope.isScheduled now = true ∧ s' = { s with
          signalled := s.signalled ++ msg.ackTx.toList
          worker := .delivering rest }) ∨
        (msg.envelope.isScheduled now = false ∧ s' = { s with
          signalled := s.signalled ++ msg.ackTx.toList
          worker := .dispatching msg.envelope (s.manager.senders msg.envelope) rest
          history := { s.history with
            handed := s.history.handed ++ [msg.envelope.eventId] } })) := by
  unfold deliver at h
  split at h
  · rename_i hphase
    cases h
    exact .inl ⟨hphase, rfl⟩
  · rename_i msg rest hphase
    right
    refine ⟨msg, rest, hphase, ?_⟩
    dsimp only at h
    split at h
    · rename_i hscheduled
      cases h
      exact .inl ⟨hscheduled, rfl⟩
    · rename_i hdue
      cases h
      exact .inr ⟨by simpa using hdue, rfl⟩
  · cases h

/-- The channels that are left to their handlers, after a send to the subscription. -/
def pushClosed (envelope : EventEnvelope) (s : PersistentBus) (id : Uuid) :
    DashMap Uuid (List EventEnvelope) :=
  match s.manager.subscriptions[id]?, s.closed[id]? with
  | none, some channel => s.closed.insert id (channel ++ [envelope])
  | _, _ => s.closed

theorem getElem?_pushClosed (envelope : EventEnvelope) (s : PersistentBus) (id i : Uuid) :
    (pushClosed envelope s id)[i]?
      = if id = i ∧ s.manager.subscriptions[id]? = none then s.closed[i]?.map (· ++ [envelope])
        else s.closed[i]? := by
  unfold pushClosed
  cases s.manager.subscriptions[id]? with
  | some data => simp
  | none =>
    cases hclosed : s.closed[id]? with
    | none =>
      by_cases hid : id = i
      · subst hid
        simp [hclosed]
      · simp [hid]
    | some channel =>
      by_cases hid : id = i
      · subst hid
        simp [hclosed]
      · simp [Std.ExtTreeMap.getElem?_insert, hid]

/-- What waits in a channel that is left to its handler has waited there, or was sent. -/
theorem mem_pushClosed {envelope envelope' : EventEnvelope} {id i : Uuid}
    {channel : List EventEnvelope} (h : (pushClosed envelope s id)[i]? = some channel)
    (hmem : envelope' ∈ channel) :
    (∃ before, s.closed[i]? = some before ∧ envelope' ∈ before) ∨ envelope' = envelope := by
  rw [getElem?_pushClosed] at h
  split at h
  · obtain ⟨before, hbefore, rfl⟩ := Option.map_eq_some_iff.mp h
    rcases List.mem_append.mp hmem with hold | hnew
    · exact .inl ⟨before, hbefore, hold⟩
    · exact .inr (List.mem_singleton.mp hnew)
  · exact .inl ⟨channel, h, hmem⟩

theorem push_cases {id : Uuid} (h : s.push config id = some s') :
    ∃ envelope sends rest, s.worker = .dispatching envelope sends rest ∧ id ∈ sends ∧
      s' = { s with
        worker := .dispatching envelope (sends.erase id) rest
        manager := { s.manager with
          subscriptions := SubscriptionManager.push envelope s.manager.subscriptions id }
        closed := pushClosed envelope s id } := by
  unfold push at h
  split at h
  · rename_i envelope sends rest hphase
    split at h
    · rename_i hmem
      refine ⟨envelope, sends, rest, hphase, hmem, ?_⟩
      unfold pushClosed
      split at h
      · rename_i data hdata
        split at h
        · cases h
        · cases h
          simp only [hdata]
      · rename_i hnone
        have hsame : SubscriptionManager.push envelope s.manager.subscriptions id
            = s.manager.subscriptions := by
          unfold SubscriptionManager.push
          rw [hnone]
        rw [hsame, hnone]
        split at h
        · rename_i channel hchannel
          rw [hchannel]
          split at h
          · cases h
          · cases h
            rfl
        · rename_i hgone
          rw [hgone]
          cases h
          rfl
    · cases h
  · cases h

theorem dispatched_cases (h : s.dispatched config = some s') :
    ∃ envelope sends rest, s.worker = .dispatching envelope sends rest ∧
      s' = { s with worker := .delivering rest } := by
  unfold dispatched at h
  split at h
  · rename_i envelope sends rest hphase
    split at h
    · cases h
      exact ⟨envelope, sends, rest, hphase, rfl⟩
    · cases h
  · cases h

theorem workerPanic_cases (h : s.workerPanic = some s') :
    ((∃ done rest, s.worker = .counting done rest) ∨
      ∃ envelope sends rest, s.worker = .dispatching envelope sends rest) ∧
    s' = s.stopWorker := by
  unfold workerPanic at h
  split at h
  · rename_i done rest hphase
    cases h
    exact ⟨.inl ⟨done, rest, hphase⟩, rfl⟩
  · rename_i envelope sends rest hphase
    cases h
    exact ⟨.inr ⟨envelope, sends, rest, hphase⟩, rfl⟩
  · cases h

/-- How the write step of a counted batch ends. -/
def writeResult (json : SerdeJson) (faults : RedbCall → Option Fault) (done : List Counted) :
    WriteOutcome :=
  if (rowsOf json done).isEmpty then .committed else writeOutcome faults (rowsOf json done)

/-- **The write step**, by the way it ends. -/
theorem write_cases {faults : RedbCall → Option Fault} (h : s.write json faults = some s') :
    ∃ done, s.worker = .counting done [] ∧
      ((writeResult json faults done = .committed ∧
        s' = { s with
          db := s.db.insertRows (rowsOf json done)
          worker := .delivering (done.map (·.msg))
          history := { s.history with
            scheduled :=
              s.history.scheduled ++ ((rowsOf json done).filter (·.isScheduled)).map (·.id)
            persisted := s.history.persisted ++ persistedCalls json done } }) ∨
      (∃ msg, writeResult json faults done = .failed msg ∧
        s' = { s with worker := .delivering (done.map (·.msg)) }) ∨
      (writeResult json faults done = .panicked ∧ s' = { s with worker := .receiving })) := by
  unfold write at h
  split at h
  · rename_i done hphase
    refine ⟨done, hphase, ?_⟩
    unfold writeResult
    dsimp only at h
    rw [joinWrite_writeTxn] at h
    by_cases hempty : (rowsOf json done).isEmpty = true
    · simp only [hempty, ↓reduceIte] at h ⊢
      cases h
      exact .inl ⟨trivial, by rw [List.isEmpty_iff.mp hempty]; rfl⟩
    · simp only [hempty, Bool.false_eq_true, ↓reduceIte] at h ⊢
      cases hout : writeOutcome faults (rowsOf json done) with
      | committed =>
        rw [hout] at h
        cases h
        exact .inl ⟨rfl, rfl⟩
      | failed msg =>
        rw [hout] at h
        cases h
        exact .inr (.inl ⟨msg, rfl, rfl⟩)
      | panicked =>
        rw [hout] at h
        cases h
        exact .inr (.inr ⟨rfl, rfl⟩)
  · cases h

/-- The worker changes the database only by committing the rows of a counted batch,
    and it never takes an event out of the history. -/
theorem stepWorker_db {a : WorkerAction} (h : s.stepWorker json config a = some s') :
    s.history.handed ⊆ s'.history.handed ∧
    ((s'.db = s.db ∧ s'.history.scheduled = s.history.scheduled ∧
        s'.history.persisted = s.history.persisted) ∨
      ∃ done, s'.db = s.db.insertRows (rowsOf json done) ∧
        s'.history.scheduled
          = s.history.scheduled ++ ((rowsOf json done).filter (·.isScheduled)).map (·.id) ∧
        s'.history.persisted = s.history.persisted ++ persistedCalls json done) := by
  cases a with
  | write faults =>
    obtain ⟨done, -, ⟨-, rfl⟩ | ⟨msg, -, rfl⟩ | ⟨-, rfl⟩⟩ := write_cases h
    · exact ⟨List.Subset.refl _, .inr ⟨done, rfl, rfl, rfl⟩⟩
    · exact ⟨List.Subset.refl _, .inl ⟨rfl, rfl, rfl⟩⟩
    · exact ⟨List.Subset.refl _, .inl ⟨rfl, rfl, rfl⟩⟩
  | deliver now =>
    obtain ⟨-, rfl⟩ | ⟨msg, rest, -, ⟨-, rfl⟩ | ⟨-, rfl⟩⟩ := deliver_cases h
    · exact ⟨List.Subset.refl _, .inl ⟨rfl, rfl, rfl⟩⟩
    · exact ⟨List.Subset.refl _, .inl ⟨rfl, rfl, rfl⟩⟩
    · exact ⟨List.subset_append_left _ _, .inl ⟨rfl, rfl, rfl⟩⟩
  | recv =>
    obtain ⟨-, ⟨msg, rest, -, rfl⟩ | ⟨-, rfl⟩⟩ := recv_cases h
    · exact ⟨List.Subset.refl _, .inl ⟨rfl, rfl, rfl⟩⟩
    · exact ⟨List.Subset.refl _, .inl ⟨rfl, rfl, rfl⟩⟩
  | tryRecv =>
    obtain ⟨batch, msg, rest, -, -, rfl⟩ := tryRecv_cases h
    exact ⟨List.Subset.refl _, .inl ⟨rfl, rfl, rfl⟩⟩
  | check reads =>
    obtain ⟨batch, checked, -, -, rfl⟩ := check_cases h
    exact ⟨List.Subset.refl _, .inl ⟨rfl, rfl, rfl⟩⟩
  | count now =>
    obtain ⟨done, msg, rest, n, -, -, rfl⟩ := count_cases h
    exact ⟨List.Subset.refl _, .inl ⟨rfl, rfl, rfl⟩⟩
  | push id =>
    obtain ⟨envelope, sends, rest, -, -, rfl⟩ := push_cases h
    exact ⟨List.Subset.refl _, .inl ⟨rfl, rfl, rfl⟩⟩
  | dispatched =>
    obtain ⟨envelope, sends, rest, -, rfl⟩ := dispatched_cases h
    exact ⟨List.Subset.refl _, .inl ⟨rfl, rfl, rfl⟩⟩
  | panic =>
    obtain ⟨-, rfl⟩ := workerPanic_cases h
    exact ⟨List.Subset.refl _, .inl ⟨rfl, rfl, rfl⟩⟩

/-- The worker only passes messages on. -/
theorem messages_stepWorker {a : WorkerAction} (h : s.stepWorker json config a = some s') :
    s'.messages ⊆ s.messages := by
  cases a with
  | recv =>
    obtain ⟨hphase, ⟨msg, rest, hqueue, rfl⟩ | ⟨-, rfl⟩⟩ := recv_cases h
    · intro m hm
      simpa [PersistentBus.messages, hphase, hqueue, Worker.messages, or_comm] using hm
    · exact List.nil_subset _
  | tryRecv =>
    obtain ⟨batch, msg, rest, hphase, hqueue, rfl⟩ := tryRecv_cases h
    intro m hm
    simp only [PersistentBus.messages, hphase, hqueue, Worker.messages, List.mem_append,
      List.mem_cons, List.not_mem_nil, or_false] at hm ⊢
    tauto
  | check reads =>
    obtain ⟨batch, checked, hphase, rfl, rfl⟩ := check_cases h
    intro m hm
    simp only [PersistentBus.messages, hphase, Worker.messages, List.map_nil, List.nil_append,
      List.mem_append] at hm ⊢
    exact hm.imp_right fun hvalid => (DupCheck.valid_sublist _ _ batch).subset hvalid
  | count now =>
    obtain ⟨done, msg, rest, n, hphase, -, rfl⟩ := count_cases h
    intro m hm
    simpa [PersistentBus.messages, hphase, Worker.messages] using hm
  | write faults =>
    obtain ⟨done, hphase, ⟨-, rfl⟩ | ⟨msg, -, rfl⟩ | ⟨-, rfl⟩⟩ := write_cases h
    · intro m hm
      simpa [PersistentBus.messages, hphase, Worker.messages] using hm
    · intro m hm
      simpa [PersistentBus.messages, hphase, Worker.messages] using hm
    · intro m hm
      simp only [PersistentBus.messages, Worker.messages, List.append_nil] at hm ⊢
      exact List.mem_append_left _ hm
  | deliver now =>
    obtain ⟨hphase, rfl⟩ | ⟨msg, rest, hphase, ⟨-, rfl⟩ | ⟨-, rfl⟩⟩ := deliver_cases h
    · intro m hm
      simpa [PersistentBus.messages, hphase, Worker.messages] using hm
    · intro m hm
      simp only [PersistentBus.messages, hphase, Worker.messages, List.mem_append,
        List.mem_cons] at hm ⊢
      tauto
    · intro m hm
      simp only [PersistentBus.messages, hphase, Worker.messages, List.mem_append,
        List.mem_cons] at hm ⊢
      tauto
  | push id =>
    obtain ⟨envelope, sends, rest, hphase, -, rfl⟩ := push_cases h
    intro m hm
    simpa [PersistentBus.messages, hphase, Worker.messages] using hm
  | dispatched =>
    obtain ⟨envelope, sends, rest, hphase, rfl⟩ := dispatched_cases h
    intro m hm
    simpa [PersistentBus.messages, hphase, Worker.messages] using hm
  | panic =>
    obtain ⟨-, rfl⟩ := workerPanic_cases h
    exact List.nil_subset _

/-- The write step of a counted batch is the only one that changes the database. -/
theorem stepWorker_rows {a : WorkerAction} (h : s.stepWorker json config a = some s') :
    s'.db = s.db ∨ ∃ faults done, a = .write faults ∧ s.worker = .counting done [] ∧
      writeResult json faults done = .committed ∧ s'.db = s.db.insertRows (rowsOf json done) := by
  cases a with
  | write faults =>
    obtain ⟨done, hphase, ⟨hcommitted, rfl⟩ | ⟨msg, -, rfl⟩ | ⟨-, rfl⟩⟩ := write_cases h
    · exact .inr ⟨faults, done, rfl, hphase, hcommitted, rfl⟩
    · exact .inl rfl
    · exact .inl rfl
  | recv =>
    obtain ⟨-, ⟨msg, rest, -, rfl⟩ | ⟨-, rfl⟩⟩ := recv_cases h
    · exact .inl rfl
    · exact .inl rfl
  | tryRecv =>
    obtain ⟨batch, msg, rest, -, -, rfl⟩ := tryRecv_cases h
    exact .inl rfl
  | check reads =>
    obtain ⟨batch, checked, -, -, rfl⟩ := check_cases h
    exact .inl rfl
  | count now =>
    obtain ⟨done, msg, rest, n, -, -, rfl⟩ := count_cases h
    exact .inl rfl
  | deliver now =>
    obtain ⟨-, rfl⟩ | ⟨msg, rest, -, ⟨-, rfl⟩ | ⟨-, rfl⟩⟩ := deliver_cases h
    · exact .inl rfl
    · exact .inl rfl
    · exact .inl rfl
  | push id =>
    obtain ⟨envelope, sends, rest, -, -, rfl⟩ := push_cases h
    exact .inl rfl
  | dispatched =>
    obtain ⟨envelope, sends, rest, -, rfl⟩ := dispatched_cases h
    exact .inl rfl
  | panic =>
    obtain ⟨-, rfl⟩ := workerPanic_cases h
    exact .inl rfl

/-- What the worker leaves alone. -/
structure SameTasks (s s' : PersistentBus) : Prop where
  registry : s'.manager.registry = s.manager.registry
  busy : s'.busy = s.busy
  replays : s'.replays = s.replays
  scheduler : s'.scheduler = s.scheduler

theorem stepWorker_sameTasks {a : WorkerAction} (h : s.stepWorker json config a = some s') :
    SameTasks s s' := by
  cases a with
  | recv =>
    obtain ⟨-, ⟨msg, rest, -, rfl⟩ | ⟨-, rfl⟩⟩ := recv_cases h
    · exact ⟨rfl, rfl, rfl, rfl⟩
    · exact ⟨rfl, rfl, rfl, rfl⟩
  | tryRecv =>
    obtain ⟨batch, msg, rest, -, -, rfl⟩ := tryRecv_cases h
    exact ⟨rfl, rfl, rfl, rfl⟩
  | check reads =>
    obtain ⟨batch, checked, -, -, rfl⟩ := check_cases h
    exact ⟨rfl, rfl, rfl, rfl⟩
  | count now =>
    obtain ⟨done, msg, rest, n, -, -, rfl⟩ := count_cases h
    exact ⟨rfl, rfl, rfl, rfl⟩
  | write faults =>
    obtain ⟨done, -, ⟨-, rfl⟩ | ⟨msg, -, rfl⟩ | ⟨-, rfl⟩⟩ := write_cases h
    · exact ⟨rfl, rfl, rfl, rfl⟩
    · exact ⟨rfl, rfl, rfl, rfl⟩
    · exact ⟨rfl, rfl, rfl, rfl⟩
  | deliver now =>
    obtain ⟨-, rfl⟩ | ⟨msg, rest, -, ⟨-, rfl⟩ | ⟨-, rfl⟩⟩ := deliver_cases h
    · exact ⟨rfl, rfl, rfl, rfl⟩
    · exact ⟨rfl, rfl, rfl, rfl⟩
    · exact ⟨rfl, rfl, rfl, rfl⟩
  | push id =>
    obtain ⟨envelope, sends, rest, -, -, rfl⟩ := push_cases h
    exact ⟨rfl, rfl, rfl, rfl⟩
  | dispatched =>
    obtain ⟨envelope, sends, rest, -, rfl⟩ := dispatched_cases h
    exact ⟨rfl, rfl, rfl, rfl⟩
  | panic =>
    obtain ⟨-, rfl⟩ := workerPanic_cases h
    exact ⟨rfl, rfl, rfl, rfl⟩

/-- The worker only takes messages out of the queue. -/
theorem stepWorker_queue {a : WorkerAction} (h : s.stepWorker json config a = some s') :
    s'.queue.buffer.length ≤ s.queue.buffer.length ∧ s'.queue.capacity = s.queue.capacity := by
  cases a with
  | recv =>
    obtain ⟨-, ⟨msg, rest, hqueue, rfl⟩ | ⟨-, rfl⟩⟩ := recv_cases h
    · simp [hqueue]
    · exact ⟨Nat.zero_le _, rfl⟩
  | tryRecv =>
    obtain ⟨batch, msg, rest, -, hqueue, rfl⟩ := tryRecv_cases h
    simp [hqueue]
  | check reads =>
    obtain ⟨batch, checked, -, -, rfl⟩ := check_cases h
    exact ⟨Nat.le_refl _, rfl⟩
  | count now =>
    obtain ⟨done, msg, rest, n, -, -, rfl⟩ := count_cases h
    exact ⟨Nat.le_refl _, rfl⟩
  | write faults =>
    obtain ⟨done, -, ⟨-, rfl⟩ | ⟨msg, -, rfl⟩ | ⟨-, rfl⟩⟩ := write_cases h
    · exact ⟨Nat.le_refl _, rfl⟩
    · exact ⟨Nat.le_refl _, rfl⟩
    · exact ⟨Nat.le_refl _, rfl⟩
  | deliver now =>
    obtain ⟨-, rfl⟩ | ⟨msg, rest, -, ⟨-, rfl⟩ | ⟨-, rfl⟩⟩ := deliver_cases h
    · exact ⟨Nat.le_refl _, rfl⟩
    · exact ⟨Nat.le_refl _, rfl⟩
    · exact ⟨Nat.le_refl _, rfl⟩
  | push id =>
    obtain ⟨envelope, sends, rest, -, -, rfl⟩ := push_cases h
    exact ⟨Nat.le_refl _, rfl⟩
  | dispatched =>
    obtain ⟨envelope, sends, rest, -, rfl⟩ := dispatched_cases h
    exact ⟨Nat.le_refl _, rfl⟩
  | panic =>
    obtain ⟨-, rfl⟩ := workerPanic_cases h
    exact ⟨Nat.zero_le _, rfl⟩

/-- Only the worker moves its batch on; a process that starts has none. -/
theorem worker_of_not_worker {a : Action} (h : step json config s a = some s')
    (ha : ∀ b, a ≠ .worker b) :
    s'.worker = s.worker ∨ s'.worker = .receiving ∨ s'.worker = .unspawned := by
  cases a with
  | worker a => exact absurd rfl (ha a)
  | publisher a => exact .inl (stepPublisher_frame h).2.worker
  | scheduler a => exact .inl (stepScheduler_frame h).2.1.worker
  | handler a => exact .inl (stepHandler_frame h).2.1
  | replay a => exact .inl (stepReplay_frame h).2.1.worker
  | control a =>
    by_cases hcrash : a = .crash
    · subst hcrash
      cases h
      exact .inr (.inr rfl)
    · exact (stepControl_sameWork h hcrash).worker.imp_right fun h => .inl h.2

/-- Only the worker inserts rows of events, and only the ack worker and replay calls
    remove them. -/
theorem rows_of_not_worker {a : Action} (h : step json config s a = some s')
    (hworker : ∀ b, a ≠ .worker b) (hack : ∀ commits, a ≠ .handler (.ack commits))
    (hreplay : ∀ b, a ≠ .replay b) :
    s'.db.events = s.db.events ∧ s'.db.refcount = s.db.refcount := by
  cases a with
  | worker a => exact absurd rfl (hworker a)
  | replay a => exact absurd rfl (hreplay a)
  | publisher a => rw [(stepPublisher_frame h).1]; exact ⟨rfl, rfl⟩
  | control a => rw [(stepControl_frame h).1]; exact ⟨rfl, rfl⟩
  | scheduler a =>
    rw [(stepScheduler_frame h).1]
    cases s.pollTime a with
    | none => exact ⟨rfl, rfl⟩
    | some nowMs => exact ⟨rfl, rfl⟩
  | handler a =>
    cases a with
    | ack commits => exact absurd rfl (hack commits)
    | registry op => cases h; exact ⟨rfl, rfl⟩
    | openChannel id => obtain ⟨-, rfl⟩ := openChannel_cases h; exact ⟨rfl, rfl⟩
    | removeChannel id => cases h; exact ⟨rfl, rfl⟩
    | closeChannel id => obtain ⟨data, -, rfl⟩ := closeChannel_cases h; exact ⟨rfl, rfl⟩
    | take id =>
      obtain ⟨-, envelope, rest, ⟨-, rfl⟩ | ⟨-, rfl⟩⟩ := handlerTake_cases h <;> exact ⟨rfl, rfl⟩
    | complete id isSuccess =>
      obtain ⟨envelope, registry, -, -, -, rfl⟩ := handlerComplete_cases h
      exact ⟨rfl, rfl⟩
    | exit id => cases h; exact ⟨rfl, rfl⟩

end PersistentBus
end TokioEvents
