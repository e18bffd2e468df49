/-
  TokioEvents.Persistence.Bus.Worker

  The worker task `RedbDispatcher::process_events`, one `await` or transaction at a
  time.  The functions of `ProcessEvents` do the work on a batch.
-/

import TokioEvents.Persistence.Bus.State

namespace TokioEvents

/-- The steps of the worker. -/
inductive WorkerAction where
  /-- `receiver.recv()` completes. -/
  | recv
  /-- `receiver.try_recv()` yields a message. -/
  | tryRecv
  /-- The batch is full or the channel empty: the duplicate check.  `reads` tells which
      keys `table.get` reads without an error. -/
  | check (reads : String → Bool)
  /-- The next message is counted; `now` is the clock. -/
  | count (now : DateTime)
  /-- The write transaction, with the faults of its calls. -/
  | write (faults : RedbCall → Option Fault)
  /-- The next turn of the dispatch loop, or its end; `now` is the clock. -/
  | deliver (now : DateTime)
  /-- One of the sends of `dispatch` completes. -/
  | push (id : Uuid)
  /-- `dispatch` returns, or its timeout strikes. -/
  | dispatched
  /-- User code that runs in the task (a serializer, a filter) panics. -/
  | panic

namespace PersistentBus

/-- No sender of the queue is left. -/
def noSender (s : PersistentBus) : Bool :=
  !s.sender && !s.scheduler.holdsSender && s.replays.isEmpty

/-- `while let Some(first_msg) = receiver.recv().await`, with the check that follows. -/
def recv (s : PersistentBus) : Option PersistentBus :=
  match s.worker, s.queue.buffer with
  | .receiving, msg :: rest =>
    if !s.isRunning then some s.stopWorker
    else some { s with worker := .draining [msg], queue := { s.queue with buffer := rest } }
  | .receiving, [] => if s.noSender then some s.stopWorker else none
  | _, _ => none

/-- Group Commit: drain up to 1000 pending messages from the channel. -/
def tryRecv (s : PersistentBus) : Option PersistentBus :=
  match s.worker, s.queue.buffer with
  | .draining batch, msg :: rest =>
    if batch.length < 1000 then
      some { s with
        worker := .draining (batch ++ [msg])
        queue := { s.queue with buffer := rest } }
    else none
  | _, _ => none

/-- The duplicate check; a duplicate is acknowledged instantly and discarded. -/
def check (s : PersistentBus) (reads : String → Bool) : Option PersistentBus :=
  match s.worker with
  | .draining batch =>
    if s.queue.buffer = [] ∨ 1000 ≤ batch.length then
      let checked := DupCheck.run RedbDispatcherMessage.idempotencyKey
        (fun key => reads key && s.db.keyRecorded key) batch
      -- Duplicate! Ack instantly and discard.
      let acks := checked.duplicates.filterMap (·.ackTx)
      some { s with
        worker := .counting [] checked.valid
        signalled := s.signalled ++ acks
        history := { s.history with discarded := s.history.discarded ++ acks } }
    else none
  | _ => none

/-- `sub_count` of the next message. -/
def count (config : BusConfig) (s : PersistentBus) (now : DateTime) : Option PersistentBus :=
  match s.worker with
  | .counting done (msg :: rest) =>
    match subCount config.overflowChecks s.manager.registry msg.envelope with
    -- `sub_count += topic_sub_count` panics
    | none => some s.stopWorker
    | some subCount =>
      some { s with
        worker := .counting (done ++ [⟨msg, subCount, now⟩]) rest
        history := { s.history with
          uncounted :=
            if subCount = 0 then s.history.uncounted ++ msg.ackTx.toList
            else s.history.uncounted } }
  | _ => none

/-- `db_inserts` of a counted batch. -/
def rowsOf (json : SerdeJson) (done : List Counted) : List DbInsert :=
  done.filterMap (Counted.row json)

/-- The calls whose message left a row. -/
def persistedCalls (json : SerdeJson) (done : List Counted) : List Nat :=
  (done.filter fun counted => (counted.row json).isSome).filterMap (·.msg.ackTx)

/-- The write transaction, if there is anything to write, and the check of its join. -/
def write (json : SerdeJson) (s : PersistentBus) (faults : RedbCall → Option Fault) :
    Option PersistentBus :=
  match s.worker with
  | .counting done [] =>
    let rows := rowsOf json done
    let (outcome, db) :=
      if rows.isEmpty then (.committed, s.db) else joinWrite s.db (writeTxn faults s.db rows)
    match outcome with
    | .committed =>
      some { s with
        db := db
        worker := .delivering (done.map (·.msg))
        history := { s.history with
          scheduled := s.history.scheduled ++ (rows.filter (·.isScheduled)).map (·.id)
          persisted := s.history.persisted ++ persistedCalls json done } }
    -- `Ok(Err(_))` is not looked at
    | .failed _ => some { s with db := db, worker := .delivering (done.map (·.msg)) }
    -- Failed to persist batch to redb
    | .panicked => some { s with db := db, worker := .receiving }
  | _ => none

/-- The dispatch loop: signal the publisher, and hand the event on if it is not
    scheduled. -/
def deliver (s : PersistentBus) (now : DateTime) : Option PersistentBus :=
  match s.worker with
  | .delivering [] => some { s with worker := .receiving }
  | .delivering (msg :: rest) =>
    -- signal the publisher that the disk write is complete
    let s := { s with signalled := s.signalled ++ msg.ackTx.toList }
    if msg.envelope.isScheduled now then some { s with worker := .delivering rest }
    else
      some { s with
        worker := .dispatching msg.envelope (s.manager.senders msg.envelope) rest
        history := { s.history with handed := s.history.handed ++ [msg.envelope.eventId] } }
  | _ => none

/-- `sender.send(envelope)` completes for one subscription: there is room in its channel, or
    the channel is gone.  The sender is a clone, so the channel of a subscription that was
    shut down gracefully in the meantime is still open for it. -/
def push (config : BusConfig) (s : PersistentBus) (id : Uuid) : Option PersistentBus :=
  match s.worker with
  | .dispatching envelope sends rest =>
    if id ∈ sends then
      let s' := { s with worker := .dispatching envelope (sends.erase id) rest }
      match s.manager.subscriptions[id]? with
      | some data =>
        -- a full channel makes the send wait
        if data.live && decide (config.handlerChannelSize ≤ data.channel.length) then none
        else some { s' with manager := { s.manager with
          subscriptions := SubscriptionManager.push envelope s.manager.subscriptions id } }
      | none =>
        match s.closed[id]? with
        | some channel =>
          if config.handlerChannelSize ≤ channel.length then none
          else some { s' with closed := s.closed.insert id (channel ++ [envelope]) }
        | none => some s'
    else none
  | _ => none

/-- `dispatch` is over: all sends have completed, or the timeout cut them off. -/
def dispatched (config : BusConfig) (s : PersistentBus) : Option PersistentBus :=
  match s.worker with
  | .dispatching _ sends rest =>
    if sends = [] ∨ 0 < config.processingTimeoutMs then some { s with worker := .delivering rest }
    else none
  | _ => none

/-- User code panics in the task. -/
def workerPanic (s : PersistentBus) : Option PersistentBus :=
  match s.worker with
  | .counting _ _ => some s.stopWorker
  | .dispatching _ _ _ => some s.stopWorker
  | _ => none

/-- A step of the worker. -/
def stepWorker (json : SerdeJson) (config : BusConfig) (s : PersistentBus) :
    WorkerAction → Option PersistentBus
  | .recv => s.recv
  | .tryRecv => s.tryRecv
  | .check reads => s.check reads
  | .count now => s.count config now
  | .write faults => s.write json faults
  | .deliver now => s.deliver now
  | .push id => s.push config id
  | .dispatched => s.dispatched config
  | .panic => s.workerPanic

end PersistentBus
end TokioEvents
