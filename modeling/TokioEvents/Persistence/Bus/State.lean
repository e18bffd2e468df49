/-
  TokioEvents.Persistence.Bus.State

  The state of a running persistent bus: the database, the `RedbDispatcher` with its
  worker and scheduler tasks, the calls in progress, and the handler tasks behind the
  subscription manager (`src/persistence/redb.rs`, `src/subscription/mod.rs`).

  A task is the phase it is in; a phase ends at an `await` or at a transaction, and
  what lies between two phases is one step of the system.  `History` is not state of
  the program: it records what has happened, for the statements about runs.
-/

import TokioEvents.Persistence.RedbRegistry
import TokioEvents.Persistence.Replay

namespace TokioEvents

/-- The settings the tasks read, with the defaults of `DispatcherConfig` and
    `EventBusConfig`. -/
structure BusConfig where
  maxQueueSize : Nat := 10000
  dropOnFull : Bool := false
  processingTimeoutMs : Nat := 5000
  waitForPersistence : Bool := false
  handlerChannelSize : Nat := 256
  /-- The build checks integer overflow. -/
  overflowChecks : Bool := false

/-- The worker task `process_events`. -/
inductive Worker where
  /-- Not spawned: the dispatcher still holds the receiver. -/
  | unspawned
  /-- In `receiver.recv()`. -/
  | receiving
  /-- Draining the channel into a batch. -/
  | draining (batch : List RedbDispatcherMessage)
  /-- Past the duplicate check: rows prepared so far, messages to go. -/
  | counting (done : List Counted) (rest : List RedbDispatcherMessage)
  /-- At the head of the dispatch loop. -/
  | delivering (rest : List RedbDispatcherMessage)
  /-- In `subscription_manager.dispatch`, with the sends that have not completed. -/
  | dispatching (envelope : EventEnvelope) (sends : List Uuid) (rest : List RedbDispatcherMessage)
  /-- Returned or unwound: the receiver is dropped. -/
  | stopped

/-- The messages a worker has taken from the queue and not finished with. -/
def Worker.messages : Worker → List RedbDispatcherMessage
  | .unspawned => []
  | .receiving => []
  | .draining batch => batch
  | .counting done rest => done.map (·.msg) ++ rest
  | .delivering rest => rest
  | .dispatching _ _ rest => rest
  | .stopped => []

/-- The messages of a batch that have not been counted. -/
def Worker.uncounted : Worker → List RedbDispatcherMessage
  | .draining batch => batch
  | .counting _ rest => rest
  | _ => []

/-- The messages of a batch whose write step is over. -/
def Worker.written : Worker → List RedbDispatcherMessage
  | .delivering rest => rest
  | .dispatching _ _ rest => rest
  | _ => []

/-- The messages between their count and their dispatch. -/
def Worker.counted : Worker → List RedbDispatcherMessage
  | .counting done _ => done.map (·.msg)
  | worker => worker.written

/-- There is no worker task to wait for. -/
def Worker.ended : Worker → Bool
  | .unspawned => true
  | .stopped => true
  | _ => false

/-- The scheduler task `scheduler_loop`. -/
inductive Scheduler where
  | unspawned
  /-- Asleep, or about to be. -/
  | sleeping
  /-- Its blocking task polls the table for rows due at this time. -/
  | polling (nowMs : Nat)
  /-- At the head of the loop over the events of a poll. -/
  | firing (events : List PersistedEnvelope)
  /-- In `sender.send(msg)`, with a message that has no publisher. -/
  | sending (envelope : EventEnvelope) (rest : List PersistedEnvelope)
  /-- Returned or aborted. -/
  | stopped

/-- The task holds a clone of the sender. -/
def Scheduler.holdsSender : Scheduler → Bool
  | .unspawned => false
  | .stopped => false
  | _ => true

/-- The blocking task of a replay call. -/
inductive Replay where
  /-- `replay_pending` at a row: id, bytes and refcount as of its read transaction, and
      the dead events found so far. -/
  | pending (rows : List (Uuid × Bytes × Option Nat)) (dead : List Uuid)
  /-- `replay_pending` in `blocking_send`. -/
  | pendingSend (envelope : EventEnvelope) (rows : List (Uuid × Bytes × Option Nat))
      (dead : List Uuid)
  /-- `replay_dlq` after its commit, with the events it has not sent. -/
  | dlq (envelopes : List PersistedEnvelope)

/-- What has happened, for the statements about runs. -/
structure History where
  /-- Events handed to `SubscriptionManager::dispatch`. -/
  handed : List Uuid
  /-- Events that were stored for the scheduler. -/
  scheduled : List Uuid
  /-- Calls of `dispatch` whose message the duplicate check discarded. -/
  discarded : List Nat
  /-- Calls of `dispatch` whose message was counted without a subscriber. -/
  uncounted : List Nat
  /-- Calls of `dispatch` whose row a committed transaction has inserted. -/
  persisted : List Nat

/-- The state of the system. -/
structure PersistentBus where
  db : Db
  manager : SubscriptionManager RedbRegistry
  /-- What is buffered for the handler tasks whose sender has been dropped. -/
  closed : DashMap Uuid (List EventEnvelope)
  /-- The event each busy handler task works on, by subscription. -/
  busy : DashMap Uuid EventEnvelope
  queue : Mpsc.Channel RedbDispatcherMessage
  isRunning : Bool
  /-- The dispatcher still holds `sender`. -/
  sender : Bool
  /-- `shutdown_gracefully` has borrowed the dispatcher exclusively. -/
  exclusive : Bool
  worker : Worker
  scheduler : Scheduler
  /-- Polls whose scheduler was aborted: a blocking task runs to its end. -/
  orphanPolls : List Nat
  replays : List Replay
  /-- The number of `dispatch` calls made so far; it names the next one. -/
  nextCall : Nat
  /-- Calls of `dispatch` waiting for their oneshot. -/
  waiting : List Nat
  /-- Calls whose oneshot has been fired. -/
  signalled : List Nat
  /-- Calls of `dispatch` that have returned. -/
  returned : List (Nat × Except Error Unit)
  history : History

/-- The ids of the decodable rows of `SCHEDULED_EVENTS_TABLE`. -/
def Db.scheduledIds (json : SerdeJson) (db : Db) : List Uuid :=
  (db.scheduledEvents.toList.filter fun row => (json.fromSlice row.2).isSome).map (·.1.2)

namespace PersistentBus

/-- A process that has just opened the database. -/
def boot (json : SerdeJson) (config : BusConfig) (db : Db) : PersistentBus where
  db := db
  manager := ⟨.new, ∅⟩
  closed := ∅
  busy := ∅
  queue := .new config.maxQueueSize
  isRunning := false
  sender := true
  exclusive := false
  worker := .unspawned
  scheduler := .unspawned
  orphanPolls := []
  replays := []
  nextCall := 0
  waiting := []
  signalled := []
  returned := []
  history := ⟨[], db.scheduledIds json, [], [], []⟩

/-- Every message that has not been dropped: in the queue or with the worker. -/
def messages (s : PersistentBus) : List RedbDispatcherMessage :=
  s.queue.buffer ++ s.worker.messages

/-- Some message still holds the oneshot sender of the call. -/
def Holds (s : PersistentBus) (call : Nat) : Prop :=
  ∃ msg ∈ s.messages, msg.ackTx = some call

instance (s : PersistentBus) (call : Nat) : Decidable (s.Holds call) :=
  inferInstanceAs (Decidable (∃ msg ∈ s.messages, msg.ackTx = some call))

/-- The worker task ends and drops the receiver with everything in the queue. -/
def stopWorker (s : PersistentBus) : PersistentBus :=
  { s with worker := .stopped, queue := s.queue.dropReceiver }

end PersistentBus
end TokioEvents
