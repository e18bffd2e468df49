/-
  TokioEvents.Bus.State

  The state of a running in-memory bus: the `ChannelDispatcher` with its worker and
  the tasks that hold scheduled events, the handler tasks behind the subscription
  manager, and the calls on the bus (`src/bus/mod.rs`, `src/dispatcher/channel.rs`,
  `src/subscription/mod.rs`).

  A task or a call is the phase it is in; a phase ends at an `await`, and what lies
  between two phases is one step of the system.  `log` is not state of the program:
  it records what has happened, for the statements about runs.
-/

import TokioEvents.Lib.Mpsc
import TokioEvents.Subscription.Manager

namespace TokioEvents

/-- `EventBusConfig`, with the settings of its `DispatcherConfig` that the tasks read.
    `retryBackoff` is in nanoseconds. -/
structure EventBusConfig where
  maxQueueSize : Nat := 10000
  dropOnFull : Bool := false
  processingTimeoutMs : Nat := 5000
  maxRetries : Nat := 3
  retryBackoff : Nat := 100000000
  handlerChannelSize : Nat := 256
  dlqChannelSize : Nat := 1000
  /-- The build checks integer arithmetic: an overflow panics instead of wrapping. -/
  overflowChecks : Bool := true

/-- `Arc<EventEnvelope>`: an envelope under the name of its allocation, which is the
    number of the publish call that made it. -/
structure ArcEnvelope where
  addr : Nat
  envelope : EventEnvelope

/-- What a publish call returns; `Ok` carries the id of the event. -/
inductive PublishResult where
  | ok (eventId : Uuid)
  | error (e : Error)
  | tryError (e : TryPublishError)
  deriving DecidableEq, Repr

/-- A call of `publish_with_metadata` or `try_publish_with_metadata`. -/
inductive PublishPhase where
  /-- Past the first check, in `dispatcher.read()`. -/
  | acquiring
  /-- Holds the read guard. -/
  | checking
  /-- In `sender.send(envelope)` of `dispatch`; holds the read guard. -/
  | sending
  | returned (result : PublishResult)
  /-- The caller has dropped the future. -/
  | cancelled
  deriving DecidableEq, Repr

/-- A publish call. -/
structure PublishCall where
  envelope : EventEnvelope
  /-- `try_publish_with_metadata`. -/
  nonBlocking : Bool
  phase : PublishPhase

/-- The call has not returned. -/
def PublishCall.pending (call : PublishCall) : Bool :=
  match call.phase with
  | .acquiring => true
  | .checking => true
  | .sending => true
  | _ => false

/-- The call holds the dispatcher's read guard. -/
def PublishCall.guarded (call : PublishCall) : Bool :=
  match call.phase with
  | .checking => true
  | .sending => true
  | _ => false

/-- `ChannelDispatcher`, as far as it is not shared with its tasks. -/
structure ChannelDispatcher where
  /-- `sender` is `Some`. -/
  sender : Bool
  /-- `worker_handle` is `Some`. -/
  workerHandle : Bool
  deriving DecidableEq, Repr

/-- The worker task `process_events`. -/
inductive DispatchWorker where
  /-- In `receiver.recv()`. -/
  | receiving
  /-- Has received an event. -/
  | received (event : ArcEnvelope)
  /-- In `subscription_manager.dispatch`, with the sends that have not completed. -/
  | dispatching (event : ArcEnvelope) (sends : List Uuid)
  /-- Returned or unwound: the receiver is dropped. -/
  | stopped

/-- The sends in progress; each holds a clone of a handler channel's sender. -/
def DispatchWorker.sends : DispatchWorker → List Uuid
  | .dispatching _ sends => sends
  | _ => []

/-- The worker task has ended. -/
def DispatchWorker.ended : DispatchWorker → Bool
  | .stopped => true
  | _ => false

/-- The handler task of a subscription. -/
inductive HandlerPhase where
  /-- In `tokio::select!`. -/
  | selecting
  /-- In `handler.handle(&envelope)`, after `attempt` failures. -/
  | handling (event : ArcEnvelope) (attempt : Nat)
  /-- In `dlq.send(envelope)`. -/
  | deadLettering (event : ArcEnvelope)
  /-- Asleep before the next attempt. -/
  | backingOff (event : ArcEnvelope) (attempt : Nat)
  /-- Returned, unwound or cancelled: the receiver is dropped. -/
  | ended

/-- The event the task is busy with. -/
def HandlerPhase.event : HandlerPhase → Option ArcEnvelope
  | .handling event _ => some event
  | .deadLettering event => some event
  | .backingOff event _ => some event
  | _ => none

/-- A handler task with the receiving end of its channel. -/
structure HandlerTask where
  channel : Mpsc.Channel ArcEnvelope
  phase : HandlerPhase
  /-- `shutdown_rx` is ready: its sender was used or dropped. -/
  signalled : Bool
  /-- `abort` was called; the task is cancelled at an `await`. -/
  aborted : Bool

/-- `ShutdownState`. -/
inductive ShutdownState where
  | running
  | draining
  | stopped
  deriving DecidableEq, Repr

/-- A call of `EventBus::shutdown` or `EventBus::shutdown_gracefully`, from its store of
    `Draining` on. -/
inductive ShutdownPhase where
  /-- In `shutdown_hooks.lock()`. -/
  | lockingHooks
  /-- Holds the hooks; `next` is the first one not run. -/
  | runningHooks (next : Nat)
  /-- In `dispatcher.write()`. -/
  | lockingDispatcher
  /-- Holds the write guard and waits for the worker. -/
  | joining
  /-- Before the shutdown of the subscription manager. -/
  | closing
  /-- In the loop of `SubscriptionManager::shutdown_gracefully` over the ids. -/
  | removing (ids handles : List Uuid)
  /-- Waiting for the removed handler tasks. -/
  | awaiting (handles : List Uuid)
  /-- Before the store of `Stopped`. -/
  | storing
  | returned
  /-- The future is dropped, or a hook has panicked. -/
  | dropped
  deriving DecidableEq, Repr

/-- The phase ends at an `await`. -/
def ShutdownPhase.awaits : ShutdownPhase → Bool
  | .lockingHooks => true
  | .runningHooks _ => true
  | .lockingDispatcher => true
  | .joining => true
  | .awaiting _ => true
  | _ => false

/-- A shutdown call. -/
structure ShutdownCall where
  /-- `shutdown_gracefully`. -/
  graceful : Bool
  phase : ShutdownPhase
  deriving DecidableEq, Repr

/-- What becomes of an event at a subscription. -/
inductive Mark where
  /-- It is in the handler channel. -/
  | pushed
  /-- The handler task has taken it. -/
  | started
  /-- `handler.handle` is called. -/
  | attempted
  /-- `ack_event`. -/
  | acked
  /-- `dlq.send`. -/
  | deadLettered
  /-- `mark_failed`. -/
  | failed
  deriving DecidableEq, Repr

/-- What happens in a run. An event is named by its allocation, a subscription by its
    id, a hook by its place. -/
inductive Observation where
  /-- The event is in the dispatcher queue. -/
  | entered (event : Nat)
  /-- `dispatch` has selected these subscriptions. -/
  | selected (event : Nat) (ids : List Uuid)
  /-- The worker is through with the event. -/
  | dispatched (event : Nat)
  | marked (mark : Mark) (id : Uuid) (event : Nat)
  /-- A shutdown hook is run. -/
  | hooked (hook : Nat)
  deriving DecidableEq, Repr

/-- What has happened, oldest first. -/
abbrev MemoryBus.Log := List Observation

/-- The state of the system. -/
structure MemoryBus where
  registry : DashMapRegistry
  /-- The keys of `subscriptions`; an entry holds the sender and the task's handle. -/
  subscriptions : List Uuid
  tasks : DashMap Uuid HandlerTask
  /-- The channel of the auto-unsubscribe worker. -/
  unsubs : List Uuid
  /-- The channel behind `dlq_tx`. -/
  dlq : Option (Mpsc.Channel ArcEnvelope)
  /-- What the `RwLock` around the dispatcher holds. -/
  dispatcher : Option ChannelDispatcher
  queue : Mpsc.Channel ArcEnvelope
  isRunning : Bool
  worker : DispatchWorker
  /-- The tasks `dispatch` has spawned for scheduled events, each with its sender. -/
  sleepers : List ArcEnvelope
  calls : List PublishCall
  shutdownState : ShutdownState
  /-- The number of registered hooks. -/
  hooks : Nat
  shutdowns : List ShutdownCall
  log : MemoryBus.Log

namespace MemoryBus

/-- `EventBusBuilder::build` without persistence: the dispatcher is started. -/
def build (config : EventBusConfig) : MemoryBus where
  registry := .new
  subscriptions := []
  tasks := ∅
  unsubs := []
  dlq := some (.new config.dlqChannelSize)
  dispatcher := some ⟨true, true⟩
  queue := .new config.maxQueueSize
  isRunning := true
  worker := .receiving
  sleepers := []
  calls := []
  shutdownState := .running
  hooks := 0
  shutdowns := []
  log := []

/-- Record what has happened. -/
def observe (s : MemoryBus) (observation : Observation) : MemoryBus :=
  { s with log := s.log ++ [observation] }

/-- A publish call goes on to a phase. -/
def setCall (s : MemoryBus) (n : Nat) (call : PublishCall) (phase : PublishPhase) : MemoryBus :=
  { s with calls := s.calls.set n { call with phase := phase } }

/-- A shutdown call goes on to a phase. -/
def setShutdown (s : MemoryBus) (n : Nat) (call : ShutdownCall) (phase : ShutdownPhase) :
    MemoryBus :=
  { s with shutdowns := s.shutdowns.set n { call with phase := phase } }

/-- A handler task goes on. -/
def setTask (s : MemoryBus) (id : Uuid) (task : HandlerTask) : MemoryBus :=
  { s with tasks := s.tasks.insert id task }

/-- A shutdown call holds the write guard. -/
def writeLocked (s : MemoryBus) : Bool := s.shutdowns.any fun call => call.phase == .joining

/-- A publish call holds a read guard. -/
def readLocked (s : MemoryBus) : Bool := s.calls.any PublishCall.guarded

/-- A shutdown call holds the mutex around the hooks. -/
def hooksLocked (s : MemoryBus) : Bool :=
  s.shutdowns.any fun call =>
    match call.phase with
    | .runningHooks _ => true
    | _ => false

end MemoryBus
end TokioEvents
