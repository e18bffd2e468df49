/-
  TokioEvents.Persistence.Bus.Guard

  The lock around the dispatcher of an `EventBus` (`src/bus/mod.rs`):
  `dispatcher: Arc<RwLock<Option<Box<dyn EventDispatcher>>>>`.

  `publish` and `replay_dlq` take it shared, and `publish` keeps it until its event is in
  the queue and, if it waits for persistence, on disk.  `replay_pending` takes it
  exclusively and keeps it until the last pending row is in the queue.

  The tasks of the dispatcher take no lock.  Which of those who wait for the lock gets it
  first is left open.
-/

import TokioEvents.Persistence.Bus.System

namespace TokioEvents

/-- Where a call of `EventBus::publish` is. -/
inductive GuardPhase where
  /-- In `self.dispatcher.read()`. -/
  | waiting
  /-- It has the guard, and its event is not in the queue yet. -/
  | holding
  /-- In `rx.await`, still with the guard. -/
  | confirming (call : Nat)
  deriving DecidableEq, Repr

/-- A call of `EventBus::publish` in progress. -/
structure GuardedPublish where
  /-- The subscription whose handler makes the call while it processes its event, or
      nobody's. -/
  caller : Option Uuid
  envelope : EventEnvelope
  phase : GuardPhase

/-- Where the call of `EventBus::replay_pending` is. -/
inductive ReplayCall where
  | notCalled
  /-- In `self.dispatcher.write()`. -/
  | waiting
  /-- It has the guard, and its blocking task runs. -/
  | holding
  /-- It has returned, or its caller has dropped it. -/
  | over
  deriving DecidableEq, Repr

/-- A persistent bus behind the lock. -/
structure GuardedBus where
  bus : PersistentBus
  publishes : List GuardedPublish
  replay : ReplayCall

/-- The steps. -/
inductive GuardedAction where
  /-- A step of the bus that `permits` allows. -/
  | bus (a : Action)
  /-- `EventBus::replay_pending` is called. -/
  | replayPending
  /-- It gets the guard. -/
  | replayLock
  /-- Its blocking task has ended, and it returns. -/
  | replayReturn
  /-- Its caller drops it; the blocking task goes on. -/
  | replayDrop
  /-- `EventBus::publish` is called. -/
  | publish (caller : Option Uuid) (envelope : EventEnvelope)
  /-- It gets the guard. -/
  | publishLock (index : Nat)
  /-- `dispatcher.dispatch(envelope)`, up to its end or to `rx.await`. -/
  | publishSend (index : Nat)
  /-- `rx.await` is over. -/
  | publishConfirm (index : Nat)
  /-- The caller drops the future. -/
  | publishDrop (index : Nat)

/-- The blocking task of `replay_pending`. -/
def Replay.isPending : Replay → Bool
  | .pending _ _ => true
  | .pendingSend _ _ _ => true
  | .dlq _ => false

/-- The blocking task of `replay_pending` in `blocking_send`. -/
def Replay.isSending : Replay → Bool
  | .pendingSend _ _ _ => true
  | _ => false

namespace GuardedBus

/-- A process that has just opened the database. -/
def boot (json : SerdeJson) (config : BusConfig) (db : Db) : GuardedBus :=
  ⟨.boot json config db, [], .notCalled⟩

/-- The lock is held shared. -/
def shared (s : GuardedBus) : Bool := s.publishes.any fun call => decide (call.phase ≠ .waiting)

/-- The handler of a subscription has a call of `publish` in progress. -/
def publishing (s : GuardedBus) (id : Uuid) : Bool :=
  s.publishes.any fun call => decide (call.caller = some id)

/-- The steps of the bus that may be taken.  Publishers and `replay_pending` have steps of
    their own below; starting and stopping takes the lock exclusively. -/
def permits (config : BusConfig) (s : GuardedBus) : Action → Bool
  | .worker _ => true
  | .scheduler _ => true
  -- `mpsc::channel` does not take a capacity of zero
  | .handler (.openChannel _) => decide (0 < config.handlerChannelSize)
  -- ids are fresh
  | .handler (.registry (.register _ _ subscription)) =>
    s.bus.manager.registry.inner.subscriptionToType[subscription.id]?.isNone
  -- a handler that awaits `publish` goes on when that is over or dropped
  | .handler (.complete id _) => !s.publishing id
  | .handler (.exit id) => !s.publishing id
  | .handler _ => true
  | .replay .pending => false
  | .replay .dlq => decide (s.replay ≠ .holding)
  | .replay _ => true
  | .publisher (.tryDispatch _) => decide (s.replay ≠ .holding)
  | .publisher _ => false
  | .control .crash => false
  | .control _ => decide (s.replay ≠ .holding) && !s.shared

/-- A step of the bus. -/
def stepBus (json : SerdeJson) (config : BusConfig) (s : GuardedBus) (a : Action) :
    Option GuardedBus :=
  if s.permits config a then (s.bus.step json config a).map fun bus => { s with bus := bus }
  else none

/-- `EventBus::replay_pending` is called; it is called once. -/
def replayPending (s : GuardedBus) : Option GuardedBus :=
  if s.replay = .notCalled then some { s with replay := .waiting } else none

/-- `self.dispatcher.write().await`. -/
def replayLock (s : GuardedBus) : Option GuardedBus :=
  if s.replay = .waiting ∧ s.shared = false ∧ s.bus.exclusive = false then
    match s.bus.replayPending with
    | some bus => some { s with bus := bus, replay := .holding }
    -- Dispatcher not initialized
    | none => some { s with replay := .over }
  else none

/-- `replay_pending` returns. -/
def replayReturn (s : GuardedBus) : Option GuardedBus :=
  if s.replay = .holding ∧ s.bus.replays.all fun replay => !replay.isPending then
    some { s with replay := .over }
  else none

/-- The future of `replay_pending` is dropped. -/
def replayDrop (s : GuardedBus) : Option GuardedBus :=
  if s.replay = .waiting ∨ s.replay = .holding then some { s with replay := .over } else none

/-- `EventBus::publish` is called, by a busy handler or by another task. -/
def publish (s : GuardedBus) (caller : Option Uuid) (envelope : EventEnvelope) :
    Option GuardedBus :=
  if caller.all fun id => s.bus.busy[id]?.isSome then
    some { s with publishes := s.publishes ++ [⟨caller, envelope, .waiting⟩] }
  else none

/-- A call of `publish` goes on in another phase. -/
def setPhase (s : GuardedBus) (index : Nat) (call : GuardedPublish) (phase : GuardPhase) :
    GuardedBus :=
  { s with publishes := s.publishes.set index { call with phase := phase } }

/-- `self.dispatcher.read().await`. -/
def publishLock (s : GuardedBus) (index : Nat) : Option GuardedBus :=
  match s.publishes[index]? with
  | some call =>
    if call.phase = .waiting ∧ s.replay ≠ .holding then some (s.setPhase index call .holding)
    else none
  | none => none

/-- `dispatcher.dispatch(envelope)`; it may wait for its oneshot. -/
def publishSend (config : BusConfig) (s : GuardedBus) (index : Nat) : Option GuardedBus :=
  match s.publishes[index]? with
  | some call =>
    if call.phase = .holding then
      (s.bus.dispatch config call.envelope).map fun bus =>
        if s.bus.nextCall ∈ bus.waiting then
          { s.setPhase index call (.confirming s.bus.nextCall) with bus := bus }
        else { s with bus := bus, publishes := s.publishes.eraseIdx index }
    else none
  | none => none

/-- `rx.await` is over, and `publish` returns. -/
def publishConfirm (s : GuardedBus) (index : Nat) : Option GuardedBus :=
  match s.publishes[index]? with
  | some ⟨_, _, .confirming n⟩ =>
    (s.bus.returns n).map fun bus => ⟨bus, s.publishes.eraseIdx index, s.replay⟩
  | _ => none

/-- The future of `publish` is dropped. -/
def publishDrop (s : GuardedBus) (index : Nat) : Option GuardedBus :=
  match s.publishes[index]? with
  | some ⟨_, _, .confirming n⟩ =>
    (s.bus.cancel n).map fun bus => ⟨bus, s.publishes.eraseIdx index, s.replay⟩
  | some _ => some { s with publishes := s.publishes.eraseIdx index }
  | none => none

/-- A step. -/
def step (json : SerdeJson) (config : BusConfig) (s : GuardedBus) :
    GuardedAction → Option GuardedBus
  | .bus a => s.stepBus json config a
  | .replayPending => s.replayPending
  | .replayLock => s.replayLock
  | .replayReturn => s.replayReturn
  | .replayDrop => s.replayDrop
  | .publish caller envelope => s.publish caller envelope
  | .publishLock index => s.publishLock index
  | .publishSend index => s.publishSend config index
  | .publishConfirm index => s.publishConfirm index
  | .publishDrop index => s.publishDrop index

/-- A run. -/
def exec (json : SerdeJson) (config : BusConfig) (s : GuardedBus) (as : List GuardedAction) :
    Option GuardedBus :=
  Transition.exec (step json config) s as

end GuardedBus
end TokioEvents
