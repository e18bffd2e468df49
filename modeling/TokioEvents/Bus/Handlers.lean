/-
  TokioEvents.Bus.Handlers

  The handler task of a subscription (`subscribe_typed` and `subscribe_untyped`): the
  select loop, the retry loop with its backoff, and the ways the task ends.

  User code is seen from its outcomes: an attempt returns `Ok`, returns an error, or
  panics.
-/

import TokioEvents.Bus.State

namespace TokioEvents

/-- How one call of `handler.handle` ends. -/
inductive Outcome where
  | ok
  | error
  | panic
  deriving DecidableEq, Repr

namespace EventBusConfig

/-- `attempt += 1` on a `u32`. -/
def nextAttempt (config : EventBusConfig) (attempt : Nat) : Option Nat :=
  if attempt + 1 < 2 ^ 32 then some (attempt + 1)
  else if config.overflowChecks then none else some 0

/-- `2u32.pow(attempt - 1)`. -/
def backoffFactor (config : EventBusConfig) (attempt : Nat) : Option Nat :=
  if 0 < attempt ∧ attempt ≤ 32 then some (2 ^ (attempt - 1))
  else if config.overflowChecks then none else some 0

/-- `retry_backoff * (2u32.pow(attempt - 1))`: a `Duration` panics when its seconds
    overflow 64 bits. -/
def backoff (config : EventBusConfig) (attempt : Nat) : Option Nat :=
  match config.backoffFactor attempt with
  | some factor =>
    if config.retryBackoff * factor < 2 ^ 64 * 10 ^ 9 then some (config.retryBackoff * factor)
    else none
  | none => none

/-- What follows a failed attempt. -/
inductive AfterError where
  /-- Permanently failed. -/
  | giveUp
  | retry (attempt : Nat) (backoff : Nat)
  /-- The arithmetic panics. -/
  | panics
  deriving DecidableEq, Repr

/-- `attempt += 1`, the comparison with `max_retries`, and the backoff. -/
def afterError (config : EventBusConfig) (attempt : Nat) : AfterError :=
  match config.nextAttempt attempt with
  | some attempt =>
    if config.maxRetries < attempt then .giveUp
    else
      match config.backoff attempt with
      | some backoff => .retry attempt backoff
      | none => .panics
  | none => .panics

end EventBusConfig

namespace MemoryBus

/-- The steps of a handler task. -/
inductive HandlerAction where
  /-- `rx.recv()` yields an event, and the handler is called. -/
  | recv
  /-- `rx.recv()` yields `None`. -/
  | closed
  /-- `shutdown_rx` is ready. -/
  | interrupt
  /-- `handler.handle` ends. -/
  | outcome (outcome : Outcome)
  /-- `dlq.send` completes. -/
  | deadLetter
  /-- The backoff is over, and the handler is called again. -/
  | retry
  /-- An `abort` takes effect. -/
  | cancelled
  deriving DecidableEq, Repr

/-- The task goes on to a phase. -/
def setPhase (s : MemoryBus) (id : Uuid) (task : HandlerTask) (phase : HandlerPhase) : MemoryBus :=
  s.setTask id { task with phase := phase }

/-- The task is over: its receiver is dropped with everything in the channel. -/
def endTask (s : MemoryBus) (id : Uuid) (task : HandlerTask) : MemoryBus :=
  s.setTask id { task with phase := .ended, channel := task.channel.dropReceiver }

/-- `let _ = unsub_tx.send(sub_id)` after the loop. -/
def leaveLoop (s : MemoryBus) (id : Uuid) (task : HandlerTask) : MemoryBus :=
  { s.endTask id task with unsubs := s.unsubs ++ [id] }

/-- `registry_clone.increment_processed(sub_id)` and `ack_event`. -/
def ackEvent (s : MemoryBus) (id : Uuid) (event : ArcEnvelope) : MemoryBus :=
  let registry := EventRegistry.incrementProcessed s.registry id
  { s with registry := EventRegistry.ackEvent registry id event.envelope.eventId }.observe
    (.marked .acked id event.addr)

/-- `registry_clone.mark_failed`. -/
def markFailed (s : MemoryBus) (id : Uuid) (event : ArcEnvelope) : MemoryBus :=
  { s with registry := (EventRegistry.markFailed s.registry id event.envelope.eventId).2 }.observe
    (.marked .failed id event.addr)

/-- The handler is called. -/
def attempt (s : MemoryBus) (id : Uuid) (task : HandlerTask) (event : ArcEnvelope) (n : Nat) :
    MemoryBus :=
  (s.setPhase id task (.handling event n)).observe (.marked .attempted id event.addr)

/-- `msg = rx.recv()` with a message. -/
def handlerRecv (s : MemoryBus) (id : Uuid) (task : HandlerTask) : Option MemoryBus :=
  match task.phase, task.channel.buffer with
  | .selecting, event :: rest =>
    let task := { task with channel := { task.channel with buffer := rest } }
    some ((s.observe (.marked .started id event.addr)).attempt id task event 0)
  | _, _ => none

/-- `rx.recv()` returns `None`: the channel is empty and no sender is left. -/
def handlerClosed (s : MemoryBus) (id : Uuid) (task : HandlerTask) : Option MemoryBus :=
  match task.phase with
  | .selecting =>
    if task.channel.buffer = [] ∧ id ∉ s.subscriptions ∧ id ∉ s.worker.sends then
      some (s.leaveLoop id task)
    else none
  | _ => none

/-- `_ = &mut shutdown_rx`. -/
def handlerInterrupt (s : MemoryBus) (id : Uuid) (task : HandlerTask) : Option MemoryBus :=
  match task.phase with
  | .selecting => if task.signalled then some (s.leaveLoop id task) else none
  | _ => none

/-- The result of an attempt. -/
def handlerOutcome (config : EventBusConfig) (s : MemoryBus) (id : Uuid) (task : HandlerTask)
    (outcome : Outcome) : Option MemoryBus :=
  match task.phase with
  | .handling event n =>
    match outcome with
    | .ok => some ((s.setPhase id task .selecting).ackEvent id event)
    | .error =>
      match config.afterError n with
      | .giveUp =>
        -- Send to DLQ if configured
        if s.dlq.isSome then some (s.setPhase id task (.deadLettering event))
        else some ((s.setPhase id task .selecting).markFailed id event)
      | .retry m _ => some (s.setPhase id task (.backingOff event m))
      | .panics => some (s.endTask id task)
    | .panic => some (s.endTask id task)
  | _ => none

/-- `mark_failed` after the send to the DLQ. -/
def leaveDeadLetter (s : MemoryBus) (id : Uuid) (task : HandlerTask) (event : ArcEnvelope)
    (dlq : Mpsc.Channel ArcEnvelope) : MemoryBus :=
  let s := { s with dlq := some dlq }.setPhase id task .selecting
  (s.observe (.marked .deadLettered id event.addr)).markFailed id event

/-- `let _ = dlq.send(envelope_clone).await`. -/
def handlerDeadLetter (s : MemoryBus) (id : Uuid) (task : HandlerTask) : Option MemoryBus :=
  match task.phase, s.dlq with
  | .deadLettering event, some dlq =>
    match dlq.trySend event with
    | .ok dlq => some (s.leaveDeadLetter id task event dlq)
    | .error .full => none
    | .error .closed => some (s.leaveDeadLetter id task event dlq)
  | _, _ => none

/-- `tokio::time::sleep(backoff)` is over. -/
def handlerRetry (s : MemoryBus) (id : Uuid) (task : HandlerTask) : Option MemoryBus :=
  match task.phase with
  | .backingOff event n => some (s.attempt id task event n)
  | _ => none

/-- The runtime drops an aborted task at an `await`. -/
def handlerCancelled (s : MemoryBus) (id : Uuid) (task : HandlerTask) : Option MemoryBus :=
  match task.phase with
  | .ended => none
  | _ => if task.aborted then some (s.endTask id task) else none

/-- A step of the handler task of a subscription. -/
def stepHandler (config : EventBusConfig) (s : MemoryBus) (id : Uuid) (a : HandlerAction) :
    Option MemoryBus :=
  match s.tasks[id]? with
  | some task =>
    match a with
    | .recv => s.handlerRecv id task
    | .closed => s.handlerClosed id task
    | .interrupt => s.handlerInterrupt id task
    | .outcome outcome => s.handlerOutcome config id task outcome
    | .deadLetter => s.handlerDeadLetter id task
    | .retry => s.handlerRetry id task
    | .cancelled => s.handlerCancelled id task
  | none => none

end MemoryBus
end TokioEvents
