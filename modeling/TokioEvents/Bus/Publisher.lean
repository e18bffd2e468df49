/-
  TokioEvents.Bus.Publisher

  The calls of publishers, `publish_with_metadata` and `try_publish_with_metadata`,
  down to `ChannelDispatcher::dispatch` and `try_dispatch`, and the tasks that hold
  scheduled events until their time.
-/

import TokioEvents.Bus.State

namespace TokioEvents
namespace MemoryBus

/-- The steps of publishers and of the tasks of scheduled events. -/
inductive PublisherAction where
  /-- A call begins, with its first check of the shutdown state. -/
  | publish (envelope : EventEnvelope) (nonBlocking : Bool)
  /-- `dispatcher.read()` completes. -/
  | acquire (call : Nat)
  /-- The checks under the guard, and `dispatch` up to its `await`; `now` is the clock. -/
  | dispatch (call : Nat) (now : DateTime)
  /-- `sender.send(envelope)` completes. -/
  | send (call : Nat)
  /-- The caller drops the future of a waiting call. -/
  | cancel (call : Nat)
  /-- A scheduled event is due, and its `sender.send` completes. -/
  | wake (index : Nat)

/-- The error of a call on a bus that is shutting down. -/
def shuttingDown (nonBlocking : Bool) : PublishResult :=
  if nonBlocking then .tryError .shuttingDown else .error .shuttingDown

/-- Check shutdown state FIRST. -/
def publish (s : MemoryBus) (envelope : EventEnvelope) (nonBlocking : Bool) : MemoryBus :=
  let phase :=
    if s.shutdownState = .running then .acquiring else .returned (shuttingDown nonBlocking)
  { s with calls := s.calls ++ [⟨envelope, nonBlocking, phase⟩] }

/-- `self.dispatcher.read().await`. -/
def acquire (s : MemoryBus) (n : Nat) : Option MemoryBus :=
  match s.calls[n]? with
  | some call =>
    if call.phase = .acquiring ∧ s.writeLocked = false then some (s.setCall n call .checking)
    else none
  | none => none

/-- A call ends with a result. -/
def finish (s : MemoryBus) (n : Nat) (call : PublishCall) (result : PublishResult) : MemoryBus :=
  s.setCall n call (.returned result)

/-- The event is in the queue. -/
def enqueue (s : MemoryBus) (n : Nat) (queue : Mpsc.Channel ArcEnvelope) : MemoryBus :=
  { s with queue := queue }.observe (.entered n)

/-- `ChannelDispatcher::dispatch`, up to its result or to the wait for room. -/
def dispatcherDispatch (config : EventBusConfig) (s : MemoryBus) (dispatcher : ChannelDispatcher)
    (n : Nat) (call : PublishCall) (now : DateTime) : MemoryBus :=
  let event : ArcEnvelope := ⟨n, call.envelope⟩
  if !s.isRunning then s.finish n call (.error (.internal "Dispatcher not running"))
  else if call.envelope.isScheduled now then
    -- the spawned task sends only if there was a sender to clone
    let sleepers := if dispatcher.sender then s.sleepers ++ [event] else s.sleepers
    { s with sleepers := sleepers }.finish n call (.ok call.envelope.eventId)
  else if !dispatcher.sender then s.finish n call (.error .shuttingDown)
  else if config.dropOnFull then
    match s.queue.trySend event with
    | .ok queue => (s.enqueue n queue).finish n call (.ok call.envelope.eventId)
    -- Event queue full, dropping event
    | .error .full => s.finish n call (.ok call.envelope.eventId)
    | .error .closed => s.finish n call (.error (.internal "Event channel closed"))
  else s.setCall n call .sending

/-- `ChannelDispatcher::try_dispatch`. -/
def tryDispatch (s : MemoryBus) (dispatcher : ChannelDispatcher) (n : Nat) (call : PublishCall) :
    MemoryBus :=
  if !s.isRunning then s.finish n call (.tryError .notRunning)
  else if call.envelope.metadata.deliverAt.isSome then s.finish n call (.tryError .backpressure)
  else if !dispatcher.sender then s.finish n call (.tryError .shuttingDown)
  else
    match s.queue.trySend ⟨n, call.envelope⟩ with
    | .ok queue => (s.enqueue n queue).finish n call (.ok call.envelope.eventId)
    | .error .full => s.finish n call (.tryError .backpressure)
    | .error .closed => s.finish n call (.tryError .shuttingDown)

/-- Under the guard: there is a dispatcher, and the second check of the shutdown state. -/
def dispatch (config : EventBusConfig) (s : MemoryBus) (n : Nat) (now : DateTime) :
    Option MemoryBus :=
  match s.calls[n]? with
  | some call =>
    if call.phase = .checking then
      match s.dispatcher with
      | some dispatcher =>
        -- Double-check shutdown state after acquiring lock (linearization point)
        if s.shutdownState ≠ .running then some (s.finish n call (shuttingDown call.nonBlocking))
        else if call.nonBlocking then some (s.tryDispatch dispatcher n call)
        else some (s.dispatcherDispatch config dispatcher n call now)
      | none => some (s.finish n call (shuttingDown call.nonBlocking))
    else none
  | none => none

/-- `sender.send(envelope).await`. -/
def send (s : MemoryBus) (n : Nat) : Option MemoryBus :=
  match s.calls[n]? with
  | some call =>
    if call.phase = .sending then
      match s.queue.trySend ⟨n, call.envelope⟩ with
      | .ok queue => some ((s.enqueue n queue).finish n call (.ok call.envelope.eventId))
      | .error .full => none
      | .error .closed => some (s.finish n call (.error (.internal "Event channel closed")))
    else none
  | none => none

/-- The caller gives up at one of the two waits. -/
def cancel (s : MemoryBus) (n : Nat) : Option MemoryBus :=
  match s.calls[n]? with
  | some call =>
    if call.phase = .acquiring ∨ call.phase = .sending then some (s.setCall n call .cancelled)
    else none
  | none => none

/-- The task of a scheduled event: after waking up, send it to the queue. -/
def wake (s : MemoryBus) (index : Nat) : Option MemoryBus :=
  match s.sleepers[index]? with
  | some event =>
    let s := { s with sleepers := s.sleepers.eraseIdx index }
    match s.queue.trySend event with
    | .ok queue => some (s.enqueue event.addr queue)
    | .error .full => none
    | .error .closed => some s
  | none => none

/-- A step of a publisher. -/
def stepPublisher (config : EventBusConfig) (s : MemoryBus) : PublisherAction → Option MemoryBus
  | .publish envelope nonBlocking => some (s.publish envelope nonBlocking)
  | .acquire call => s.acquire call
  | .dispatch call now => s.dispatch config call now
  | .send call => s.send call
  | .cancel call => s.cancel call
  | .wake index => s.wake index

end MemoryBus
end TokioEvents
