/-
  TokioEvents.Persistence.Bus.Publisher

  The calls of publishers: `RedbDispatcher::dispatch` and `try_dispatch`.

  A call that waits for room in the queue has not begun here: it holds the dispatcher
  shared from its checks to its send, so nothing the checks read can change between.
  A call that waits for its oneshot returns `Ok(())` when the sender half is fired or
  dropped, and may be cancelled by its caller before.
-/

import TokioEvents.Persistence.Bus.State

namespace TokioEvents

/-- The steps of publishers. -/
inductive PublisherAction where
  | dispatch (envelope : EventEnvelope)
  | tryDispatch (envelope : EventEnvelope)
  /-- `rx.await` is over. -/
  | returns (call : Nat)
  /-- The caller drops the future of a waiting call. -/
  | cancel (call : Nat)

namespace PersistentBus

/-- A `dispatch` call ends with a result. -/
def finish (s : PersistentBus) (call : Nat) (result : Except Error Unit) : PersistentBus :=
  { s with returned := s.returned ++ [(call, result)] }

/-- `dispatch`, up to its result or to the wait for the oneshot. -/
def dispatch (config : BusConfig) (s : PersistentBus) (envelope : EventEnvelope) :
    Option PersistentBus :=
  let call := s.nextCall
  let s := { s with nextCall := call + 1 }
  if s.exclusive then none
  else if !s.isRunning then
    some (s.finish call (.error (.internal "Dispatcher is not running")))
  else if !s.sender then
    some (s.finish call (.error (.internal "Dispatcher not initialized")))
  else
    let ackTx := if config.waitForPersistence then some call else none
    match s.queue.trySend ⟨envelope, ackTx⟩ with
    | .ok queue =>
      if config.waitForPersistence then
        some { s with queue := queue, waiting := s.waiting ++ [call] }
      else some ({ s with queue := queue }.finish call (.ok ()))
    | .error .full =>
      -- without `drop_on_full` the send waits for room
      if config.dropOnFull then some (s.finish call (.error (.internal "Channel full"))) else none
    | .error .closed =>
      some (s.finish call (.error (.internal
        (if config.dropOnFull then "Channel full" else "Channel closed"))))

/-- `try_dispatch`; its result is not recorded. -/
def tryDispatch (s : PersistentBus) (envelope : EventEnvelope) : Option PersistentBus :=
  if s.exclusive then none
  else if !s.isRunning || !s.sender then some s
  else
    match s.queue.trySend ⟨envelope, none⟩ with
    | .ok queue => some { s with queue := queue }
    | .error _ => some s

/-- `let _ = rx.await; Ok(())`. -/
def returns (s : PersistentBus) (call : Nat) : Option PersistentBus :=
  if call ∈ s.waiting ∧ (call ∈ s.signalled ∨ ¬ s.Holds call) then
    some ({ s with waiting := s.waiting.filter (· != call) }.finish call (.ok ()))
  else none

/-- The caller gives up waiting. -/
def cancel (s : PersistentBus) (call : Nat) : Option PersistentBus :=
  if call ∈ s.waiting then some { s with waiting := s.waiting.filter (· != call) } else none

/-- A step of a publisher. -/
def stepPublisher (config : BusConfig) (s : PersistentBus) : PublisherAction → Option PersistentBus
  | .dispatch envelope => s.dispatch config envelope
  | .tryDispatch envelope => s.tryDispatch envelope
  | .returns call => s.returns call
  | .cancel call => s.cancel call

end PersistentBus
end TokioEvents
