/-
  TokioEvents.Bus.Shutdown

  The calls `EventBus::shutdown` and `EventBus::shutdown_gracefully` with
  `register_shutdown_hook`: the stores of the shutdown state, the hooks under their
  mutex, the dispatcher under the write lock, and the subscription manager.

  Both calls go through the same phases.  An abrupt call bounds its wait for the
  dispatcher by `shutdown_timeout`, and inside it by the five seconds of
  `ChannelDispatcher::stop`; either way the wait ends, and the worker goes on.
-/

import TokioEvents.Bus.Subscribers

namespace TokioEvents
namespace MemoryBus

/-- The steps of shutdown calls. -/
inductive ShutdownAction where
  /-- `register_shutdown_hook`. -/
  | registerHook
  /-- A call begins, with its store of `Draining`. -/
  | begin (graceful : Bool)
  /-- A call takes its next step. -/
  | advance (call : Nat)
  /-- The wait of an abrupt call for the dispatcher times out. -/
  | timeout (call : Nat)
  /-- The future of a call is dropped at an `await`, or a hook panics. -/
  | drop (call : Nat)
  deriving DecidableEq, Repr

/-- `self.shutdown_hooks.lock().await.push(hook)`. -/
def registerHook (s : MemoryBus) : Option MemoryBus :=
  if s.hooksLocked then none else some { s with hooks := s.hooks + 1 }

/-- `self.shutdown_state.store(Draining)`. -/
def beginShutdown (s : MemoryBus) (graceful : Bool) : MemoryBus :=
  { s with
    shutdownState := .draining
    shutdowns := s.shutdowns ++ [⟨graceful, .lockingHooks⟩] }

/-- `guard.take()`, and `stop` or `shutdown_gracefully` of the dispatcher up to the wait
    for its worker. -/
def takeDispatcher (s : MemoryBus) (n : Nat) (call : ShutdownCall) : MemoryBus :=
  match s.dispatcher with
  | none => s.setShutdown n call .closing
  | some dispatcher =>
    let s := { s with dispatcher := none }
    if !call.graceful && !s.isRunning then s.setShutdown n call .closing
    else if dispatcher.workerHandle then
      -- Signal stop
      let isRunning := if call.graceful then s.isRunning else false
      { s with isRunning := isRunning }.setShutdown n call .joining
    else { s with isRunning := false }.setShutdown n call .closing

/-- `SubscriptionManager::shutdown`. -/
def shutdownManager (s : MemoryBus) : MemoryBus :=
  { s with
    registry := s.registry.clear
    tasks := s.tasks.map fun id task =>
      if id ∈ s.subscriptions then { task with aborted := true } else task
    subscriptions := [] }

/-- The next step of a call, given its phase. -/
def advanceCall (s : MemoryBus) (n : Nat) (call : ShutdownCall) : Option MemoryBus :=
  match call.phase with
  | .lockingHooks => if s.hooksLocked then none else some (s.setShutdown n call (.runningHooks 0))
  | .runningHooks next =>
    if next < s.hooks then
      some ((s.setShutdown n call (.runningHooks (next + 1))).observe (.hooked next))
    else some (s.setShutdown n call .lockingDispatcher)
  | .lockingDispatcher =>
    if s.readLocked || s.writeLocked then none else some (s.takeDispatcher n call)
  | .joining =>
    if s.worker.ended then
      let isRunning := if call.graceful then false else s.isRunning
      some ({ s with isRunning := isRunning }.setShutdown n call .closing)
    else none
  | .closing =>
    if call.graceful then some (s.setShutdown n call (.removing s.subscriptions []))
    else some (s.shutdownManager.setShutdown n call .storing)
  | .removing (id :: ids) handles =>
    if id ∈ s.subscriptions then
      -- Drop the sender to close the channel
      let s := s.removeSubscription id
      let s := { s with registry := (s.registry.unregister id).2 }
      some (s.setShutdown n call (.removing ids (handles ++ [id])))
    else some (s.setShutdown n call (.removing ids handles))
  | .removing [] handles => some (s.setShutdown n call (.awaiting handles))
  | .awaiting (id :: handles) =>
    match s.tasks[id]? with
    | some task =>
      match task.phase with
      | .ended => some (s.setShutdown n call (.awaiting handles))
      | _ => none
    | none => some (s.setShutdown n call (.awaiting handles))
  | .awaiting [] => some (s.setShutdown n call .storing)
  | .storing => some ({ s with shutdownState := .stopped }.setShutdown n call .returned)
  | .returned => none
  | .dropped => none

/-- A call takes its next step. -/
def advance (s : MemoryBus) (n : Nat) : Option MemoryBus :=
  s.shutdowns[n]?.bind (s.advanceCall n)

/-- Dispatcher shutdown timed out. -/
def timeoutShutdown (s : MemoryBus) (n : Nat) : Option MemoryBus :=
  match s.shutdowns[n]? with
  | some call =>
    if call.graceful = false ∧ (call.phase = .lockingDispatcher ∨ call.phase = .joining) then
      some (s.setShutdown n call .closing)
    else none
  | none => none

/-- The caller drops the future; its guards and the dispatcher it took go with it. -/
def dropShutdown (s : MemoryBus) (n : Nat) : Option MemoryBus :=
  match s.shutdowns[n]? with
  | some call => if call.phase.awaits then some (s.setShutdown n call .dropped) else none
  | none => none

/-- A step of a shutdown call. -/
def stepShutdown (s : MemoryBus) : ShutdownAction → Option MemoryBus
  | .registerHook => s.registerHook
  | .begin graceful => some (s.beginShutdown graceful)
  | .advance call => s.advance call
  | .timeout call => s.timeoutShutdown call
  | .drop call => s.dropShutdown call

end MemoryBus
end TokioEvents
