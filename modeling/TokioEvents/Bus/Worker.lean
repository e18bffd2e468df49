/-
  TokioEvents.Bus.Worker

  The worker task `ChannelDispatcher::process_events`, one `await` at a time, with
  `SubscriptionManager::dispatch`: the selection of the subscriptions, and the sends
  to their channels, which complete in any order.
-/

import TokioEvents.Bus.State

namespace TokioEvents
namespace MemoryBus

/-- The steps of the worker. -/
inductive WorkerAction where
  /-- `receiver.recv()` completes. -/
  | recv
  /-- The check of `is_running`, and `dispatch` up to its sends. -/
  | select
  /-- One of the sends completes. -/
  | push (id : Uuid)
  /-- `dispatch` returns. -/
  | finish
  /-- The timeout around `dispatch` strikes. -/
  | timeout
  /-- A filter panics. -/
  | panic

/-- No sender of the queue is left: a call in `send` borrows the dispatcher's own. -/
def noSender (s : MemoryBus) : Bool :=
  s.dispatcher.all (fun dispatcher => !dispatcher.sender) && s.sleepers.isEmpty

/-- The worker task ends and drops the receiver with everything in the queue. -/
def stopWorker (s : MemoryBus) : MemoryBus :=
  { s with worker := .stopped, queue := s.queue.dropReceiver }

/-- `while let Some(event) = receiver.recv().await`. -/
def recv (s : MemoryBus) : Option MemoryBus :=
  match s.worker, s.queue.buffer with
  | .receiving, event :: rest =>
    some { s with worker := .received event, queue := { s.queue with buffer := rest } }
  | .receiving, [] => if s.noSender then some s.stopWorker else none
  | _, _ => none

/-- The ids whose channel `dispatch` sends to. -/
def senders (s : MemoryBus) (envelope : EventEnvelope) : List Uuid :=
  SubscriptionManager.sendersOf s.registry (fun id => decide (id ∈ s.subscriptions)) envelope

/-- Stop if `is_running` became false abruptly; otherwise collect the senders. -/
def select (s : MemoryBus) : Option MemoryBus :=
  match s.worker with
  | .received event =>
    if !s.isRunning then some s.stopWorker
    else
      let ids := s.senders event.envelope
      some ({ s with worker := .dispatching event ids }.observe (.selected event.addr ids))
  | _ => none

/-- `sender.send(envelope).await` for one subscription; an error is only logged. -/
def push (s : MemoryBus) (id : Uuid) : Option MemoryBus :=
  match s.worker with
  | .dispatching event sends =>
    if id ∈ sends then
      let s := { s with worker := .dispatching event (sends.erase id) }
      match s.tasks[id]? with
      | some task =>
        match task.channel.trySend event with
        | .ok channel =>
          let s := s.setTask id { task with channel := channel }
          some (s.observe (.marked .pushed id event.addr))
        | .error .full => none
        | .error .closed => some s
      | none => some s
    else none
  | _ => none

/-- The worker is through with an event; the sends that are left are dropped. -/
def leaveDispatch (s : MemoryBus) (event : ArcEnvelope) : MemoryBus :=
  { s with worker := .receiving }.observe (.dispatched event.addr)

/-- `join_all(sends).await` is over. -/
def finishDispatch (s : MemoryBus) : Option MemoryBus :=
  match s.worker with
  | .dispatching event [] => some (s.leaveDispatch event)
  | _ => none

/-- `tokio::time::timeout` around `dispatch`, if one is configured. -/
def timeoutDispatch (config : EventBusConfig) (s : MemoryBus) : Option MemoryBus :=
  match s.worker with
  | .dispatching event _ =>
    if 0 < config.processingTimeoutMs then some (s.leaveDispatch event) else none
  | _ => none

/-- A filter panics while the senders are collected. -/
def workerPanic (s : MemoryBus) : Option MemoryBus :=
  match s.worker with
  | .received _ => some s.stopWorker
  | _ => none

/-- A step of the worker. -/
def stepWorker (config : EventBusConfig) (s : MemoryBus) : WorkerAction → Option MemoryBus
  | .recv => s.recv
  | .select => s.select
  | .push id => s.push id
  | .finish => s.finishDispatch
  | .timeout => s.timeoutDispatch config
  | .panic => s.workerPanic

end MemoryBus
end TokioEvents
