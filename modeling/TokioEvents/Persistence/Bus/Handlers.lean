/-
  TokioEvents.Persistence.Bus.Handlers

  What happens behind the subscription manager: registry calls and channels of
  subscribers, the handler tasks, and the ack worker.

  A handler task is seen from its ends: it takes an event from its channel, and later
  acknowledges it or, after its retries, marks it failed.
-/

import TokioEvents.Persistence.Bus.State

namespace TokioEvents

/-- The steps of subscribers, handler tasks and the ack worker. -/
inductive HandlerAction where
  /-- A call on the registry. -/
  | registry (op : RegistryOp)
  /-- `subscribe` stores the channel of a new subscription. -/
  | openChannel (id : Uuid)
  /-- `unsubscribe` removes it and aborts the handler task. -/
  | removeChannel (id : Uuid)
  /-- `SubscriptionManager::shutdown_gracefully` removes it and drops the sender; the
      handler task goes on with what is buffered, and with what `dispatch` still sends. -/
  | closeChannel (id : Uuid)
  /-- The handler task takes the next event. -/
  | take (id : Uuid)
  /-- The handler is done with its event: `ack_event` or `mark_failed`. -/
  | complete (id : Uuid) (isSuccess : Bool)
  /-- The handler task ends and drops its receiver. -/
  | exit (id : Uuid)
  /-- The ack worker applies the next completion; its transaction commits or fails. -/
  | ack (commits : Bool)

namespace PersistentBus

/-- A call on the registry, between two awaits of whoever makes it. -/
def registryCall (s : PersistentBus) (op : RegistryOp) : PersistentBus :=
  { s with manager := { s.manager with registry := op.apply s.manager.registry } }

/-- `self.subscriptions.insert(handle.id(), subscription_data)`; ids are fresh. -/
def openChannel (s : PersistentBus) (id : Uuid) : Option PersistentBus :=
  match s.manager.subscriptions[id]? with
  | some _ => none
  | none =>
    some { s with manager := { s.manager with
      subscriptions := s.manager.subscriptions.insert id ⟨[], true⟩ } }

/-- `self.subscriptions.remove(&id)`. -/
def removeChannel (s : PersistentBus) (id : Uuid) : PersistentBus :=
  { s with manager := { s.manager with subscriptions := s.manager.subscriptions.erase id } }

/-- `drop(data.sender)` after the removal. -/
def closeChannel (s : PersistentBus) (id : Uuid) : Option PersistentBus :=
  match s.manager.subscriptions[id]? with
  | some data =>
    some { s with
      manager := { s.manager with subscriptions := s.manager.subscriptions.erase id }
      closed := if data.live then s.closed.insert id data.channel else s.closed }
  | none => none

/-- `rx.recv()` in the handler task. -/
def handlerTake (s : PersistentBus) (id : Uuid) : Option PersistentBus :=
  match s.busy[id]?, s.manager.subscriptions[id]?, s.closed[id]? with
  | none, some ⟨envelope :: rest, true⟩, _ =>
    some { s with
      manager := { s.manager with
        subscriptions := s.manager.subscriptions.insert id ⟨rest, true⟩ }
      busy := s.busy.insert id envelope }
  | none, none, some (envelope :: rest) =>
    some { s with closed := s.closed.insert id rest, busy := s.busy.insert id envelope }
  | _, _, _ => none

/-- The retry loop is over. -/
def handlerComplete (s : PersistentBus) (id : Uuid) (isSuccess : Bool) : Option PersistentBus :=
  match s.busy[id]? with
  | some envelope =>
    let registry := s.manager.registry
    let registry :=
      if isSuccess then
        EventRegistry.ackEvent (EventRegistry.incrementProcessed registry id) id envelope.eventId
      else (EventRegistry.markFailed registry id envelope.eventId).2
    some { s with manager := { s.manager with registry := registry }, busy := s.busy.erase id }
  | none => none

/-- The handler task returns or is aborted. -/
def handlerExit (s : PersistentBus) (id : Uuid) : PersistentBus :=
  { s with
    manager := { s.manager with
      subscriptions := match s.manager.subscriptions[id]? with
        | some _ => s.manager.subscriptions.insert id ⟨[], false⟩
        | none => s.manager.subscriptions }
    closed := s.closed.erase id
    busy := s.busy.erase id }

/-- One pass of the ack worker. -/
def ack (s : PersistentBus) (commits : Bool) : Option PersistentBus :=
  match s.manager.registry.ackTx with
  | [] => none
  | completion :: rest =>
    some { s with
      manager := { s.manager with registry := { s.manager.registry with ackTx := rest } }
      db := if commits then s.db.ack completion else s.db }

/-- A step behind the subscription manager. -/
def stepHandler (s : PersistentBus) : HandlerAction → Option PersistentBus
  | .registry op => some (s.registryCall op)
  | .openChannel id => s.openChannel id
  | .removeChannel id => some (s.removeChannel id)
  | .closeChannel id => s.closeChannel id
  | .take id => s.handlerTake id
  | .complete id isSuccess => s.handlerComplete id isSuccess
  | .exit id => some (s.handlerExit id)
  | .ack commits => s.ack commits

end PersistentBus
end TokioEvents
