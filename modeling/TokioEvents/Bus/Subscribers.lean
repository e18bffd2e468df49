/-
  TokioEvents.Bus.Subscribers

  What subscribers do: `subscribe_typed`, the two ways to unsubscribe (the manager's
  call, and the signal of a `SubscriptionHandle` with the auto-unsubscribe worker), and
  the consumer of the dead letter queue.

  `EventBus::subscribe` checks the shutdown state once, any time before the subscription
  is stored, so here it is stored in any state.
-/

import TokioEvents.Bus.State

namespace TokioEvents
namespace MemoryBus

/-- The steps of subscribers. -/
inductive SubscriberAction where
  /-- `subscribe_typed`; the id is freshly generated. -/
  | subscribe (eventType : TypeId) (typeName : String) (entry : SubscriptionEntry)
  /-- `SubscriptionHandle::unsubscribe`, or the last handle is dropped. -/
  | signal (id : Uuid)
  /-- `SubscriptionManager::unsubscribe`. -/
  | unsubscribe (id : Uuid)
  /-- The auto-unsubscribe worker takes the next id. -/
  | autoUnsubscribe
  /-- The consumer of the dead letter queue takes an event. -/
  | takeDlq
  /-- It drops the receiver. -/
  | dropDlq

/-- Spawn the handler task, store the subscription, then register it. -/
def subscribe (config : EventBusConfig) (s : MemoryBus) (eventType : TypeId) (typeName : String)
    (entry : SubscriptionEntry) : Option MemoryBus :=
  match s.tasks[entry.id]? with
  | some _ => none
  | none =>
    let task : HandlerTask := ⟨.new config.handlerChannelSize, .selecting, false, false⟩
    some { s.setTask entry.id task with
      subscriptions := s.subscriptions ++ [entry.id]
      registry := (s.registry.register eventType typeName entry).2 }

/-- `tx.send(())`, or the drop of `tx`. -/
def signal (s : MemoryBus) (id : Uuid) : Option MemoryBus :=
  s.tasks[id]?.map fun task => s.setTask id { task with signalled := true }

/-- `data.handle.abort()`. -/
def abort (s : MemoryBus) (id : Uuid) : MemoryBus :=
  match s.tasks[id]? with
  | some task => s.setTask id { task with aborted := true }
  | none => s

/-- `self.subscriptions.remove(&id)`, and what the caller does with a removed entry. -/
def removeSubscription (s : MemoryBus) (id : Uuid) : MemoryBus :=
  { s with subscriptions := s.subscriptions.filter (· != id) }

/-- `unsubscribe`: the registry first; its error ends the call. -/
def unsubscribe (s : MemoryBus) (id : Uuid) : MemoryBus :=
  match s.registry.unregister id with
  | (.error _, registry) => { s with registry := registry }
  | (.ok _, registry) =>
    let s := { s with registry := registry }
    if id ∈ s.subscriptions then (s.removeSubscription id).abort id else s

/-- `unsub_rx.recv()`: remove, unregister and abort. -/
def autoUnsubscribe (s : MemoryBus) : Option MemoryBus :=
  match s.unsubs with
  | id :: rest =>
    let s := { s with unsubs := rest }
    if id ∈ s.subscriptions then
      let s := s.removeSubscription id
      some ({ s with registry := (s.registry.unregister id).2 }.abort id)
    else some s
  | [] => none

/-- `dlq_rx.recv()`. -/
def takeDlq (s : MemoryBus) : Option MemoryBus :=
  match s.dlq with
  | some dlq => some { s with dlq := some { dlq with buffer := dlq.buffer.tail } }
  | none => none

/-- The receiver is dropped. -/
def dropDlq (s : MemoryBus) : MemoryBus :=
  { s with dlq := s.dlq.map Mpsc.Channel.dropReceiver }

/-- A step of a subscriber. -/
def stepSubscriber (config : EventBusConfig) (s : MemoryBus) :
    SubscriberAction → Option MemoryBus
  | .subscribe eventType typeName entry => s.subscribe config eventType typeName entry
  | .signal id => s.signal id
  | .unsubscribe id => some (s.unsubscribe id)
  | .autoUnsubscribe => s.autoUnsubscribe
  | .takeDlq => s.takeDlq
  | .dropDlq => some s.dropDlq

end MemoryBus
end TokioEvents
