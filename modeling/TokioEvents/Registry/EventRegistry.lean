/-
  TokioEvents.Registry.EventRegistry

  The `EventRegistry` trait and the entries it routes to (`src/registry/mod.rs`).

  The trait is a class over the registry's state: an operation returns its result
  with the state it leaves behind.  A provided method of the trait is a field with
  a default, so an implementation that does not mention it gets exactly the
  default, as in the source.
-/

import TokioEvents.Event.Envelope

namespace TokioEvents

/-- `SubscriptionEntry`; a filter is evaluated before an event is queued. -/
structure SubscriptionEntry where
  id : Uuid
  name : Option String := none
  active : Bool := true
  /-- A `u64`. -/
  eventsProcessed : Nat := 0
  durableName : Option String := none
  topic : Option String := none
  filter : Option (EventEnvelope → Bool) := none

/-- `filter.is_none_or(|filter| filter(&envelope))`. -/
def SubscriptionEntry.accepts (s : SubscriptionEntry) (envelope : EventEnvelope) : Bool :=
  match s.filter with
  | some filter => filter envelope
  | none => true

/-- `trait EventRegistry`. -/
class EventRegistry (R : Type) where
  register : R → TypeId → String → SubscriptionEntry → Except Error Unit × R
  unregister : R → Uuid → Except Error Unit × R
  getSubscriptions : R → TypeId → List SubscriptionEntry
  -- Default impl for backwards compatibility
  getTopicSubscriptions : R → String → List SubscriptionEntry := fun _ _ => []
  getSubscription : R → Uuid → Option SubscriptionEntry
  incrementProcessed : R → Uuid → R
  markFailed : R → Uuid → Uuid → Except Error Unit × R := fun r _ _ => (.ok (), r)
  deactivate : R → Uuid → Except Error Unit × R
  totalSubscriptions : R → Nat
  subscriptionCount : R → TypeId → Nat
  topicSubscriptionCount : R → String → Nat :=
    fun r literalTopic => (getTopicSubscriptions r literalTopic).length
  eventTypes : R → List TypeId
  clear : R → R
  getTypeId : R → String → Option TypeId := fun _ _ => none
  ackEvent : R → Uuid → Uuid → R := fun r _ _ => r

/-- The calls that change which subscriptions a registry holds. -/
inductive RegistryOp where
  | register (eventType : TypeId) (typeName : String) (subscription : SubscriptionEntry)
  | unregister (subscriptionId : Uuid)
  | deactivate (subscriptionId : Uuid)
  | incrementProcessed (subscriptionId : Uuid)
  | clear

namespace RegistryOp

variable {R : Type} [EventRegistry R]

/-- The state a call leaves behind. -/
def apply (r : R) : RegistryOp → R
  | .register eventType typeName subscription =>
    (EventRegistry.register r eventType typeName subscription).2
  | .unregister subscriptionId => (EventRegistry.unregister r subscriptionId).2
  | .deactivate subscriptionId => (EventRegistry.deactivate r subscriptionId).2
  | .incrementProcessed subscriptionId => EventRegistry.incrementProcessed r subscriptionId
  | .clear => EventRegistry.clear r

/-- A sequence of calls, in order. -/
def run (r : R) (ops : List RegistryOp) : R := ops.foldl apply r

@[simp] theorem run_nil (r : R) : run r [] = r := rfl

@[simp] theorem run_cons (r : R) (op : RegistryOp) (ops : List RegistryOp) :
    run r (op :: ops) = run (apply r op) ops := rfl

@[simp] theorem run_concat (r : R) (ops : List RegistryOp) (op : RegistryOp) :
    run r (ops ++ [op]) = apply (run r ops) op := by
  simp [run]

/-- The id a call registers. -/
def registeredId : RegistryOp → Option Uuid
  | .register _ _ subscription => some subscription.id
  | _ => none

/-- Every `register` of the sequence uses an id no earlier call registered. -/
def FreshIds (ops : List RegistryOp) : Prop :=
  (ops.filterMap registeredId).Nodup

end RegistryOp

/-- Two registries give the same answer to every query of the trait. -/
structure ObservablyEqual {R R' : Type} [EventRegistry R] [EventRegistry R'] (r : R) (r' : R') :
    Prop where
  getSubscriptions : ∀ eventType,
    EventRegistry.getSubscriptions r eventType = EventRegistry.getSubscriptions r' eventType
  getTopicSubscriptions : ∀ literalTopic,
    EventRegistry.getTopicSubscriptions r literalTopic
      = EventRegistry.getTopicSubscriptions r' literalTopic
  topicSubscriptionCount : ∀ literalTopic,
    EventRegistry.topicSubscriptionCount r literalTopic
      = EventRegistry.topicSubscriptionCount r' literalTopic
  getSubscription : ∀ subscriptionId,
    EventRegistry.getSubscription r subscriptionId = EventRegistry.getSubscription r' subscriptionId
  subscriptionCount : ∀ eventType,
    EventRegistry.subscriptionCount r eventType = EventRegistry.subscriptionCount r' eventType
  totalSubscriptions :
    EventRegistry.totalSubscriptions r = EventRegistry.totalSubscriptions r'
  eventTypes : EventRegistry.eventTypes r = EventRegistry.eventTypes r'
  getTypeId : ∀ typeName, EventRegistry.getTypeId r typeName = EventRegistry.getTypeId r' typeName

end TokioEvents
