/-
  TokioEvents.Subscription.Lifecycle

  How subscriptions come and go (`src/subscription/mod.rs`, `src/subscription/handle.rs`):
  `subscribe_typed` and `SubscriptionManager::unsubscribe` as calls that take one atomic
  step on the map or on the registry at a time, the clones of a `SubscriptionHandle`, the
  end of a handler task, and the worker that removes what a handler task asks for when it
  ends.  There is no shutdown.

  The map is the set of its keys.  Of a handler task only its end matters here, of the
  sender of its handles only whether it has been used or dropped.
-/

import Mathlib.Data.Finset.Basic
import TokioEvents.Lib.Calls
import TokioEvents.Persistence.RedbRegistry
import TokioEvents.Registry.Indexes

namespace TokioEvents

/-! ## Registries around a `DashMapRegistry` -/

/-- A registry that keeps its subscriptions in a `DashMapRegistry`. -/
class DashMapBacked (R : Type) [EventRegistry R] where
  dashMap : R → DashMapRegistry
  dashMap_apply : ∀ (r : R) (op : RegistryOp), dashMap (op.apply r) = op.apply (dashMap r)
  register_ok : ∀ (r : R) (t : TypeId) (n : String) (s : SubscriptionEntry),
    (EventRegistry.register r t n s).1 = .ok ()
  unregister_fst : ∀ (r : R) (id : Uuid),
    (EventRegistry.unregister r id).1 = ((dashMap r).unregister id).1

instance : DashMapBacked DashMapRegistry where
  dashMap := id
  dashMap_apply _ _ := rfl
  register_ok _ _ _ _ := rfl
  unregister_fst _ _ := rfl

instance : DashMapBacked RedbRegistry where
  dashMap := RedbRegistry.inner
  dashMap_apply := RedbRegistry.inner_apply
  register_ok _ _ _ _ := rfl
  unregister_fst _ _ := rfl

section DashMapBacked

variable {R : Type} [EventRegistry R] [DashMapBacked R]

open DashMapBacked

theorem dashMap_register (r : R) (t : TypeId) (n : String) (s : SubscriptionEntry) :
    dashMap (EventRegistry.register r t n s).2 = ((dashMap r).register t n s).2 :=
  dashMap_apply r (.register t n s)

theorem dashMap_unregister (r : R) (id : Uuid) :
    dashMap (EventRegistry.unregister r id).2 = ((dashMap r).unregister id).2 :=
  dashMap_apply r (.unregister id)

theorem dashMap_incrementProcessed (r : R) (id : Uuid) :
    dashMap (EventRegistry.incrementProcessed r id) = (dashMap r).incrementProcessed id :=
  dashMap_apply r (.incrementProcessed id)

end DashMapBacked

/-! ## The state -/

/-- How far a call of `subscribe_typed` has come. -/
inductive SubscribePhase where
  /-- The handler task is spawned; its data are not in the map yet. -/
  | spawned
  /-- They are in the map, and the id is not registered yet. -/
  | stored
  | returned
  deriving DecidableEq, Repr

/-- A subscription: the call that makes it, its handles and its handler task. -/
structure Subscriber where
  eventType : TypeId
  typeName : String
  name : String
  topic : Option String
  filter : Option (EventEnvelope → Bool)
  phase : SubscribePhase
  /-- The clones of the handle that are still around, detached ones included; those that
      `SubscriptionManager::unsubscribe` has taken over are not. -/
  handles : Nat
  /-- The sender shared by the handles was used, or dropped with the last of them. -/
  signalled : Bool
  /-- `abort` was called on the handler task. -/
  aborted : Bool
  /-- The handler task has ended. -/
  ended : Bool

/-- What `subscribe_typed` registers under the id of the handle. -/
def Subscriber.entry (sub : Subscriber) (id : Uuid) : SubscriptionEntry where
  id := id
  name := some sub.name
  topic := sub.topic
  filter := sub.filter

/-- How far a call of `SubscriptionManager::unsubscribe` has come. -/
inductive UnsubscribePhase where
  | started
  /-- The registry has let go of the id. -/
  | unregistered
  /-- So has the map. -/
  | removed
  | returned (result : Except Error Unit)

/-- A call of `SubscriptionManager::unsubscribe`; it owns a handle until it returns. -/
structure UnsubscribeCall where
  id : Uuid
  phase : UnsubscribePhase

/-- The call has unregistered its id and not looked into the map yet. -/
def UnsubscribeCall.isRemoving (call : UnsubscribeCall) : Bool :=
  match call.phase with
  | .unregistered => true
  | _ => false

def UnsubscribeCall.hasReturned (call : UnsubscribeCall) : Bool :=
  match call.phase with
  | .returned _ => true
  | _ => false

/-- The auto-unsubscribe worker. -/
inductive AutoWorker where
  /-- In `unsub_rx.recv()`. -/
  | waiting
  | received (id : Uuid)
  /-- The map has let go of the id, the registry has not been asked yet. -/
  | unregistering (id : Uuid)
  /-- Only the handler task is left to abort. -/
  | aborting (id : Uuid)
  deriving DecidableEq

/-- The id the worker is busy with. -/
def AutoWorker.id : AutoWorker → Option Uuid
  | .waiting => none
  | .received id => some id
  | .unregistering id => some id
  | .aborting id => some id

/-- The subscriptions of a `SubscriptionManager`, with all calls that concern them. -/
structure Lifecycle (R : Type) where
  registry : R
  /-- The keys of the map. -/
  subscriptions : Finset Uuid
  subscribers : DashMap Uuid Subscriber
  unsubscribes : List UnsubscribeCall
  /-- What the worker has not received yet. -/
  unsubRx : List Uuid
  worker : AutoWorker

/-- The steps. -/
inductive LifecycleAction where
  /-- `subscribe_typed` begins; the id is drawn from the generator. -/
  | subscribe (id : Uuid) (eventType : TypeId) (typeName name : String) (topic : Option String)
    (filter : Option (EventEnvelope → Bool))
  /-- It stores the subscription in the map. -/
  | store (id : Uuid)
  /-- It registers the id and returns a handle. -/
  | register (id : Uuid)
  /-- `SubscriptionHandle::clone`. -/
  | clone (id : Uuid)
  /-- A handle is dropped. -/
  | drop (id : Uuid)
  /-- `SubscriptionHandle::unsubscribe`, which uses up its handle. -/
  | signal (id : Uuid)
  /-- `SubscriptionManager::unsubscribe` takes a handle over. -/
  | unsubscribe (id : Uuid)
  /-- The next step of a call of `SubscriptionManager::unsubscribe`. -/
  | advance (index : Nat)
  /-- The handler task has processed an event. -/
  | processed (id : Uuid)
  /-- The handler task sees that `shutdown_rx` is ready, and ends. -/
  | shutdown (id : Uuid)
  /-- The handler task sees that its channel is closed, and ends. -/
  | closed (id : Uuid)
  /-- The handler panics, which ends its task. -/
  | panic (id : Uuid)
  /-- The handler task is dropped because it was aborted. -/
  | cancelled (id : Uuid)
  /-- The next step of the auto-unsubscribe worker. -/
  | auto

namespace Lifecycle

variable {R : Type}

/-- A manager with no subscriptions. -/
def new (registry : R) : Lifecycle R := ⟨registry, ∅, ∅, [], [], .waiting⟩

/-! ## The steps -/

/-- What is known of a subscription is replaced. -/
def put (s : Lifecycle R) (id : Uuid) (sub : Subscriber) : Lifecycle R :=
  { s with subscribers := s.subscribers.insert id sub }

/-- A subscription in progress takes a step. -/
def withSubscriber (s : Lifecycle R) (id : Uuid) (f : Subscriber → Option (Lifecycle R)) :
    Option (Lifecycle R) :=
  s.subscribers[id]?.bind f

theorem withSubscriber_eq_some {s s' : Lifecycle R} {id : Uuid}
    {f : Subscriber → Option (Lifecycle R)} :
    s.withSubscriber id f = some s' ↔ ∃ sub, s.subscribers[id]? = some sub ∧ f sub = some s' :=
  Option.bind_eq_some_iff

/-- Some call of `SubscriptionManager::unsubscribe` owns a handle. -/
def holding (s : Lifecycle R) (id : Uuid) : Bool :=
  s.unsubscribes.any fun call => call.id == id && !call.hasReturned

/-- After a handle is gone: the sender is dropped with the last one. -/
def release (s : Lifecycle R) (id : Uuid) : Lifecycle R :=
  match s.subscribers[id]? with
  | some sub =>
    if sub.handles = 0 ∧ s.holding id = false then s.put id { sub with signalled := true } else s
  | none => s

@[simp] theorem registry_release (s : Lifecycle R) (id : Uuid) :
    (s.release id).registry = s.registry := by
  unfold release
  repeat' split
  all_goals rfl

/-- `data.handle.abort()`. -/
def abort (s : Lifecycle R) (id : Uuid) : Lifecycle R :=
  match s.subscribers[id]? with
  | some sub => s.put id { sub with aborted := true }
  | none => s

@[simp] theorem registry_abort (s : Lifecycle R) (id : Uuid) :
    (s.abort id).registry = s.registry := by
  unfold abort
  split <;> rfl

/-- A handler task ends and asks to be removed: `let _ = unsub_tx.send(sub_id)`. -/
def finishTask (s : Lifecycle R) (id : Uuid) (sub : Subscriber) : Lifecycle R :=
  { s.put id { sub with ended := true } with unsubRx := s.unsubRx ++ [id] }

/-- `subscribe_typed`, up to the spawn of the handler task. -/
def subscribe (s : Lifecycle R) (id : Uuid) (eventType : TypeId) (typeName name : String)
    (topic : Option String) (filter : Option (EventEnvelope → Bool)) : Option (Lifecycle R) :=
  match s.subscribers[id]? with
  -- `Uuid::new_v4` does not return an id twice
  | some _ => none
  | none =>
    some (s.put id
      ⟨eventType, typeName, name, topic, filter, .spawned, 0, false, false, false⟩)

/-- Store subscription. -/
def store (s : Lifecycle R) (id : Uuid) : Option (Lifecycle R) :=
  s.withSubscriber id fun sub =>
    if sub.phase = .spawned then
      some { s.put id { sub with phase := .stored } with
        subscriptions := insert id s.subscriptions }
    else none

variable [EventRegistry R]

/-- Then register in the registry so publishers can discover it. -/
def register (s : Lifecycle R) (id : Uuid) : Option (Lifecycle R) :=
  s.withSubscriber id fun sub =>
    if sub.phase = .stored then
      match EventRegistry.register s.registry sub.eventType sub.typeName (sub.entry id) with
      | (.ok (), registry) =>
        some { s.put id { sub with phase := .returned, handles := 1 } with registry := registry }
      -- `?` drops the handle
      | (.error _, registry) =>
        some { s.put id { sub with phase := .returned, signalled := true } with
          registry := registry }
    else none

/-- `SubscriptionHandle::clone`. -/
def clone (s : Lifecycle R) (id : Uuid) : Option (Lifecycle R) :=
  s.withSubscriber id fun sub =>
    if 0 < sub.handles then some (s.put id { sub with handles := sub.handles + 1 }) else none

/-- A handle is dropped. -/
def drop (s : Lifecycle R) (id : Uuid) : Option (Lifecycle R) :=
  s.withSubscriber id fun sub =>
    if 0 < sub.handles then
      some ((s.put id { sub with handles := sub.handles - 1 }).release id)
    else none

/-- `SubscriptionHandle::unsubscribe`: whoever comes first takes the sender. -/
def signal (s : Lifecycle R) (id : Uuid) : Option (Lifecycle R) :=
  s.withSubscriber id fun sub =>
    if 0 < sub.handles then
      some (s.put id { sub with handles := sub.handles - 1, signalled := true })
    else none

/-- `SubscriptionManager::unsubscribe(handle)` begins. -/
def unsubscribe (s : Lifecycle R) (id : Uuid) : Option (Lifecycle R) :=
  s.withSubscriber id fun sub =>
    if 0 < sub.handles then
      some { s.put id { sub with handles := sub.handles - 1 } with
        unsubscribes := s.unsubscribes ++ [⟨id, .started⟩] }
    else none

/-- A call of `unsubscribe` goes on in another phase. -/
def setPhase (s : Lifecycle R) (index : Nat) (id : Uuid) (phase : UnsubscribePhase) :
    Lifecycle R :=
  { s with unsubscribes := s.unsubscribes.set index ⟨id, phase⟩ }

/-- `unsubscribe` returns, and its handle is dropped. -/
def finishCall (s : Lifecycle R) (index : Nat) (id : Uuid) (result : Except Error Unit) :
    Lifecycle R :=
  (s.setPhase index id (.returned result)).release id

/-- The next step of `SubscriptionManager::unsubscribe`. -/
def advance (s : Lifecycle R) (index : Nat) : Option (Lifecycle R) :=
  match s.unsubscribes[index]? with
  | some ⟨id, .started⟩ =>
    -- Remove from registry
    match EventRegistry.unregister s.registry id with
    | (.ok (), registry) => some ({ s with registry := registry }.setPhase index id .unregistered)
    | (.error e, registry) => some ({ s with registry := registry }.finishCall index id (.error e))
  | some ⟨id, .unregistered⟩ =>
    -- Remove subscription data
    if id ∈ s.subscriptions then
      some ({ s with subscriptions := s.subscriptions.erase id }.setPhase index id .removed)
    else some (s.finishCall index id (.error (.subscriptionNotFound id)))
  -- Cancel the task
  | some ⟨id, .removed⟩ => some ((s.abort id).finishCall index id (.ok ()))
  | _ => none

/-- `registry_clone.increment_processed(sub_id)`. -/
def processed (s : Lifecycle R) (id : Uuid) : Lifecycle R :=
  { s with registry := EventRegistry.incrementProcessed s.registry id }

/-- `_ = &mut shutdown_rx => break`. -/
def shutdown (s : Lifecycle R) (id : Uuid) : Option (Lifecycle R) :=
  s.withSubscriber id fun sub =>
    if sub.signalled && !sub.ended then some (s.finishTask id sub) else none

/-- `rx.recv()` yields `None`: the sender is gone with the subscription data. -/
def closed (s : Lifecycle R) (id : Uuid) : Option (Lifecycle R) :=
  s.withSubscriber id fun sub =>
    if sub.phase ≠ .spawned ∧ id ∉ s.subscriptions ∧ sub.ended = false then
      some (s.finishTask id sub)
    else none

/-- The task unwinds: nothing is sent. -/
def panic (s : Lifecycle R) (id : Uuid) : Option (Lifecycle R) :=
  s.withSubscriber id fun sub =>
    if sub.ended = false then some (s.put id { sub with ended := true }) else none

/-- An aborted task is dropped where it waits. -/
def cancelled (s : Lifecycle R) (id : Uuid) : Option (Lifecycle R) :=
  s.withSubscriber id fun sub =>
    if sub.aborted && !sub.ended then some (s.put id { sub with ended := true }) else none

/-- The next step of the auto-unsubscribe worker. -/
def auto (s : Lifecycle R) : Option (Lifecycle R) :=
  match s.worker with
  | .waiting =>
    match s.unsubRx with
    | id :: rest => some { s with unsubRx := rest, worker := .received id }
    | [] => none
  | .received id =>
    if id ∈ s.subscriptions then
      some { s with subscriptions := s.subscriptions.erase id, worker := .unregistering id }
    else some { s with worker := .waiting }
  -- `let _ = registry_clone.unregister(id)`
  | .unregistering id =>
    some { s with registry := (EventRegistry.unregister s.registry id).2, worker := .aborting id }
  | .aborting id => some { s.abort id with worker := .waiting }

/-- A step. -/
def step (s : Lifecycle R) : LifecycleAction → Option (Lifecycle R)
  | .subscribe id eventType typeName name topic filter =>
    s.subscribe id eventType typeName name topic filter
  | .store id => s.store id
  | .register id => s.register id
  | .clone id => s.clone id
  | .drop id => s.drop id
  | .signal id => s.signal id
  | .unsubscribe id => s.unsubscribe id
  | .advance index => s.advance index
  | .processed id => some (s.processed id)
  | .shutdown id => s.shutdown id
  | .closed id => s.closed id
  | .panic id => s.panic id
  | .cancelled id => s.cancelled id
  | .auto => s.auto

/-- A run. -/
def exec (s : Lifecycle R) (as : List LifecycleAction) : Option (Lifecycle R) :=
  Transition.exec step s as

/-- No call is in progress, and no request waits for the worker or is being served. -/
structure Quiet (s : Lifecycle R) : Prop where
  subscribes : ∀ (id : Uuid) sub, s.subscribers[id]? = some sub → sub.phase = .returned
  unsubscribes : ∀ call ∈ s.unsubscribes, call.hasReturned = true
  requests : s.unsubRx = []
  worker : s.worker = .waiting

instance (s : Lifecycle R) : Decidable s.Quiet :=
  decidable_of_iff ((∀ p ∈ s.subscribers.toList, p.2.phase = .returned) ∧
      (∀ call ∈ s.unsubscribes, call.hasReturned = true) ∧ s.unsubRx = [] ∧ s.worker = .waiting)
    ⟨fun ⟨h₁, h₂, h₃, h₄⟩ =>
        ⟨fun id sub hget => h₁ (id, sub) (Std.ExtTreeMap.mem_toList_iff_getElem?_eq_some.mpr hget),
          h₂, h₃, h₄⟩,
      fun ⟨h₁, h₂, h₃, h₄⟩ =>
        ⟨fun p hp => h₁ p.1 p.2 (Std.ExtTreeMap.mem_toList_iff_getElem?_eq_some.mp hp),
          h₂, h₃, h₄⟩⟩

/-! ## What the steps ask of the registry -/

section Registry

variable {s s' : Lifecycle R}

/-- The calls a step makes on the registry. -/
theorem registry_step {a : LifecycleAction} (h : s.step a = some s') :
    s'.registry = s.registry ∨
    (∃ id, s'.registry = (EventRegistry.unregister s.registry id).2) ∨
    (∃ id, s'.registry = EventRegistry.incrementProcessed s.registry id) ∨
    ∃ id, ∃ sub : Subscriber, s.subscribers[id]? = some sub ∧ sub.phase = .stored ∧
      s'.registry
        = (EventRegistry.register s.registry sub.eventType sub.typeName (sub.entry id)).2 := by
  cases a with
  | subscribe id eventType typeName name topic filter =>
    simp only [step, subscribe] at h
    split at h <;> cases h
    exact .inl rfl
  | store id =>
    obtain ⟨sub, -, hstep⟩ := withSubscriber_eq_some.mp h
    split at hstep <;> cases hstep
    exact .inl rfl
  | register id =>
    obtain ⟨sub, hsub, hstep⟩ := withSubscriber_eq_some.mp h
    split at hstep
    · rename_i hphase
      split at hstep
      all_goals
        rename_i hregister
        cases hstep
        exact .inr (.inr (.inr ⟨id, sub, hsub, hphase, by rw [hregister]⟩))
    · cases hstep
  | clone id =>
    obtain ⟨sub, -, hstep⟩ := withSubscriber_eq_some.mp h
    split at hstep <;> cases hstep
    exact .inl rfl
  | drop id =>
    obtain ⟨sub, -, hstep⟩ := withSubscriber_eq_some.mp h
    split at hstep <;> cases hstep
    exact .inl (registry_release _ id)
  | signal id =>
    obtain ⟨sub, -, hstep⟩ := withSubscriber_eq_some.mp h
    split at hstep <;> cases hstep
    exact .inl rfl
  | unsubscribe id =>
    obtain ⟨sub, -, hstep⟩ := withSubscriber_eq_some.mp h
    split at hstep <;> cases hstep
    exact .inl rfl
  | advance index =>
    simp only [step, advance] at h
    split at h
    case h_1 id hcall =>
      right; left
      refine ⟨id, ?_⟩
      split at h
      · rename_i hunregister
        cases h
        rw [hunregister]
        rfl
      · rename_i hunregister
        cases h
        rw [hunregister]
        exact registry_release _ id
    case h_2 id hcall =>
      left
      split at h
      · cases h
        rfl
      · cases h
        exact registry_release _ id
    case h_3 id hcall =>
      cases h
      exact .inl ((registry_release _ id).trans (registry_abort s id))
    case h_4 => cases h
  | processed id =>
    cases h
    exact .inr (.inr (.inl ⟨id, rfl⟩))
  | shutdown id =>
    obtain ⟨sub, -, hstep⟩ := withSubscriber_eq_some.mp h
    split at hstep <;> cases hstep
    exact .inl rfl
  | closed id =>
    obtain ⟨sub, -, hstep⟩ := withSubscriber_eq_some.mp h
    split at hstep <;> cases hstep
    exact .inl rfl
  | panic id =>
    obtain ⟨sub, -, hstep⟩ := withSubscriber_eq_some.mp h
    split at hstep <;> cases hstep
    exact .inl rfl
  | cancelled id =>
    obtain ⟨sub, -, hstep⟩ := withSubscriber_eq_some.mp h
    split at hstep <;> cases hstep
    exact .inl rfl
  | auto =>
    simp only [step, auto] at h
    split at h
    · split at h <;> cases h
      exact .inl rfl
    · split at h <;> cases h <;> exact .inl rfl
    · rename_i id hworker
      cases h
      exact .inr (.inl ⟨id, rfl⟩)
    · rename_i id hworker
      cases h
      exact .inl (registry_abort s id)

end Registry

end Lifecycle
end TokioEvents
