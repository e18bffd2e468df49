/-
  TokioEvents.Subscription.Handles

  The clones of a `SubscriptionHandle` (`src/subscription/handle.rs`) and the two ways to
  shut a `SubscriptionManager` down (`src/subscription/mod.rs`), around the life of its
  subscriptions.

  The sender shared by the clones of a handle is gone exactly if the subscription is
  signalled, and that is all `is_active` looks at.  A detached clone is still counted as a
  handle, which keeps the sender alive, and nobody can ask it anything.
-/

import TokioEvents.Subscription.Agreement

namespace TokioEvents

/-- A call of `SubscriptionManager::shutdown` or `SubscriptionManager::shutdown_gracefully`. -/
inductive ManagerShutdown where
  /-- `shutdown`, before `registry.clear()`. -/
  | clearing
  /-- Before the loop that aborts the tasks. -/
  | aborting
  /-- Before `subscriptions.clear()`. -/
  | emptying
  /-- `shutdown_gracefully`, in the loop over the ids. -/
  | removing (ids handles : List Uuid)
  /-- The map has let go of the id, the registry has not been asked yet. -/
  | unregistering (id : Uuid) (ids handles : List Uuid)
  /-- Waiting for the removed handler tasks. -/
  | awaiting (handles : List Uuid)
  | returned
  /-- The future is dropped. -/
  | dropped
  deriving DecidableEq, Repr

/-- The call is over. -/
def ManagerShutdown.over : ManagerShutdown → Bool
  | .returned => true
  | .dropped => true
  | _ => false

/-- The next step of the call takes the id out of the registry or out of the map. -/
def ManagerShutdown.takes : ManagerShutdown → Uuid → Bool
  | .clearing, _ => true
  | .emptying, _ => true
  | .removing (id :: _) _, j => id == j
  | .unregistering id _ _, j => id == j
  | _, _ => false

@[inherit_doc ManagerShutdown.takes]
def UnsubscribeCall.takes (call : UnsubscribeCall) (j : Uuid) : Bool :=
  match call.phase with
  | .started => call.id == j
  | .unregistered => call.id == j
  | _ => false

/-- The subscriptions of a `SubscriptionManager` with the clones of their handles and the
    calls that shut the manager down. -/
structure Handles (R : Type) where
  manager : Lifecycle R
  /-- How many clones of a handle are detached. -/
  detached : DashMap Uuid Nat
  shutdowns : List ManagerShutdown

/-- The steps. -/
inductive HandlesAction where
  /-- A step of the life of a subscription that `permits` allows. -/
  | life (a : LifecycleAction)
  /-- `SubscriptionHandle::detach`. -/
  | detach (id : Uuid)
  /-- `shutdown` begins. -/
  | shutdown
  /-- `shutdown_gracefully` begins, and collects the ids in the order of the map. -/
  | shutdownGracefully (ids : List Uuid)
  /-- The next step of a call. -/
  | advance (index : Nat)
  /-- The caller drops the future. -/
  | drop (index : Nat)

/-- The subscription one of whose clones the step uses. -/
def LifecycleAction.handle : LifecycleAction → Option Uuid
  | .clone id => some id
  | .drop id => some id
  | .signal id => some id
  | .unsubscribe id => some id
  | _ => none

/-- The id that `subscribe_typed` registers in the step. -/
def HandlesAction.registers : HandlesAction → Option Uuid
  | .life (.register id) => some id
  | _ => none

namespace Handles

variable {R : Type}

/-- A manager with no subscriptions. -/
def new (registry : R) : Handles R := ⟨.new registry, ∅, []⟩

/-- The clones of a handle that are neither used up nor detached. -/
def clones (s : Handles R) (id : Uuid) : Nat :=
  match s.manager.subscribers[id]? with
  | some sub => sub.handles - s.detached[id]?.getD 0
  | none => 0

/-- `SubscriptionHandle::is_active`. -/
def isActive (s : Handles R) (id : Uuid) : Bool :=
  match s.manager.subscribers[id]? with
  | some sub => !sub.signalled
  | none => false

/-- A clone of the handle remains, and `is_active` on it returns true. -/
def live (s : Handles R) (id : Uuid) : Bool := decide (0 < s.clones id) && s.isActive id

/-- A handle that is live has a subscriber. -/
theorem forall_live_iff (s : Handles R) (P : Uuid → Prop) :
    (∀ p ∈ s.manager.subscribers.toList, P p.1 → s.live p.1 = false)
      ↔ ∀ id, P id → s.live id = false := by
  constructor
  · intro h id hid
    cases hsub : s.manager.subscribers[id]? with
    | none => simp [live, clones, hsub]
    | some sub => exact h (id, sub) (Std.ExtTreeMap.mem_toList_iff_getElem?_eq_some.mpr hsub) hid
  · exact fun h p _ => h p.1

/-- Only a clone that is still there can be cloned, dropped or given up. -/
def permits (s : Handles R) (a : LifecycleAction) : Bool :=
  match a.handle with
  | some id => decide (0 < s.clones id)
  | none => true

/-- The manager goes on. -/
def setManager (s : Handles R) (manager : Lifecycle R) : Handles R := { s with manager := manager }

/-- A shutdown goes on. -/
def setShutdown (s : Handles R) (index : Nat) (call : ManagerShutdown) : Handles R :=
  { s with shutdowns := s.shutdowns.set index call }

/-- `mem::forget(self)`. -/
def detach (s : Handles R) (id : Uuid) : Option (Handles R) :=
  if 0 < s.clones id then
    some { s with detached := s.detached.insert id (s.detached[id]?.getD 0 + 1) }
  else none

/-- `self.subscriptions.iter().map(|s| *s.key()).collect()`. -/
def shutdownGracefully (s : Handles R) (ids : List Uuid) : Option (Handles R) :=
  if ids.Nodup ∧ ids.toFinset = s.manager.subscriptions then
    some { s with shutdowns := s.shutdowns ++ [.removing ids []] }
  else none

/-- Cancel all subscription tasks. -/
def abortAll (manager : Lifecycle R) : Lifecycle R :=
  { manager with
    subscribers := manager.subscribers.map fun id sub =>
      if id ∈ manager.subscriptions then { sub with aborted := true } else sub }

/-- The handler task has ended. -/
def ended (s : Handles R) (id : Uuid) : Bool :=
  match s.manager.subscribers[id]? with
  | some sub => sub.ended
  | none => true

/-- The future is dropped at its `await`. -/
def dropShutdown (s : Handles R) (index : Nat) : Option (Handles R) :=
  match s.shutdowns[index]? with
  | some (.awaiting _) => some (s.setShutdown index .dropped)
  | _ => none

variable [EventRegistry R]

/-- The next step of a shutdown. -/
def advance (s : Handles R) (index : Nat) : Option (Handles R) :=
  match s.shutdowns[index]? with
  | some .clearing =>
    let manager := { s.manager with registry := EventRegistry.clear s.manager.registry }
    some ((s.setManager manager).setShutdown index .aborting)
  | some .aborting => some ((s.setManager (abortAll s.manager)).setShutdown index .emptying)
  | some .emptying =>
    some ((s.setManager { s.manager with subscriptions := ∅ }).setShutdown index .returned)
  | some (.removing (id :: ids) handles) =>
    if id ∈ s.manager.subscriptions then
      -- Drop the sender to close the channel
      let manager := { s.manager with subscriptions := s.manager.subscriptions.erase id }
      some ((s.setManager manager).setShutdown index (.unregistering id ids (handles ++ [id])))
    else some (s.setShutdown index (.removing ids handles))
  | some (.unregistering id ids handles) =>
    let registry := (EventRegistry.unregister s.manager.registry id).2
    some ((s.setManager { s.manager with registry := registry }).setShutdown index
      (.removing ids handles))
  | some (.removing [] handles) => some (s.setShutdown index (.awaiting handles))
  | some (.awaiting (id :: handles)) =>
    if s.ended id then some (s.setShutdown index (.awaiting handles)) else none
  | some (.awaiting []) => some (s.setShutdown index .returned)
  | _ => none

/-- A step. -/
def step (s : Handles R) : HandlesAction → Option (Handles R)
  | .life a => if s.permits a then (s.manager.step a).map s.setManager else none
  | .detach id => s.detach id
  | .shutdown => some { s with shutdowns := s.shutdowns ++ [.clearing] }
  | .shutdownGracefully ids => s.shutdownGracefully ids
  | .advance index => s.advance index
  | .drop index => s.dropShutdown index

/-- A run. -/
def exec (s : Handles R) (as : List HandlesAction) : Option (Handles R) :=
  Transition.exec step s as

/-- No operation is in progress. -/
structure Quiet (s : Handles R) : Prop where
  manager : s.manager.Quiet
  shutdowns : ∀ call ∈ s.shutdowns, call.over = true

/-- The step takes the id out of the registry or out of the map, and is not one of the
    auto-unsubscribe worker. -/
def takes (s : Handles R) (a : HandlesAction) (id : Uuid) : Bool :=
  match a with
  | .life (.advance index) => s.manager.unsubscribes[index]?.any (·.takes id)
  | .advance index => s.shutdowns[index]?.any (·.takes id)
  | _ => false

/-- The step takes away no subscription with a live handle; and if `subscribe_typed` registers
    an id in it, its entry is in the map still. -/
structure Spares (s : Handles R) (a : HandlesAction) : Prop where
  handles : ∀ id, s.takes a id = true → s.live id = false
  entries : ∀ id, a.registers = some id → id ∈ s.manager.subscriptions

instance (s : Handles R) : Decidable s.Quiet :=
  decidable_of_iff (s.manager.Quiet ∧ ∀ call ∈ s.shutdowns, call.over = true)
    ⟨fun ⟨h₁, h₂⟩ => ⟨h₁, h₂⟩, fun ⟨h₁, h₂⟩ => ⟨h₁, h₂⟩⟩

instance (s : Handles R) (a : HandlesAction) : Decidable (s.Spares a) :=
  decidable_of_iff ((∀ p ∈ s.manager.subscribers.toList,
      s.takes a p.1 = true → s.live p.1 = false) ∧
      a.registers.all (fun id => decide (id ∈ s.manager.subscriptions)) = true)
    ⟨fun ⟨h₁, h₂⟩ => ⟨(s.forall_live_iff _).mp h₁,
        fun id hid => of_decide_eq_true ((Option.all_eq_true _ _).mp h₂ id hid)⟩,
      fun ⟨h₁, h₂⟩ => ⟨(s.forall_live_iff _).mpr h₁,
        (Option.all_eq_true _ _).mpr fun id hid => decide_eq_true (h₂ id hid)⟩⟩

variable [DashMapBacked R]

/-- **A live handle tells the truth.** A subscription with a remaining clone on which
    `is_active` returns true is in the registry and in the map. -/
def Truthful (s : Handles R) : Prop :=
  ∀ id, s.live id = true →
    id ∈ s.manager.subscriptions ∧ Lifecycle.Registered s.manager.registry id

end Handles
end TokioEvents
