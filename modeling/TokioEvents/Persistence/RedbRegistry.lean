/-
  TokioEvents.Persistence.RedbRegistry

  `RedbRegistry` (`src/persistence/redb.rs`): the registry of a persistent bus.  It
  forwards to a `DashMapRegistry` and turns `ack_event` and `mark_failed` into
  messages for the ack worker.

  The forwarding is not complete: `get_topic_subscriptions` is not among the
  forwarded methods, so the trait's default applies and a persistent bus finds no
  subscription by topic.  Everything else agrees with the wrapped registry, hence
  the two are observably equal exactly as long as the trie holds no id of an active
  subscription.
-/

import TokioEvents.Persistence.AckWorker
import TokioEvents.Registry.Invariant
import TokioEvents.Subscription.Manager

namespace TokioEvents

/-- `RedbRegistry`, with the messages sent on `ack_tx` that the ack worker has not
    received yet. -/
structure RedbRegistry where
  inner : DashMapRegistry
  ackTx : List Completion

namespace RedbRegistry

/-- `RedbRegistry::new` around an empty `DashMapRegistry`. -/
def new : RedbRegistry := ⟨.new, []⟩

/-- Run a call on the wrapped registry. -/
def forward (r : RedbRegistry) (result : Except Error Unit × DashMapRegistry) :
    Except Error Unit × RedbRegistry :=
  (result.1, { r with inner := result.2 })

/-- `impl EventRegistry for RedbRegistry`. -/
instance : EventRegistry RedbRegistry where
  register r eventType typeName subscription :=
    r.forward (r.inner.register eventType typeName subscription)
  unregister r subscriptionId := r.forward (r.inner.unregister subscriptionId)
  getSubscriptions r eventType := r.inner.getSubscriptions eventType
  getSubscription r subscriptionId := r.inner.getSubscription subscriptionId
  incrementProcessed r subscriptionId :=
    { r with inner := r.inner.incrementProcessed subscriptionId }
  deactivate r subscriptionId := r.forward (r.inner.deactivate subscriptionId)
  totalSubscriptions r := r.inner.totalSubscriptions
  subscriptionCount r eventType := r.inner.subscriptionCount eventType
  eventTypes r := r.inner.eventTypes
  clear r := { r with inner := r.inner.clear }
  getTypeId r typeName := r.inner.getTypeId typeName
  ackEvent r _ eventId := { r with ackTx := r.ackTx ++ [(eventId, true)] }
  markFailed r _ eventId := (.ok (), { r with ackTx := r.ackTx ++ [(eventId, false)] })

@[simp] theorem getSubscriptions_def (r : RedbRegistry) (t : TypeId) :
    EventRegistry.getSubscriptions r t = r.inner.getSubscriptions t := rfl

/-- The trait's default, not the wrapped registry's method. -/
@[simp] theorem getTopicSubscriptions_def (r : RedbRegistry) (literalTopic : String) :
    EventRegistry.getTopicSubscriptions r literalTopic = [] := rfl

@[simp] theorem subscriptionCount_def (r : RedbRegistry) (t : TypeId) :
    EventRegistry.subscriptionCount r t = r.inner.subscriptionCount t := rfl

/-! ## Simulation -/

/-- **One call** on the wrapper is the same call on the wrapped registry. -/
theorem inner_apply (r : RedbRegistry) (op : RegistryOp) :
    (op.apply r).inner = op.apply r.inner := by
  cases op with
  | register _ _ _ => rfl
  | unregister _ => rfl
  | deactivate _ => rfl
  | incrementProcessed _ => rfl
  | clear => rfl

/-- **Every sequence of calls** on the wrapper is the same sequence on the wrapped
    registry. -/
theorem inner_run (r : RedbRegistry) (ops : List RegistryOp) :
    (RegistryOp.run r ops).inner = RegistryOp.run r.inner ops := by
  induction ops generalizing r with
  | nil => rfl
  | cons op ops ih =>
    rw [RegistryOp.run_cons, ih, inner_apply]
    rfl

end RedbRegistry

namespace DashMapRegistry

open TopicTrie

/-- Every path stored in the trie was spelled by some pattern string. -/
def PathsSpelled (r : DashMapRegistry) : Prop :=
  ∀ p i, (p, i) ∈ r.topicTrie.index → ∃ topicPattern, p = patternOf topicPattern

/-- A call stores no new path unless it registers a pattern that spells it. -/
theorem PathsSpelled.apply {r : DashMapRegistry} (h : r.PathsSpelled) (op : RegistryOp) :
    PathsSpelled (op.apply r) := by
  intro p i hi
  cases op with
  | register t n s =>
    rcases mem_index_register.mp hi with ⟨htopic, -⟩ | hold
    · obtain ⟨topic, -, rfl⟩ := Option.map_eq_some_iff.mp htopic
      exact ⟨topic, rfl⟩
    · exact h p i hold
  | unregister id =>
    refine h p i ?_
    rw [apply_unregister] at hi
    unfold unregister at hi
    split at hi
    · exact hi
    · rw [topicTrie_removeFromList] at hi
      exact (mem_index_removeFromTrie
        (r := { r with subscriptionToType := r.subscriptionToType.erase id })).1 hi
  | deactivate id =>
    refine h p i ?_
    rw [apply_deactivate] at hi
    unfold deactivate at hi
    repeat' split at hi
    all_goals exact hi
  | incrementProcessed id =>
    refine h p i ?_
    rw [apply_incrementProcessed] at hi
    unfold incrementProcessed at hi
    repeat' split at hi
    all_goals exact hi
  | clear => exact absurd hi (by simp [clear])

theorem pathsSpelled_run (ops : List RegistryOp) : PathsSpelled (RegistryOp.run new ops) := by
  induction ops using List.reverseRecOn with
  | nil => exact fun p i hi => absurd hi (by simp [new])
  | append_singleton ops op ih =>
    rw [RegistryOp.run_concat]
    exact ih.apply op

/-- The id of an active registered subscription is stored in the topic trie. -/
def HasActiveTopicEntry (r : DashMapRegistry) : Prop :=
  ∃ t, ∃ s ∈ r.entries t, s.active = true ∧ ∃ p, (p, s.id) ∈ r.topicTrie.index

/-- Some topic finds a subscription exactly when an active one is in the trie: its
    own pattern, read as a topic, finds it. -/
theorem exists_getTopicSubscriptions_iff {r : DashMapRegistry} (h : r.PathsSpelled) :
    (∃ literalTopic, r.getTopicSubscriptions literalTopic ≠ []) ↔ r.HasActiveTopicEntry := by
  constructor
  · rintro ⟨literalTopic, hne⟩
    obtain ⟨s, hs⟩ := List.exists_mem_of_ne_nil _ hne
    obtain ⟨⟨t, hmem⟩, hact, hid⟩ := mem_getTopicSubscriptions.mp hs
    obtain ⟨p, hp, -⟩ := TopicTrie.mem_matchTopic.mp hid
    exact ⟨t, s, hmem, hact, p, hp⟩
  · rintro ⟨t, s, hmem, hact, p, hp⟩
    obtain ⟨topicPattern, rfl⟩ := h p s.id hp
    refine ⟨topicPattern, List.ne_nil_of_mem (a := s) (mem_getTopicSubscriptions.mpr ?_)⟩
    exact ⟨⟨t, hmem⟩, hact, TopicTrie.mem_matchTopic.mpr ⟨_, hp, topicMatches_self _⟩⟩

/-- With fresh ids the trie holds exactly the registered topics. -/
theorem hasActiveTopicEntry_iff_of_fresh {ops : List RegistryOp}
    (hfresh : RegistryOp.FreshIds ops) :
    HasActiveTopicEntry (RegistryOp.run new ops)
      ↔ ∃ t, ∃ s ∈ (RegistryOp.run new ops).entries t, s.active = true ∧ s.topic.isSome := by
  have hwf := wf_run ops hfresh
  constructor
  · rintro ⟨t, s, hs, hact, p, hp⟩
    refine ⟨t, s, hs, hact, ?_⟩
    have := (hwf.indexed t s hs p).mp hp
    cases htopic : s.topic with
    | none => simp [htopic] at this
    | some topic => rfl
  · rintro ⟨t, s, hs, hact, htopic⟩
    obtain ⟨topic, htopic⟩ := Option.isSome_iff_exists.mp htopic
    exact ⟨t, s, hs, hact, _, (hwf.indexed t s hs _).mpr (by rw [htopic]; rfl)⟩

end DashMapRegistry

namespace RedbRegistry

/-- The wrapper answers every query as the wrapped registry does, and `dispatch`
    selects the same recipients over both. -/
structure Transparent (r : RedbRegistry) (inner : DashMapRegistry) : Prop where
  queries : ObservablyEqual r inner
  recipients : ∀ (subscriptions : DashMap Uuid SubscriptionData) (envelope : EventEnvelope),
    SubscriptionManager.senders ⟨r, subscriptions⟩ envelope
      = SubscriptionManager.senders ⟨inner, subscriptions⟩ envelope

/-- **When the wrapper is transparent.** After any sequence of calls applied to both,
    `RedbRegistry` is observably equal to the `DashMapRegistry` it wraps, and selects
    the same recipients, if and only if no active subscription is in the topic trie. -/
theorem transparent_run_iff (ops : List RegistryOp) :
    Transparent (RegistryOp.run RedbRegistry.new ops) (RegistryOp.run DashMapRegistry.new ops)
      ↔ ¬ (RegistryOp.run DashMapRegistry.new ops).HasActiveTopicEntry := by
  set r := RegistryOp.run RedbRegistry.new ops
  set inner := RegistryOp.run DashMapRegistry.new ops
  have hinner : r.inner = inner := inner_run RedbRegistry.new ops
  rw [← DashMapRegistry.exists_getTopicSubscriptions_iff (DashMapRegistry.pathsSpelled_run ops)]
  constructor
  · rintro h ⟨literalTopic, hne⟩
    exact hne (h.queries.getTopicSubscriptions literalTopic).symm
  · intro hnone
    have htopic : ∀ literalTopic,
        EventRegistry.getTopicSubscriptions inner literalTopic = [] := fun literalTopic =>
      not_not.mp fun hne => hnone ⟨literalTopic, hne⟩
    constructor
    · constructor
      case getSubscriptions => intro t; rw [← hinner]; rfl
      case getTopicSubscriptions => intro literalTopic; rw [htopic]; rfl
      case topicSubscriptionCount =>
        intro literalTopic
        exact (congrArg List.length (htopic literalTopic)).symm
      case getSubscription => intro id; rw [← hinner]; rfl
      case subscriptionCount => intro t; rw [← hinner]; rfl
      case totalSubscriptions => rw [← hinner]; rfl
      case eventTypes => rw [← hinner]; rfl
      case getTypeId => intro typeName; rw [← hinner]; rfl
    · intro subscriptions envelope
      have hselect : SubscriptionManager.selectSubscriptions r envelope
          = SubscriptionManager.selectSubscriptions inner envelope := by
        unfold SubscriptionManager.selectSubscriptions
        rw [htopic, getTopicSubscriptions_def, getSubscriptions_def, hinner]
        rfl
      unfold SubscriptionManager.senders
      rw [hselect]

/-- A single subscription to `OrderEvent` on `orders.>`. -/
def ordersTopicOps : List RegistryOp :=
  [.register 1 "OrderEvent" { id := 10, topic := some "orders.>" }]

/-- The wrapped registry finds it by topic, the wrapper does not. -/
theorem not_transparent_ordersTopic :
    ¬ Transparent (RegistryOp.run RedbRegistry.new ordersTopicOps)
      (RegistryOp.run DashMapRegistry.new ordersTopicOps) := by
  intro h
  have hcount := h.queries.topicSubscriptionCount "orders.us"
  revert hcount
  decide

end RedbRegistry
end TokioEvents
