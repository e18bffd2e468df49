/-
  TokioEvents.Registry.DashMap

  `DashMapRegistry` (`src/registry/dashmap.rs`), each call taken as one atomic step.

  A `DashMap` is an ordered map; `iter()` visits it in key order, one of the orders
  the real map may choose, and what is proved about it below does not depend on
  the order.  `entries r t` is the subscription list of type `t` (empty when the
  map has no list); the equations `entries_*` say what each call does to it, and
  `Wf` is the invariant that ties the lists to the id index and to the trie.
-/

import Mathlib.Data.List.Nodup
import TokioEvents.Registry.EventRegistry
import TokioEvents.Registry.TopicTrie

namespace TokioEvents

/-- `DashMap<K, V>`. -/
abbrev DashMap (K V : Type) [Ord K] := Std.ExtTreeMap K V compare

/-- `DashMapRegistry`. -/
structure DashMapRegistry where
  subscriptions : DashMap TypeId (List SubscriptionEntry)
  subscriptionToType : DashMap Uuid TypeId
  nameToType : DashMap String TypeId
  subscriptionToTopic : DashMap Uuid String
  topicTrie : TopicTrie

namespace DashMapRegistry

/-- `DashMapRegistry::new`. -/
def new : DashMapRegistry := ⟨∅, ∅, ∅, ∅, .new⟩

/-- `register`. -/
def register (r : DashMapRegistry) (eventType : TypeId) (typeName : String)
    (subscription : SubscriptionEntry) : Except Error Unit × DashMapRegistry :=
  let r := { r with
    subscriptionToType := r.subscriptionToType.insert subscription.id eventType
    nameToType := r.nameToType.insert typeName eventType }
  -- Track the topic pattern for a later removal
  let r := match subscription.topic with
    | some topic =>
      { r with subscriptionToTopic := r.subscriptionToTopic.insert subscription.id topic }
    | none => r
  let r := { r with
    subscriptions := r.subscriptions.insert eventType
      (r.subscriptions[eventType]?.getD [] ++ [subscription]) }
  let r := match subscription.topic with
    | some topic => { r with topicTrie := r.topicTrie.insert topic subscription.id }
    | none => r
  (.ok (), r)

/-- The part of `unregister` that clears the topic trie: by the recorded pattern if
    there is one, otherwise by the full scan. -/
def removeFromTrie (r : DashMapRegistry) (subscriptionId : Uuid) : DashMapRegistry :=
  match r.subscriptionToTopic[subscriptionId]? with
  | some topic =>
    { r with
      subscriptionToTopic := r.subscriptionToTopic.erase subscriptionId
      topicTrie := (r.topicTrie.removeTopic topic subscriptionId).1 }
  -- Fallback to the full scan
  | none => { r with topicTrie := (r.topicTrie.remove subscriptionId).1 }

/-- The part of `unregister` that shrinks the type's list, dropping it when empty. -/
def removeFromList (r : DashMapRegistry) (eventType : TypeId) (subscriptionId : Uuid) :
    DashMapRegistry :=
  match r.subscriptions[eventType]? with
  | some subs =>
    let subs := subs.filter fun s => s.id != subscriptionId
    -- Clean up empty entries
    if subs.isEmpty then { r with subscriptions := r.subscriptions.erase eventType }
    else { r with subscriptions := r.subscriptions.insert eventType subs }
  | none => r

/-- `unregister`. -/
def unregister (r : DashMapRegistry) (subscriptionId : Uuid) :
    Except Error Unit × DashMapRegistry :=
  match r.subscriptionToType[subscriptionId]? with
  | none => (.error (.subscriptionNotFound subscriptionId), r)
  | some eventType =>
    let r := { r with subscriptionToType := r.subscriptionToType.erase subscriptionId }
    (.ok (), (r.removeFromTrie subscriptionId).removeFromList eventType subscriptionId)

/-- `get_subscriptions`: the active entries of one type. -/
def getSubscriptions (r : DashMapRegistry) (eventType : TypeId) : List SubscriptionEntry :=
  match r.subscriptions[eventType]? with
  | some subs => subs.filter (·.active)
  | none => []

/-- `get_topic_subscriptions`: the active entries, of any type, whose id the trie
    returns for the topic. -/
def getTopicSubscriptions (r : DashMapRegistry) (literalTopic : String) :
    List SubscriptionEntry :=
  let matchingIds := r.topicTrie.matchTopic literalTopic
  if matchingIds = ∅ then []
  else r.subscriptions.toList.flatMap fun subs =>
    subs.2.filter fun sub => sub.active && decide (sub.id ∈ matchingIds)

/-- `get_subscription`. -/
def getSubscription (r : DashMapRegistry) (subscriptionId : Uuid) : Option SubscriptionEntry :=
  match r.subscriptionToType[subscriptionId]? with
  | none => none
  | some eventType =>
    match r.subscriptions[eventType]? with
    | some subs => subs.find? fun s => s.id == subscriptionId
    | none => none

/-- `increment_processed`; the count is a `u64`, which wraps without overflow checks. -/
def incrementProcessed (r : DashMapRegistry) (subscriptionId : Uuid) : DashMapRegistry :=
  match r.subscriptionToType[subscriptionId]? with
  | none => r
  | some eventType =>
    match r.subscriptions[eventType]? with
    | some subs =>
      { r with subscriptions := r.subscriptions.insert eventType (subs.replaceF fun s =>
          if s.id = subscriptionId then
            some { s with eventsProcessed := (s.eventsProcessed + 1) % 2 ^ 64 }
          else none) }
    | none => r

/-- `deactivate`. -/
def deactivate (r : DashMapRegistry) (subscriptionId : Uuid) :
    Except Error Unit × DashMapRegistry :=
  match r.subscriptionToType[subscriptionId]? with
  | none => (.error (.subscriptionNotFound subscriptionId), r)
  | some eventType =>
    match r.subscriptions[eventType]? with
    | some subs =>
      if subs.any fun s => s.id == subscriptionId then
        (.ok (), { r with subscriptions := r.subscriptions.insert eventType (subs.replaceF fun s =>
          if s.id = subscriptionId then some { s with active := false } else none) })
      else (.error (.subscriptionNotFound subscriptionId), r)
    | none => (.error (.subscriptionNotFound subscriptionId), r)

/-- `total_subscriptions`. -/
def totalSubscriptions (r : DashMapRegistry) : Nat := r.subscriptionToType.size

/-- `subscription_count`: the length of the type's list, inactive entries included. -/
def subscriptionCount (r : DashMapRegistry) (eventType : TypeId) : Nat :=
  match r.subscriptions[eventType]? with
  | some subs => subs.length
  | none => 0

/-- `event_types`. -/
def eventTypes (r : DashMapRegistry) : List TypeId := r.subscriptions.keys

/-- `clear`: the topic of each id is not forgotten. -/
def clear (r : DashMapRegistry) : DashMapRegistry :=
  { r with
    subscriptions := ∅
    subscriptionToType := ∅
    nameToType := ∅
    topicTrie := .new }

/-- `get_type_id`. -/
def getTypeId (r : DashMapRegistry) (typeName : String) : Option TypeId :=
  r.nameToType[typeName]?

/-- `impl EventRegistry for DashMapRegistry`. -/
instance : EventRegistry DashMapRegistry where
  register := register
  unregister := unregister
  getSubscriptions := getSubscriptions
  getTopicSubscriptions := getTopicSubscriptions
  getSubscription := getSubscription
  incrementProcessed := incrementProcessed
  deactivate := deactivate
  totalSubscriptions := totalSubscriptions
  subscriptionCount := subscriptionCount
  eventTypes := eventTypes
  clear := clear
  getTypeId := getTypeId

section Apply

variable (r : DashMapRegistry)

@[simp] theorem apply_register (t : TypeId) (n : String) (s : SubscriptionEntry) :
    RegistryOp.apply r (.register t n s) = (r.register t n s).2 := rfl

@[simp] theorem apply_unregister (id : Uuid) :
    RegistryOp.apply r (.unregister id) = (r.unregister id).2 := rfl

@[simp] theorem apply_deactivate (id : Uuid) :
    RegistryOp.apply r (.deactivate id) = (r.deactivate id).2 := rfl

@[simp] theorem apply_incrementProcessed (id : Uuid) :
    RegistryOp.apply r (.incrementProcessed id) = r.incrementProcessed id := rfl

@[simp] theorem apply_clear : RegistryOp.apply r .clear = r.clear := rfl

end Apply

/-! ## The subscription lists -/

/-- The subscription list of a type; a type without one counts as empty. -/
def entries (r : DashMapRegistry) (eventType : TypeId) : List SubscriptionEntry :=
  r.subscriptions[eventType]?.getD []

@[simp] theorem entries_new (t : TypeId) : new.entries t = [] := by
  simp [entries, new]

/-- A type with an entry has a list. -/
theorem mem_eventTypes_of_mem {r : DashMapRegistry} {t : TypeId} {s : SubscriptionEntry}
    (h : s ∈ r.entries t) : t ∈ r.eventTypes := by
  unfold eventTypes
  rw [Std.ExtTreeMap.mem_keys, Std.ExtTreeMap.mem_iff_isSome_getElem?]
  cases hsubs : r.subscriptions[t]? with
  | none => simp [entries, hsubs] at h
  | some subs => rfl

theorem getSubscriptions_eq (r : DashMapRegistry) (t : TypeId) :
    r.getSubscriptions t = (r.entries t).filter (·.active) := by
  unfold getSubscriptions entries
  cases r.subscriptions[t]? <;> rfl

theorem subscriptionCount_eq (r : DashMapRegistry) (t : TypeId) :
    r.subscriptionCount t = (r.entries t).length := by
  unfold subscriptionCount entries
  cases r.subscriptions[t]? <;> rfl

theorem mem_getTopicSubscriptions {r : DashMapRegistry} {literalTopic : String}
    {s : SubscriptionEntry} :
    s ∈ r.getTopicSubscriptions literalTopic
      ↔ (∃ t, s ∈ r.entries t) ∧ s.active = true ∧ s.id ∈ r.topicTrie.matchTopic literalTopic := by
  by_cases h : r.topicTrie.matchTopic literalTopic = ∅
  · simp [getTopicSubscriptions, h]
  · simp only [getTopicSubscriptions, h, ↓reduceIte, List.mem_flatMap, List.mem_filter,
      Bool.and_eq_true, decide_eq_true_eq]
    -- the iteration visits every list of the map once
    constructor
    · rintro ⟨⟨t, subs⟩, hmem, hs, hact, hid⟩
      have hget := Std.ExtTreeMap.mem_toList_iff_getElem?_eq_some.mp hmem
      exact ⟨⟨t, by simpa [entries, hget] using hs⟩, hact, hid⟩
    · rintro ⟨⟨t, hs⟩, hact, hid⟩
      cases hget : r.subscriptions[t]? with
      | none => simp [entries, hget] at hs
      | some subs =>
        exact ⟨(t, subs), Std.ExtTreeMap.mem_toList_iff_getElem?_eq_some.mpr hget,
          by simpa [entries, hget] using hs, hact, hid⟩

theorem entries_register (r : DashMapRegistry) (t : TypeId) (n : String) (s : SubscriptionEntry)
    (t' : TypeId) :
    (r.register t n s).2.entries t' = if t = t' then r.entries t' ++ [s] else r.entries t' := by
  have hsubs : (r.register t n s).2.subscriptions
      = r.subscriptions.insert t (r.subscriptions[t]?.getD [] ++ [s]) := by
    unfold register
    cases s.topic <;> rfl
  unfold entries
  rw [hsubs, Std.ExtTreeMap.getElem?_insert]
  by_cases h : t = t'
  · subst h; simp
  · simp [h]

theorem entries_removeFromList (r : DashMapRegistry) (t : TypeId) (id : Uuid) (t' : TypeId) :
    (r.removeFromList t id).entries t'
      = if t = t' then (r.entries t').filter (fun s => s.id != id) else r.entries t' := by
  unfold removeFromList entries
  cases hget : r.subscriptions[t]? with
  | none =>
    by_cases h : t = t'
    · subst h; simp [hget]
    · simp [h]
  | some subs =>
    by_cases hempty : subs.filter (fun s => s.id != id) = []
    · -- the list is dropped, which reads as empty
      simp only [hempty, List.isEmpty_nil, ↓reduceIte, Std.ExtTreeMap.getElem?_erase]
      by_cases h : t = t'
      · subst h; simp [hget, hempty]
      · simp [h]
    · simp only [List.isEmpty_iff, hempty, ↓reduceIte, Std.ExtTreeMap.getElem?_insert]
      by_cases h : t = t'
      · subst h; simp [hget]
      · simp [h]

@[simp] theorem entries_removeFromTrie (r : DashMapRegistry) (id : Uuid) (t : TypeId) :
    (r.removeFromTrie id).entries t = r.entries t := by
  unfold removeFromTrie
  cases r.subscriptionToTopic[id]? <;> rfl

end DashMapRegistry
end TokioEvents
