/-
  TokioEvents.Registry.TopicIndexes

  The two topic structures of the registry against the registrations: the topic of
  each id and the trie.  The trie is a view of the registrations after every
  sequence of calls with fresh ids.  The topics by id also hold what `clear` left:
  the topic of each id registered at some `clear`, which no later call can reach,
  as `unregister` no longer finds the id.
-/

import TokioEvents.Registry.Indexes

namespace TokioEvents

open TopicTrie

/-- A registered subscription has the id and the topic. -/
def HasTopic (live : List Registration) (id : Uuid) (topic : String) : Prop :=
  ∃ x ∈ live, x.id = id ∧ x.topic = some topic

theorem HasTopic.mem {live : List Registration} {id : Uuid} {topic : String}
    (h : HasTopic live id topic) : id ∈ live.map (·.id) := by
  obtain ⟨x, hx, rfl, -⟩ := h
  exact List.mem_map_of_mem hx

@[simp] theorem not_hasTopic_nil (id : Uuid) (topic : String) : ¬ HasTopic [] id topic := by
  simp [HasTopic]

theorem hasTopic_filter {live : List Registration} {id i : Uuid} {topic : String} :
    HasTopic (live.filter fun x => x.id ≠ id) i topic ↔ HasTopic live i topic ∧ i ≠ id := by
  unfold HasTopic
  simp only [List.mem_filter, decide_eq_true_eq]
  constructor
  · rintro ⟨x, ⟨hx, hne⟩, rfl, ht⟩
    exact ⟨⟨x, hx, rfl, ht⟩, hne⟩
  · rintro ⟨⟨x, hx, rfl, ht⟩, hne⟩
    exact ⟨x, ⟨hx, hne⟩, rfl, ht⟩

theorem hasTopic_concat {live : List Registration} {t : TypeId} {s : SubscriptionEntry}
    {i : Uuid} {topic : String} :
    HasTopic (live ++ [s.registration t]) i topic
      ↔ HasTopic live i topic ∨ (i = s.id ∧ s.topic = some topic) := by
  unfold HasTopic
  simp only [List.mem_append, List.mem_singleton]
  constructor
  · rintro ⟨x, hx | rfl, hxid, ht⟩
    · exact .inl ⟨x, hx, hxid, ht⟩
    · exact .inr ⟨hxid.symm, ht⟩
  · rintro (⟨x, hx, hx'⟩ | ⟨rfl, ht⟩)
    · exact ⟨x, .inl hx, hx'⟩
    · exact ⟨_, .inr rfl, rfl, ht⟩

namespace RegistryOp

/-- A pattern that is registered has its `>` last. -/
def RegistersWhole : RegistryOp → Prop
  | .register _ _ subscription => ∀ topic, subscription.topic = some topic → RestLast topic
  | _ => True

theorem restLast_of_registered {ops : List RegistryOp} (hops : ∀ op ∈ ops, op.RegistersWhole)
    {id : Uuid} {topic : String} (h : HasTopic (registered ops) id topic) : RestLast topic := by
  induction ops using List.reverseRecOn with
  | nil => exact absurd h (not_hasTopic_nil id topic)
  | append_singleton ops op ih =>
    have hpre : HasTopic (registered ops) id topic → RestLast topic :=
      ih fun o ho => hops o (by simp [ho])
    rw [registered_concat] at h
    cases op with
    | register t n s =>
      rcases hasTopic_concat.mp h with hold | ⟨-, ht⟩
      · exact hpre hold
      · exact hops (.register t n s) (by simp) topic ht
    | unregister id' => exact hpre (hasTopic_filter.mp h).1
    | deactivate id' => exact hpre h
    | incrementProcessed id' => exact hpre h
    | clear => exact absurd h (not_hasTopic_nil id topic)

/-- The id was registered under the topic at some `clear`. -/
def ClearedWith (ops : List RegistryOp) (id : Uuid) (topic : String) : Prop :=
  ∃ pre, pre ++ [.clear] <+: ops ∧ HasTopic (registered pre) id topic

@[simp] theorem not_clearedWith_nil (id : Uuid) (topic : String) : ¬ ClearedWith [] id topic := by
  rintro ⟨pre, hpre, -⟩
  simp at hpre

theorem clearedWith_concat {ops : List RegistryOp} {op : RegistryOp} {id : Uuid} {topic : String} :
    ClearedWith (ops ++ [op]) id topic
      ↔ ClearedWith ops id topic ∨ (op = .clear ∧ HasTopic (registered ops) id topic) := by
  constructor
  · rintro ⟨pre, hpre, hx⟩
    rcases List.prefix_concat_iff.mp hpre with heq | hlt
    · obtain ⟨rfl, hop⟩ := List.append_inj' heq rfl
      exact .inr ⟨(List.singleton_inj.mp hop).symm, hx⟩
    · exact .inl ⟨pre, hlt, hx⟩
  · rintro (⟨pre, hpre, hx⟩ | ⟨rfl, hx⟩)
    · exact ⟨pre, hpre.trans (List.prefix_append _ _), hx⟩
    · exact ⟨ops, List.prefix_rfl, hx⟩

theorem ClearedWith.used {ops : List RegistryOp} {id : Uuid} {topic : String}
    (h : ClearedWith ops id topic) : id ∈ ops.filterMap registeredId := by
  obtain ⟨pre, hpre, x, hx, rfl, -⟩ := h
  have hsub : pre <+: ops := (List.prefix_append pre [.clear]).trans hpre
  exact (hsub.filterMap registeredId).subset (id_mem_of_mem_registered hx)

end RegistryOp

namespace DashMapRegistry

open RegistryOp

/-- The topic structures after a sequence of calls, with what the clears left. -/
structure TopicsAfter (r : DashMapRegistry) (ops : List RegistryOp) : Prop where
  byId : ∀ (id : Uuid) (topic : String), r.subscriptionToTopic[id]? = some topic
    ↔ HasTopic (registered ops) id topic ∨ ClearedWith ops id topic
  inTrie : ∀ p (id : Uuid), (p, id) ∈ r.topicTrie.index
    ↔ ∃ topic, HasTopic (registered ops) id topic ∧ patternOf topic = p
  -- a cleared id is not registered again
  apart : ∀ (id : Uuid) (topic : String), ClearedWith ops id topic →
    id ∉ (registered ops).map (·.id)

theorem topicsAfter_new : TopicsAfter new [] where
  byId := by simp [new]
  inTrie := by simp [new]
  apart := by simp

/-! ## What each call does to the topic structures -/

theorem subscriptionToTopic_register (r : DashMapRegistry) (t : TypeId) (n : String)
    (s : SubscriptionEntry) (i : Uuid) :
    (r.register t n s).2.subscriptionToTopic[i]?
      = if s.id = i then s.topic.or r.subscriptionToTopic[i]? else r.subscriptionToTopic[i]? := by
  unfold register
  cases s.topic with
  | none => simp
  | some topic => simp [Std.ExtTreeMap.getElem?_insert]

@[simp] theorem subscriptionToTopic_removeFromList (r : DashMapRegistry) (t : TypeId) (id : Uuid) :
    (r.removeFromList t id).subscriptionToTopic = r.subscriptionToTopic := by
  unfold removeFromList
  cases r.subscriptions[t]? with
  | none => rfl
  | some subs => dsimp only; split <;> rfl

theorem subscriptionToTopic_removeFromTrie (r : DashMapRegistry) (id i : Uuid) :
    (r.removeFromTrie id).subscriptionToTopic[i]?
      = if id = i then none else r.subscriptionToTopic[i]? := by
  unfold removeFromTrie
  cases htopic : r.subscriptionToTopic[id]? with
  | none =>
    by_cases heq : id = i
    · subst heq
      simpa using htopic
    · simp [heq]
  | some topic => simp [Std.ExtTreeMap.getElem?_erase]

/-- An id whose recorded topic is its only place in the trie is removed from it. -/
theorem mem_index_removeFromTrie_whole {r : DashMapRegistry} {id : Uuid}
    (hwhole : ∀ topic, r.subscriptionToTopic[id]? = some topic →
      RestLast topic ∧ ∀ p, (p, id) ∈ r.topicTrie.index → p = patternOf topic)
    (p : List (Wildcard.Seg String)) (i : Uuid) :
    (p, i) ∈ (r.removeFromTrie id).topicTrie.index ↔ (p, i) ∈ r.topicTrie.index ∧ i ≠ id := by
  by_cases hne : i = id
  · subst hne
    simp only [ne_eq, not_true_eq_false, and_false, iff_false]
    unfold removeFromTrie
    cases htopic : r.subscriptionToTopic[i]? with
    | none =>
      dsimp only
      rw [mem_index_remove]
      exact fun h => h.2 rfl
    | some topic =>
      obtain ⟨hlast, honly⟩ := hwhole topic htopic
      dsimp only
      rw [mem_index_removeTopic, ← hlast.patternOf_eq]
      rintro ⟨hmem, hnot⟩
      exact hnot ⟨honly p hmem, rfl⟩
  · rw [mem_index_removeFromTrie.2 hne, and_iff_left hne]

@[simp] theorem topics_deactivate (r : DashMapRegistry) (id : Uuid) :
    (r.deactivate id).2.subscriptionToTopic = r.subscriptionToTopic
      ∧ (r.deactivate id).2.topicTrie = r.topicTrie := by
  unfold deactivate
  split
  · exact ⟨rfl, rfl⟩
  · split
    · split <;> exact ⟨rfl, rfl⟩
    · exact ⟨rfl, rfl⟩

@[simp] theorem topics_incrementProcessed (r : DashMapRegistry) (id : Uuid) :
    (r.incrementProcessed id).subscriptionToTopic = r.subscriptionToTopic
      ∧ (r.incrementProcessed id).topicTrie = r.topicTrie := by
  unfold incrementProcessed
  split
  · exact ⟨rfl, rfl⟩
  · split <;> exact ⟨rfl, rfl⟩

/-! ## Preservation -/

section Steps

variable {r : DashMapRegistry} {ops : List RegistryOp} (h : TopicsAfter r ops)
include h

theorem TopicsAfter.register {t : TypeId} {n : String} {s : SubscriptionEntry}
    (hfresh : s.id ∉ ops.filterMap registeredId) :
    TopicsAfter (r.register t n s).2 (ops ++ [.register t n s]) := by
  have hcleared : ∀ id topic, ClearedWith (ops ++ [.register t n s]) id topic
      ↔ ClearedWith ops id topic := by simp [clearedWith_concat]
  have hlive : registered (ops ++ [.register t n s]) = registered ops ++ [s.registration t] := by
    rw [registered_concat, store]
  have hnotLive : s.id ∉ (registered ops).map (·.id) := by
    intro hmem
    obtain ⟨x, hx, hid⟩ := List.mem_map.mp hmem
    exact hfresh (hid ▸ id_mem_of_mem_registered hx)
  constructor
  case byId =>
    intro id topic
    rw [subscriptionToTopic_register, hlive, hasTopic_concat, hcleared]
    by_cases hid : s.id = id
    · -- nothing was recorded for the fresh id
      subst hid
      have hnone : r.subscriptionToTopic[s.id]? = none := by
        rw [Option.eq_none_iff_forall_ne_some]
        intro topic' hsome
        rcases (h.byId s.id topic').mp hsome with hold | hold
        · exact hnotLive hold.mem
        · exact hfresh hold.used
      have hold : ¬ HasTopic (registered ops) s.id topic := fun hold => hnotLive hold.mem
      have hgone : ¬ ClearedWith ops s.id topic := fun hold => hfresh hold.used
      simp [hnone, hold, hgone]
    · have hne : ¬ id = s.id := fun heq => hid heq.symm
      rw [if_neg hid, h.byId]
      simp [hne]
  case inTrie =>
    intro p id
    rw [mem_index_register, h.inTrie, hlive]
    simp only [hasTopic_concat, Option.map_eq_some_iff]
    constructor
    · rintro (⟨⟨topic, ht, hp⟩, hid⟩ | ⟨topic, hold, hp⟩)
      · exact ⟨topic, .inr ⟨hid, ht⟩, hp⟩
      · exact ⟨topic, .inl hold, hp⟩
    · rintro ⟨topic, hold | ⟨hid, ht⟩, hp⟩
      · exact .inr ⟨topic, hold, hp⟩
      · exact .inl ⟨⟨topic, ht, hp⟩, hid⟩
  case apart =>
    intro id topic hc hmem
    rw [hcleared] at hc
    rw [hlive, List.map_append, List.mem_append] at hmem
    rcases hmem with hold | hnew
    · exact h.apart id topic hc hold
    · have hid : id = s.id := by simpa [SubscriptionEntry.registration] using hnew
      exact hfresh (hid ▸ hc.used)

theorem TopicsAfter.unregister (hlist : Refines r (registered ops))
    (hwhole : ∀ op ∈ ops, op.RegistersWhole) (id : Uuid) :
    TopicsAfter (r.unregister id).2 (ops ++ [.unregister id]) := by
  have hcleared : ∀ i topic, ClearedWith (ops ++ [.unregister id]) i topic
      ↔ ClearedWith ops i topic := by simp [clearedWith_concat]
  have hlive : registered (ops ++ [.unregister id])
      = (registered ops).filter fun x => x.id ≠ id := by
    rw [registered_concat, store]
  have happart : ∀ i topic, ClearedWith (ops ++ [.unregister id]) i topic →
      i ∉ (registered (ops ++ [.unregister id])).map (·.id) := by
    intro i topic hc hmem
    rw [hlive] at hmem
    exact h.apart i topic ((hcleared i topic).mp hc) ((List.filter_sublist.map _).subset hmem)
  unfold DashMapRegistry.unregister
  cases htype : r.subscriptionToType[id]? with
  | none =>
    -- an unknown id is in no registration
    have hsame : registered (ops ++ [.unregister id]) = registered ops := by
      rw [hlive]
      exact List.filter_eq_self.mpr fun x hx => by simpa using hlist.not_typed htype x hx
    constructor
    case byId =>
      intro i topic
      rw [hsame, hcleared]
      exact h.byId i topic
    case inTrie =>
      intro p i
      rw [hsame]
      exact h.inTrie p i
    case apart => exact happart
  | some t =>
    obtain ⟨x, hx, hxid, -⟩ := (hlist.typed id t).mp htype
    have hknown : id ∈ (registered ops).map (·.id) := hxid ▸ List.mem_map_of_mem hx
    have hnotCleared : ∀ topic, ¬ ClearedWith ops id topic := fun topic hc =>
      h.apart id topic hc hknown
    -- the recorded topic is the registration's, and the only one
    have honly : ∀ topic, r.subscriptionToTopic[id]? = some topic →
        RestLast topic ∧ ∀ p, (p, id) ∈ r.topicTrie.index → p = patternOf topic := by
      intro topic htopic
      have hhas : HasTopic (registered ops) id topic :=
        ((h.byId id topic).mp htopic).resolve_right (hnotCleared topic)
      refine ⟨restLast_of_registered hwhole hhas, ?_⟩
      intro p hp
      obtain ⟨topic', hhas', rfl⟩ := (h.inTrie p id).mp hp
      have heq := (h.byId id topic').mpr (.inl hhas')
      rw [htopic, Option.some.injEq] at heq
      rw [heq]
    constructor
    case byId =>
      intro i topic
      rw [subscriptionToTopic_removeFromList, subscriptionToTopic_removeFromTrie, hlive,
        hasTopic_filter, hcleared]
      by_cases hid : id = i
      · subst hid
        simp [hnotCleared]
      · have hne : i ≠ id := fun heq => hid heq.symm
        rw [if_neg hid, and_iff_left hne]
        exact h.byId i topic
    case inTrie =>
      intro p i
      have hmem := mem_index_removeFromTrie_whole
        (r := { r with subscriptionToType := r.subscriptionToType.erase id }) honly p i
      rw [topicTrie_removeFromList, hmem, hlive, h.inTrie]
      simp only [hasTopic_filter]
      constructor
      · rintro ⟨⟨topic, hhas, hp⟩, hne⟩
        exact ⟨topic, ⟨hhas, hne⟩, hp⟩
      · rintro ⟨topic, ⟨hhas, hne⟩, hp⟩
        exact ⟨⟨topic, hhas, hp⟩, hne⟩
    case apart => exact happart

theorem TopicsAfter.clear : TopicsAfter r.clear (ops ++ [.clear]) where
  byId id topic := by
    rw [clearedWith_concat, registered_concat, store]
    simp only [not_hasTopic_nil, true_and, false_or]
    rw [or_comm]
    exact h.byId id topic
  inTrie p id := by simp [DashMapRegistry.clear, store]
  apart id topic _ := by simp [store]

/-- A call that touches neither structure and registers, removes and clears nothing. -/
theorem TopicsAfter.frame {r' : DashMapRegistry} {op : RegistryOp}
    (hlive : store (registered ops) op = registered ops) (hclear : op ≠ .clear)
    (hbyId : r'.subscriptionToTopic = r.subscriptionToTopic) (htrie : r'.topicTrie = r.topicTrie) :
    TopicsAfter r' (ops ++ [op]) where
  byId id topic := by
    rw [hbyId, registered_concat, hlive, clearedWith_concat, h.byId]
    simp [hclear]
  inTrie p id := by
    rw [htrie, registered_concat, hlive]
    exact h.inTrie p id
  apart id topic hc := by
    rw [registered_concat, hlive]
    refine h.apart id topic ?_
    simpa [clearedWith_concat, hclear] using hc

end Steps

/-- **Every sequence of calls** that registers fresh ids with whole patterns. -/
theorem topicsAfter_run (ops : List RegistryOp) (hfresh : FreshIds ops)
    (hwhole : ∀ op ∈ ops, op.RegistersWhole) : TopicsAfter (run new ops) ops := by
  induction ops using List.reverseRecOn with
  | nil => exact topicsAfter_new
  | append_singleton ops op ih =>
    obtain ⟨hpre, hnew⟩ := hfresh.concat
    have hpreWhole : ∀ o ∈ ops, o.RegistersWhole := fun o ho => hwhole o (by simp [ho])
    have h := ih hpre hpreWhole
    rw [run_concat]
    cases op with
    | register t n s => exact h.register (hnew s.id rfl)
    | unregister id => exact h.unregister (refines_run ops hpre) hpreWhole id
    | deactivate id =>
      have hsame := topics_deactivate (run new ops) id
      exact h.frame rfl (by simp) hsame.1 hsame.2
    | incrementProcessed id =>
      have hsame := topics_incrementProcessed (run new ops) id
      exact h.frame rfl (by simp) hsame.1 hsame.2
    | clear => exact h.clear

/-- The topic indexes are exact: both hold the topics of the registered subscriptions
    and nothing else. -/
structure TopicIndexes (r : DashMapRegistry) (live : List Registration) : Prop where
  subscriptionToTopic : ∀ (id : Uuid) (topic : String),
    r.subscriptionToTopic[id]? = some topic ↔ HasTopic live id topic
  topicTrie : ∀ p (id : Uuid),
    (p, id) ∈ r.topicTrie.index ↔ ∃ topic, HasTopic live id topic ∧ patternOf topic = p

/-- **The topic indexes are exact after a sequence of calls exactly when no `clear` of
    it found a subscription with a topic.** -/
theorem topicIndexes_run_iff (ops : List RegistryOp) (hfresh : FreshIds ops)
    (hwhole : ∀ op ∈ ops, op.RegistersWhole) :
    TopicIndexes (run new ops) (registered ops)
      ↔ ∀ pre, pre ++ [.clear] <+: ops → ∀ x ∈ registered pre, x.topic = none := by
  have h := topicsAfter_run ops hfresh hwhole
  constructor
  · intro hexact pre hpre x hx
    rw [Option.eq_none_iff_forall_ne_some]
    intro topic htopic
    -- what the clear left would have to be registered again
    have hc : ClearedWith ops x.id topic := ⟨pre, hpre, x, hx, rfl, htopic⟩
    have hrecorded := (h.byId x.id topic).mpr (.inr hc)
    have hhas := (hexact.subscriptionToTopic x.id topic).mp hrecorded
    exact h.apart x.id topic hc hhas.mem
  · intro hclears
    have hnone : ∀ id topic, ¬ ClearedWith ops id topic := by
      rintro id topic ⟨pre, hpre, x, hx, -, htopic⟩
      rw [hclears pre hpre x hx] at htopic
      cases htopic
    refine ⟨fun id topic => ?_, h.inTrie⟩
    rw [h.byId, or_iff_left (hnone id topic)]

/-- An order topic is registered and the registry is cleared. -/
def clearOrders : List RegistryOp :=
  [.register 1 "Order" { id := 10, topic := some "orders.>" }, .clear]

theorem freshIds_clearOrders : FreshIds clearOrders := by
  unfold FreshIds clearOrders registeredId
  decide

theorem registersWhole_clearOrders : ∀ op ∈ clearOrders, op.RegistersWhole := by
  simp only [clearOrders, List.forall_mem_cons, RegistersWhole, Option.some.injEq, forall_eq',
    List.not_mem_nil, false_implies, implies_true, and_true]
  decide +kernel

theorem topicIndexes_clearOrders :
    TopicIndexes (run new clearOrders) (registered clearOrders)
      ↔ ∀ pre, pre ++ [.clear] <+: clearOrders → ∀ x ∈ registered pre, x.topic = none :=
  topicIndexes_run_iff clearOrders freshIds_clearOrders registersWhole_clearOrders

/-- The topic of the cleared subscription stays. -/
theorem not_topicIndexes_clearOrders :
    ¬ TopicIndexes (run new clearOrders) (registered clearOrders) := by
  intro hexact
  have hrecorded : (run new clearOrders).subscriptionToTopic[(10 : Uuid)]? = some "orders.>" := by
    rfl
  have hhas := (hexact.subscriptionToTopic 10 "orders.>").mp hrecorded
  exact not_hasTopic_nil _ _ hhas

end DashMapRegistry
end TokioEvents
