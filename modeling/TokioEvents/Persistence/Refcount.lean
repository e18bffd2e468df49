/-
  TokioEvents.Persistence.Refcount

  The refcount `process_events` stores against the number of channels `dispatch`
  pushes into.

  `sub_count` is the length of the event type's subscription list plus, for an event
  with a topic, the number of topic matches: it looks at neither the active flag nor
  the filter nor the channel, and it takes an entry of the list with a topic for a
  recipient.  The two numbers are compared by what each side has and the other lacks.
-/

import Mathlib.Data.Set.Card
import TokioEvents.Persistence.ProcessEvents
import TokioEvents.Persistence.RedbRegistry
import TokioEvents.Subscription.Routing

namespace TokioEvents

/-- `sub_count` over `RedbRegistry`: the length of the type's list, as a `u32`. -/
def RedbRegistry.subCount (r : RedbRegistry) (event : EventEnvelope) : Nat :=
  (r.inner.entries event.typeId).length % 2 ^ 32

namespace SubscriptionManager

/-- The id has a handler channel whose receiver still exists. -/
def hasLiveChannel (channels : DashMap Uuid SubscriptionData) (id : Uuid) : Bool :=
  channels[id]?.any (·.live)

theorem isSome_of_hasLiveChannel {channels : DashMap Uuid SubscriptionData} {id : Uuid}
    (h : hasLiveChannel channels id = true) : (channels[id]?).isSome = true := by
  unfold hasLiveChannel at h
  cases hd : channels[id]? with
  | none => simp [hd] at h
  | some data => rfl

section Pushes

variable {R : Type} [EventRegistry R]

/-- The handler channels `dispatch` pushes the envelope into: those of the senders
    whose receiver still exists. -/
def pushes (m : SubscriptionManager R) (envelope : EventEnvelope) : List Uuid :=
  (m.senders envelope).filter (hasLiveChannel m.subscriptions)

theorem mem_pushes {m : SubscriptionManager R} {envelope : EventEnvelope} {id : Uuid} :
    id ∈ m.pushes envelope
      ↔ id ∈ m.senders envelope ∧ hasLiveChannel m.subscriptions id = true :=
  List.mem_filter

/-- A channel is pushed into exactly when `dispatch` makes it longer. -/
theorem mem_pushes_iff_longer {m : SubscriptionManager R} {envelope : EventEnvelope} {id : Uuid} :
    id ∈ m.pushes envelope
      ↔ ∃ data data', m.subscriptions[id]? = some data ∧
          (m.dispatch envelope).subscriptions[id]? = some data' ∧
          data.channel.length < data'.channel.length := by
  have hget := getElem?_pushAll envelope m.subscriptions (m.senders envelope) id
  have hdispatch : (m.dispatch envelope).subscriptions
      = pushAll envelope m.subscriptions (m.senders envelope) := rfl
  rw [mem_pushes, hdispatch, hget]
  unfold hasLiveChannel
  cases hdata : m.subscriptions[id]? with
  | none => simp
  | some data =>
    cases hlive : data.live with
    | false => simp [hlive]
    | true => simp [hlive, List.count_pos_iff]

end Pushes

/-- Two ways of counting: what `P` has is what `L` names, less what only `L` names,
    plus what only `P` has. -/
theorem length_add_length_filter {α β : Type*} [DecidableEq β] {f : α → β} {L : List α}
    {P : List β} (hL : (L.map f).Nodup) (hP : P.Nodup) :
    P.length + (L.filter fun a => decide (f a ∉ P)).length
      = L.length + (P.filter fun b => decide (b ∉ L.map f)).length := by
  have hcommon : ((L.filter fun a => decide (f a ∈ P)).map f).Perm
      (P.filter fun b => decide (b ∈ L.map f)) := by
    refine (List.perm_ext_iff_of_nodup ?_ (hP.filter _)).mpr fun b => ?_
    · exact ((List.filter_sublist (l := L)).map f).nodup hL
    · simp only [List.mem_map, List.mem_filter, decide_eq_true_eq]
      constructor
      · rintro ⟨a, ⟨ha, hfa⟩, rfl⟩
        exact ⟨hfa, a, ha, rfl⟩
      · rintro ⟨hb, a, ha, rfl⟩
        exact ⟨a, ⟨ha, hb⟩, rfl⟩
  have hlen := hcommon.length_eq
  rw [List.length_map] at hlen
  have hl := List.length_eq_length_filter_add (l := L) fun a => decide (f a ∈ P)
  have hp := List.length_eq_length_filter_add (l := P) fun b => decide (b ∈ L.map f)
  simp only [← decide_not] at hl hp
  omega

/-- The refcount that is stored when the row of an unscheduled event is inserted. -/
theorem refcount_insertRow {json : SerdeJson} {event : EventEnvelope} {n : Nat} {now : DateTime}
    {row : DbInsert} (db : Db) (hrow : prepare json event n now = some row)
    (hunscheduled : row.isScheduled = false) :
    (db.insertRow row).refcount[event.eventId]? = some n := by
  obtain ⟨-, bytes, -, rfl⟩ := prepare_eq_some.mp hrow
  unfold Db.insertRow Db.insertEvent
  rw [if_neg (by simpa using hunscheduled)]
  simp

/-- Adding in `u32` is adding modulo `2 ^ 32`, if it does not panic. -/
theorem subCount_eq {R : Type} [EventRegistry R] {overflowChecks : Bool} {registry : R}
    {event : EventEnvelope} {n : Nat} (h : subCount overflowChecks registry event = some n) :
    n = (EventRegistry.subscriptionCount registry event.typeId
          + event.metadata.topic.elim 0 (EventRegistry.topicSubscriptionCount registry))
        % 2 ^ 32 := by
  unfold subCount at h
  cases htopic : event.metadata.topic with
  | none =>
    rw [htopic] at h
    exact (Option.some.inj h).symm
  | some topic =>
    rw [htopic] at h
    have hsum := Word32.eq_mod_of_add_eq_some (Nat.mod_lt _ (by decide)) (Nat.mod_lt _ (by decide)) h
    rw [hsum, Option.elim_some, ← Nat.add_mod]

/-! ## Over the registry of a persistent bus -/

section Redb

variable {r : RedbRegistry} {used : List Uuid} {channels : DashMap Uuid SubscriptionData}
  {envelope : EventEnvelope}

/-- `dispatch` over `RedbRegistry` reaches the entry of the type's list: it is active,
    has no topic, its filter accepts, and its channel is live. -/
def reachedUntopiced (channels : DashMap Uuid SubscriptionData) (envelope : EventEnvelope)
    (s : SubscriptionEntry) : Bool :=
  s.active && s.topic.isNone && s.accepts envelope && hasLiveChannel channels s.id

theorem selectSubscriptions_redb (r : RedbRegistry) (envelope : EventEnvelope) :
    selectSubscriptions r envelope
      = (r.inner.entries envelope.typeId).filter fun s => s.active && s.topic.isNone := by
  unfold selectSubscriptions
  rw [RedbRegistry.getTopicSubscriptions_def, RedbRegistry.getSubscriptions_def,
    DashMapRegistry.getSubscriptions_eq]
  simp only [mergeTopicSubs, List.foldl_nil, List.filter_filter, Bool.and_comm]

/-- No topic is counted over `RedbRegistry`, and nothing overflows. -/
theorem subCount_redb (overflowChecks : Bool) (r : RedbRegistry) (envelope : EventEnvelope) :
    subCount overflowChecks r envelope = some (r.subCount envelope) := by
  have hlist : EventRegistry.subscriptionCount r envelope.typeId
      = (r.inner.entries envelope.typeId).length := by
    rw [RedbRegistry.subscriptionCount_def, DashMapRegistry.subscriptionCount_eq]
  unfold subCount
  rw [hlist]
  cases envelope.metadata.topic with
  | none => rfl
  | some topic =>
    exact Word32.add_of_lt (b := 0) (Nat.mod_lt _ (by decide))

theorem nodup_pushes_redb (h : r.inner.Wf used) (channels : DashMap Uuid SubscriptionData)
    (envelope : EventEnvelope) : (pushes ⟨r, channels⟩ envelope).Nodup := by
  refine List.Nodup.filter _ ((senders_sublist _ _).nodup ?_)
  rw [selectSubscriptions_redb]
  exact (List.filter_sublist.map _).nodup (h.nodup _)

/-- Every push goes to an entry of the type's list. -/
theorem mem_pushes_redb {id : Uuid} :
    id ∈ pushes ⟨r, channels⟩ envelope
      ↔ ∃ s ∈ r.inner.entries envelope.typeId, s.id = id ∧
          reachedUntopiced channels envelope s = true := by
  rw [mem_pushes, mem_senders, selectSubscriptions_redb]
  unfold reachedUntopiced
  simp only [List.mem_filter, Bool.and_eq_true]
  constructor
  · rintro ⟨⟨s, ⟨hs, hact, htopic⟩, rfl, hacc, -⟩, hlive⟩
    exact ⟨s, hs, rfl, ⟨⟨hact, htopic⟩, hacc⟩, hlive⟩
  · rintro ⟨s, hs, rfl, ⟨⟨hact, htopic⟩, hacc⟩, hlive⟩
    exact ⟨⟨s, ⟨hs, hact, htopic⟩, rfl, hacc, isSome_of_hasLiveChannel hlive⟩, hlive⟩

theorem mem_pushes_redb_of_mem (h : r.inner.Wf used) {s : SubscriptionEntry}
    (hs : s ∈ r.inner.entries envelope.typeId) :
    s.id ∈ pushes ⟨r, channels⟩ envelope ↔ reachedUntopiced channels envelope s = true := by
  rw [mem_pushes_redb]
  constructor
  · rintro ⟨s', hs', hid, hreached⟩
    obtain ⟨-, rfl⟩ := h.entry_unique hs' hs hid
    exact hreached
  · exact fun hreached => ⟨s, hs, rfl, hreached⟩

/-- The stored count exceeds the pushes by the entries that are not reached. -/
theorem length_pushes_redb (h : r.inner.Wf used) (channels : DashMap Uuid SubscriptionData)
    (envelope : EventEnvelope) :
    (pushes ⟨r, channels⟩ envelope).length
        + ((r.inner.entries envelope.typeId).filter fun s =>
            !reachedUntopiced channels envelope s).length
      = (r.inner.entries envelope.typeId).length := by
  have hcount := length_add_length_filter (h.nodup envelope.typeId)
    (nodup_pushes_redb h channels envelope)
  have honly : (pushes ⟨r, channels⟩ envelope).filter
      (fun id => decide (id ∉ (r.inner.entries envelope.typeId).map (·.id))) = [] := by
    rw [List.filter_eq_nil_iff]
    intro id hid
    obtain ⟨s, hs, rfl, -⟩ := mem_pushes_redb.mp hid
    simpa using ⟨s, hs, rfl⟩
  have hmissed : (r.inner.entries envelope.typeId).filter
        (fun s => decide (s.id ∉ pushes ⟨r, channels⟩ envelope))
      = (r.inner.entries envelope.typeId).filter fun s =>
          !reachedUntopiced channels envelope s := by
    refine List.filter_congr fun s hs => ?_
    rw [Bool.eq_iff_iff]
    simp [mem_pushes_redb_of_mem h hs]
  rw [honly, hmissed] at hcount
  exact hcount

end Redb

/-! ## Over a `DashMapRegistry` -/

section Dash

variable {m : SubscriptionManager DashMapRegistry} {used : List Uuid} {envelope : EventEnvelope}

/-- `dispatch` reaches the entry of the type's list: it is active, its topic pattern (if
    any) matches, its filter accepts, and its channel is live. -/
def reached (m : SubscriptionManager DashMapRegistry) (envelope : EventEnvelope)
    (s : SubscriptionEntry) : Bool :=
  s.active &&
    s.topic.all (fun topic => decide (TopicTrie.TopicMatches topic (targetTopic envelope)))
    && s.accepts envelope && hasLiveChannel m.subscriptions s.id

/-- The entries of other types that `dispatch` reaches through the trie. -/
def foreignReached (m : SubscriptionManager DashMapRegistry) (envelope : EventEnvelope) :
    Set Uuid :=
  {id | ∃ t ≠ envelope.typeId, ∃ s ∈ m.registry.entries t, s.id = id ∧
    s.topic.isSome ∧ reached m envelope s = true}

theorem mem_pushes_of_mem (h : m.registry.Wf used) {s : SubscriptionEntry}
    (hs : s ∈ m.registry.entries envelope.typeId) :
    s.id ∈ m.pushes envelope ↔ reached m envelope s = true := by
  rw [mem_pushes, mem_senders_iff h]
  unfold reached Recipient TopicAdmits
  simp only [Bool.and_eq_true]
  constructor
  · rintro ⟨⟨-, ⟨s', hs', hid, hact, hacc, hadm⟩ | ⟨t, ht, s', hs', hid, -⟩⟩, hlive⟩
    · obtain ⟨-, rfl⟩ := h.entry_unique hs' hs hid
      refine ⟨⟨⟨hact, ?_⟩, hacc⟩, hlive⟩
      rcases hadm with htopic | ⟨topic, htopic, hm⟩
      · simp [htopic]
      · simpa [htopic] using hm
    · exact absurd (h.entry_unique hs' hs hid).1 ht
  · rintro ⟨⟨⟨hact, htopic⟩, hacc⟩, hlive⟩
    refine ⟨⟨isSome_of_hasLiveChannel hlive, .inl ⟨s, hs, rfl, hact, hacc, ?_⟩⟩, hlive⟩
    cases ht : s.topic with
    | none => exact .inl rfl
    | some topic => exact .inr ⟨topic, rfl, by simpa [ht] using htopic⟩

theorem mem_pushes_foreign (h : m.registry.Wf used) {id : Uuid} :
    id ∈ m.pushes envelope ∧ id ∉ (m.registry.entries envelope.typeId).map (·.id)
      ↔ id ∈ foreignReached m envelope := by
  rw [mem_pushes, mem_senders_iff h]
  unfold foreignReached reached Recipient
  simp only [Bool.and_eq_true, Set.mem_ofPred_eq]
  constructor
  · rintro ⟨⟨⟨-, ⟨s, hs, rfl, -⟩ | ⟨t, ht, s, hs, rfl, hact, hacc, topic, htopic, hm⟩⟩, hlive⟩, hno⟩
    · exact absurd (List.mem_map_of_mem hs) hno
    · exact ⟨t, ht, s, hs, rfl, by simp [htopic], ⟨⟨hact, by simpa [htopic] using hm⟩, hacc⟩, hlive⟩
  · rintro ⟨t, ht, s, hs, rfl, htopic, ⟨⟨hact, hm⟩, hacc⟩, hlive⟩
    obtain ⟨topic, htopic⟩ := Option.isSome_iff_exists.mp htopic
    refine ⟨⟨⟨isSome_of_hasLiveChannel hlive,
      .inr ⟨t, ht, s, hs, rfl, hact, hacc, topic, htopic, ?_⟩⟩, hlive⟩, ?_⟩
    · simpa [htopic] using hm
    · intro hmem
      obtain ⟨s', hs', hid⟩ := List.mem_map.mp hmem
      exact ht (h.entry_unique hs hs' hid.symm).1

/-- What the type's list counts too much is what the pushes have beyond it. -/
theorem length_pushes (h : m.registry.Wf used) (envelope : EventEnvelope) :
    (m.pushes envelope).length
        + ((m.registry.entries envelope.typeId).filter fun s => !reached m envelope s).length
      = (m.registry.entries envelope.typeId).length + (foreignReached m envelope).ncard := by
  have hnodup : (m.pushes envelope).Nodup := List.Nodup.filter _ (nodup_senders h)
  have hcount := length_add_length_filter (h.nodup envelope.typeId) hnodup
  have hforeign : foreignReached m envelope = (((m.pushes envelope).filter fun id =>
      decide (id ∉ (m.registry.entries envelope.typeId).map (·.id))).toFinset : Set Uuid) := by
    ext id
    rw [← mem_pushes_foreign h]
    simp
  have hmissed : (m.registry.entries envelope.typeId).filter
        (fun s => decide (s.id ∉ m.pushes envelope))
      = (m.registry.entries envelope.typeId).filter fun s => !reached m envelope s := by
    refine List.filter_congr fun s hs => ?_
    rw [Bool.eq_iff_iff]
    simp [mem_pushes_of_mem h hs]
  rw [hforeign, Set.ncard_coe_finset, List.toFinset_card_of_nodup (hnodup.filter _), ← hmissed]
  exact hcount

end Dash

/-! ## The two counts -/

/-- Whether a count modulo `2 ^ 32` equals a number of pushes that misses `unreached` of
    the `counted` and has `beyond` others. -/
theorem mod_eq_iff {counted unreached beyond pushed : Nat}
    (h : pushed + unreached = counted + beyond) :
    counted % 2 ^ 32 = pushed ↔ unreached = beyond + 2 ^ 32 * (counted / 2 ^ 32) := by
  have := Nat.mod_add_div counted (2 ^ 32)
  omega

/-- **When the refcount is exact.** The refcount stored for an unscheduled event is the
    number of channels `dispatch` pushes it into

    - on a persistent bus, if and only if every entry of the event type's list is
      reached (short of `2 ^ 32` entries, where the cast to `u32` loses the rest);
    - over a bare `DashMapRegistry`, if and only if the entries of the list that are
      not reached and the topic matches that were added make up for the subscriptions
      of other types that are reached.

    In a build with overflow checks, the count of the second case may panic instead. -/
theorem refcount_eq_pushes_iff (ops : List RegistryOp) (hfresh : RegistryOp.FreshIds ops)
    (channels : DashMap Uuid SubscriptionData) (json : SerdeJson) (db : Db) (event : EventEnvelope)
    (now : DateTime) (hunscheduled : event.isScheduled now = false) (overflowChecks : Bool) :
    let redb := RegistryOp.run RedbRegistry.new ops
    let dash := RegistryOp.run DashMapRegistry.new ops
    let listed := dash.entries event.typeId
    let topicMatches := event.metadata.topic.elim 0 (EventRegistry.topicSubscriptionCount dash)
    (∀ n row, subCount overflowChecks redb event = some n →
      prepare json event n now = some row →
      ((db.insertRow row).refcount[event.eventId]? = some (pushes ⟨redb, channels⟩ event).length
        ↔ (listed.filter fun s => !reachedUntopiced channels event s).length
            = 2 ^ 32 * (listed.length / 2 ^ 32))) ∧
    (∀ n row, subCount overflowChecks dash event = some n →
      prepare json event n now = some row →
      ((db.insertRow row).refcount[event.eventId]? = some (pushes ⟨dash, channels⟩ event).length
        ↔ (listed.filter fun s => !reached ⟨dash, channels⟩ event s).length + topicMatches
            = (foreignReached ⟨dash, channels⟩ event).ncard
              + 2 ^ 32 * ((listed.length + topicMatches) / 2 ^ 32))) := by
  intro redb dash listed topicMatches
  have hwf : dash.Wf (ops.filterMap RegistryOp.registeredId) := DashMapRegistry.wf_run ops hfresh
  have hinner : redb.inner = dash := RedbRegistry.inner_run RedbRegistry.new ops
  have hstored : ∀ {n row}, prepare json event n now = some row → row.isScheduled = false := by
    intro n row hrow
    obtain ⟨-, bytes, -, rfl⟩ := prepare_eq_some.mp hrow
    exact hunscheduled
  constructor
  · intro n row hn hrow
    obtain rfl := Option.some.inj ((subCount_redb overflowChecks redb event).symm.trans hn)
    have hcount := length_pushes_redb (r := redb) (hinner ▸ hwf) channels event
    rw [hinner] at hcount
    rw [refcount_insertRow db hrow (hstored hrow), RedbRegistry.subCount, hinner,
      Option.some.injEq,
      mod_eq_iff (show _ = listed.length + 0 from hcount), Nat.zero_add]
  · intro n row hn hrow
    have hcount := length_pushes (m := ⟨dash, channels⟩) hwf event
    have hlisted : EventRegistry.subscriptionCount dash event.typeId = listed.length :=
      DashMapRegistry.subscriptionCount_eq dash event.typeId
    rw [refcount_insertRow db hrow (hstored hrow), subCount_eq hn, hlisted, Option.some.injEq]
    exact mod_eq_iff (by
      rw [← Nat.add_assoc, hcount]
      exact Nat.add_right_comm _ _ _)

/-- An order published without a topic. -/
def plainOrder : EventEnvelope :=
  .fromSerialized 1 "OrderEvent" { eventId := 7, timestamp := 0 } .normal []

/-- The codec that knows it. -/
def plainOrderJson : SerdeJson :=
  .ofList [⟨"OrderEvent", { eventId := 7, timestamp := 0 }, .normal, []⟩]

/-- One subscription to `OrderEvent`. -/
def orderOps : List RegistryOp := [.register 1 "OrderEvent" { id := 10 }]

/-- The same, deactivated. -/
def deactivatedOrderOps : List RegistryOp := orderOps ++ [.deactivate 10]

/-- Its channel. -/
def orderChannels : DashMap Uuid SubscriptionData :=
  (∅ : DashMap Uuid SubscriptionData).insert 10 ⟨[], true⟩

/-- One active subscription: the refcount 1 is the one push. -/
theorem refcount_eq_pushes_order :
    ∃ n row, subCount true (RegistryOp.run RedbRegistry.new orderOps) plainOrder = some n ∧
      prepare plainOrderJson plainOrder n 0 = some row ∧
      (Db.empty.insertRow row).refcount[plainOrder.eventId]?
        = some (pushes ⟨RegistryOp.run RedbRegistry.new orderOps, orderChannels⟩
            plainOrder).length := by
  refine ⟨1, ⟨7, 1, false, 0, [], none⟩, by decide, by decide, ?_⟩
  exact ((refcount_eq_pushes_iff orderOps (by unfold RegistryOp.FreshIds; decide) orderChannels
    plainOrderJson Db.empty plainOrder 0 (by decide) true).1 1 _ (by decide) (by decide)).mpr
    (by decide)

/-- Deactivated, it is still counted, and nobody is there to acknowledge the row. -/
theorem refcount_ne_pushes_deactivated :
    ∃ n row, subCount true (RegistryOp.run RedbRegistry.new deactivatedOrderOps) plainOrder
        = some n ∧
      prepare plainOrderJson plainOrder n 0 = some row ∧ row.isScheduled = false ∧
      (Db.empty.insertRow row).refcount[plainOrder.eventId]?
        ≠ some (pushes ⟨RegistryOp.run RedbRegistry.new deactivatedOrderOps, orderChannels⟩
            plainOrder).length := by
  exact ⟨1, ⟨7, 1, false, 0, [], none⟩, by decide, by decide, by decide, by decide⟩

end SubscriptionManager
end TokioEvents
