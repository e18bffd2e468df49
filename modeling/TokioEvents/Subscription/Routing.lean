/-
  TokioEvents.Subscription.Routing

  Who receives an event.  `Recipient` says what `subscribe` and `subscribe_topic`
  promise: an active subscription of the event's own type whose filter accepts it
  and whose topic pattern, if any, matches the event's target topic.

  `dispatch` adds the matches of the topic trie without looking at their event
  type, so a subscription of another type with a matching pattern receives the
  event too (`ForeignRecipient`).  That is the only way it departs from
  `Recipient`: with no such subscription it delivers exactly as promised.
-/

import TokioEvents.Registry.Invariant
import TokioEvents.Subscription.Manager

namespace TokioEvents
namespace SubscriptionManager

open DashMapRegistry TopicTrie

/-- The subscription is untopiced, or its pattern matches the target topic. -/
def TopicAdmits (s : SubscriptionEntry) (envelope : EventEnvelope) : Prop :=
  s.topic = none ∨ ∃ topic, s.topic = some topic ∧ TopicMatches topic (targetTopic envelope)

/-- `id` is an active subscription of the event's type that wants the event. -/
def Recipient (r : DashMapRegistry) (envelope : EventEnvelope) (id : Uuid) : Prop :=
  ∃ s ∈ r.entries envelope.typeId,
    s.id = id ∧ s.active = true ∧ s.accepts envelope = true ∧ TopicAdmits s envelope

/-- `dispatch` appends the envelope once to the channel of every live recipient and
    touches no other channel. -/
structure DeliversExactly (m : SubscriptionManager DashMapRegistry) (envelope : EventEnvelope) :
    Prop where
  recipients : ∀ id data, m.subscriptions[id]? = some data → data.live = true →
    Recipient m.registry envelope id →
    (m.dispatch envelope).subscriptions[id]?
      = some { data with channel := data.channel ++ [envelope] }
  others : ∀ id, ¬ (Recipient m.registry envelope id ∧
      ∃ data, m.subscriptions[id]? = some data ∧ data.live = true) →
    (m.dispatch envelope).subscriptions[id]? = m.subscriptions[id]?

/-- A live active subscription of another event type whose topic pattern matches the
    target topic and whose filter accepts the envelope. -/
def ForeignRecipient (m : SubscriptionManager DashMapRegistry) (envelope : EventEnvelope) : Prop :=
  ∃ t ≠ envelope.typeId, ∃ s ∈ m.registry.entries t,
    s.active = true ∧ s.accepts envelope = true ∧
    (∃ topic, s.topic = some topic ∧ TopicMatches topic (targetTopic envelope)) ∧
    ∃ data, m.subscriptions[s.id]? = some data ∧ data.live = true

section Wf

variable {m : SubscriptionManager DashMapRegistry} {used : List Uuid} {envelope : EventEnvelope}

/-- The selected entries: the active untopiced ones of the event's type, and the
    active ones of any type whose pattern matches. -/
theorem mem_selectSubscriptions (h : Wf m.registry used) {s : SubscriptionEntry} :
    s ∈ selectSubscriptions m.registry envelope
      ↔ (s ∈ m.registry.entries envelope.typeId ∧ s.active = true ∧ s.topic = none) ∨
        (∃ t, s ∈ m.registry.entries t) ∧ s.active = true ∧
          ∃ topic, s.topic = some topic ∧ TopicMatches topic (targetTopic envelope) := by
  have hdirect : ∀ s', s' ∈ (EventRegistry.getSubscriptions m.registry envelope.typeId).filter
        (fun s => s.topic.isNone)
      ↔ s' ∈ m.registry.entries envelope.typeId ∧ s'.active = true ∧ s'.topic = none := by
    intro s'
    show s' ∈ (m.registry.getSubscriptions envelope.typeId).filter _ ↔ _
    simp [getSubscriptions_eq, and_comm]
  have htopic : ∀ s', s' ∈ EventRegistry.getTopicSubscriptions m.registry (targetTopic envelope)
      ↔ (∃ t, s' ∈ m.registry.entries t) ∧ s'.active = true ∧
          ∃ topic, s'.topic = some topic ∧ TopicMatches topic (targetTopic envelope) := by
    intro s'
    show s' ∈ m.registry.getTopicSubscriptions _ ↔ _
    rw [mem_getTopicSubscriptions]
    constructor
    · rintro ⟨⟨t, hs⟩, hact, hid⟩
      exact ⟨⟨t, hs⟩, hact, (h.mem_matchTopic hs).mp hid⟩
    · rintro ⟨⟨t, hs⟩, hact, hm⟩
      exact ⟨⟨t, hs⟩, hact, (h.mem_matchTopic hs).mpr hm⟩
  unfold selectSubscriptions
  constructor
  · intro hs
    exact (mem_mergeTopicSubs hs).imp (hdirect s).mp (htopic s).mp
  · rintro (hs | hs)
    · exact subset_mergeTopicSubs _ _ ((hdirect s).mpr hs)
    · -- an entry with this id is selected; ids are unique, so it is this one
      have hid := mem_map_id_mergeTopicSubs.mpr
        (.inr (List.mem_map_of_mem ((htopic s).mpr hs)) :
          s.id ∈ ((EventRegistry.getSubscriptions m.registry envelope.typeId).filter
            (fun s => s.topic.isNone)).map (·.id) ∨ _)
      obtain ⟨s', hs', heq⟩ := List.mem_map.mp hid
      obtain ⟨⟨t, hst⟩, -⟩ := hs
      have hst' : ∃ t', s' ∈ m.registry.entries t' := by
        rcases mem_mergeTopicSubs hs' with hd | hd
        · exact ⟨_, ((hdirect s').mp hd).1⟩
        · exact ((htopic s').mp hd).1
      obtain ⟨t', hst'⟩ := hst'
      obtain ⟨-, rfl⟩ := h.entry_unique hst' hst heq
      exact hs'

theorem nodup_sendersOf {registry : DashMapRegistry} (h : Wf registry used)
    (subscribed : Uuid → Bool) : (sendersOf registry subscribed envelope).Nodup := by
  refine (sendersOf_sublist registry subscribed envelope).nodup (nodup_mergeTopicSubs _ ?_)
  show (List.map _ ((registry.getSubscriptions envelope.typeId).filter _)).Nodup
  rw [getSubscriptions_eq]
  exact ((List.filter_sublist.trans List.filter_sublist).map _).nodup (h.nodup _)

theorem nodup_senders (h : Wf m.registry used) : (m.senders envelope).Nodup := by
  rw [senders_eq_sendersOf]
  exact nodup_sendersOf h _

/-- The senders are the recipients and the foreign recipients that have a channel. -/
theorem mem_senders_iff (h : Wf m.registry used) {id : Uuid} :
    id ∈ m.senders envelope
      ↔ (m.subscriptions[id]?).isSome ∧
        (Recipient m.registry envelope id ∨
          ∃ t ≠ envelope.typeId, ∃ s ∈ m.registry.entries t, s.id = id ∧ s.active = true ∧
            s.accepts envelope = true ∧
            ∃ topic, s.topic = some topic ∧ TopicMatches topic (targetTopic envelope)) := by
  rw [mem_senders]
  constructor
  · rintro ⟨s, hs, rfl, hacc, hsome⟩
    refine ⟨hsome, ?_⟩
    rcases (mem_selectSubscriptions h).mp hs with ⟨hmem, hact, htopic⟩ | ⟨⟨t, hmem⟩, hact, htopic⟩
    · exact .inl ⟨s, hmem, rfl, hact, hacc, .inl htopic⟩
    · by_cases ht : t = envelope.typeId
      · subst ht
        exact .inl ⟨s, hmem, rfl, hact, hacc, .inr htopic⟩
      · exact .inr ⟨t, ht, s, hmem, rfl, hact, hacc, htopic⟩
  · rintro ⟨hsome, ⟨s, hmem, rfl, hact, hacc, hadm⟩ | ⟨t, -, s, hmem, rfl, hact, hacc, htopic⟩⟩
    · refine ⟨s, (mem_selectSubscriptions h).mpr ?_, rfl, hacc, hsome⟩
      rcases hadm with hnone | htopic
      · exact .inl ⟨hmem, hact, hnone⟩
      · exact .inr ⟨⟨_, hmem⟩, hact, htopic⟩
    · exact ⟨s, (mem_selectSubscriptions h).mpr (.inr ⟨⟨t, hmem⟩, hact, htopic⟩), rfl, hacc, hsome⟩

/-- What `dispatch` does to one channel. -/
theorem getElem?_dispatch (h : Wf m.registry used) (id : Uuid) :
    (m.dispatch envelope).subscriptions[id]?
      = (m.subscriptions[id]?).map fun d =>
          if d.live ∧ id ∈ m.senders envelope then { d with channel := d.channel ++ [envelope] }
          else d := by
  unfold dispatch
  dsimp only
  rw [getElem?_pushAll]
  congr 1
  funext d
  by_cases hmem : id ∈ m.senders envelope
  · simp [hmem, List.count_eq_one_of_mem (nodup_senders h) hmem]
  · obtain ⟨channel, live⟩ := d
    simp [hmem, List.count_eq_zero_of_not_mem hmem]

/-- A recipient and a subscription of another type never share an id. -/
theorem not_recipient_of_foreign (h : Wf m.registry used) {t : TypeId} (ht : t ≠ envelope.typeId)
    {s : SubscriptionEntry} (hs : s ∈ m.registry.entries t) :
    ¬ Recipient m.registry envelope s.id := by
  rintro ⟨s', hs', hid, -⟩
  exact ht (h.entry_unique hs' hs hid).1.symm

end Wf

/-- **Routing.** After any sequence of registry calls with fresh ids, `dispatch`
    delivers to exactly the recipients if and only if no live active subscription
    of another event type has a matching topic pattern and an accepting filter. -/
theorem dispatch_deliversExactly_iff (ops : List RegistryOp) (hfresh : RegistryOp.FreshIds ops)
    (subscriptions : DashMap Uuid SubscriptionData) (envelope : EventEnvelope) :
    DeliversExactly ⟨RegistryOp.run DashMapRegistry.new ops, subscriptions⟩ envelope
      ↔ ¬ ForeignRecipient ⟨RegistryOp.run DashMapRegistry.new ops, subscriptions⟩ envelope := by
  set m : SubscriptionManager DashMapRegistry :=
    ⟨RegistryOp.run DashMapRegistry.new ops, subscriptions⟩ with hm
  have hwf : Wf m.registry (ops.filterMap RegistryOp.registeredId) := wf_run ops hfresh
  constructor
  · rintro hexact ⟨t, ht, s, hs, hact, hacc, htopic, d, hd, hlive⟩
    -- the foreign channel grows although it should not
    have hsame := hexact.others s.id fun hr => not_recipient_of_foreign hwf ht hs hr.1
    have hsend : s.id ∈ m.senders envelope :=
      (mem_senders_iff hwf).mpr ⟨by simp [hd], .inr ⟨t, ht, s, hs, rfl, hact, hacc, htopic⟩⟩
    rw [getElem?_dispatch hwf, hd] at hsame
    simp only [Option.map_some, hlive, hsend, and_self, ↓reduceIte, Option.some.injEq] at hsame
    have hlen := congrArg (fun d => d.channel.length) hsame
    simp at hlen
  · intro hforeign
    constructor
    · intro id d hd hlive hrec
      have hsend : id ∈ m.senders envelope := (mem_senders_iff hwf).mpr ⟨by simp [hd], .inl hrec⟩
      rw [getElem?_dispatch hwf, hd]
      simp [hlive, hsend]
    · intro id hno
      rw [getElem?_dispatch hwf]
      cases hd : m.subscriptions[id]? with
      | none => rfl
      | some d =>
        have hstay : ¬ (d.live = true ∧ id ∈ m.senders envelope) := by
          rintro ⟨hlive, hsend⟩
          rcases ((mem_senders_iff hwf).mp hsend).2 with
            hrec | ⟨t, ht, s, hs, rfl, hact, hacc, htop⟩
          · exact hno ⟨hrec, d, hd, hlive⟩
          · exact hforeign ⟨t, ht, s, hs, hact, hacc, htop, d, hd, hlive⟩
        rw [Option.map_some, if_neg hstay]

/-- An `OrderEvent` (type 1) published to `orders.us`. -/
def orderEnvelope : EventEnvelope :=
  .fromSerialized 1 "OrderEvent" { eventId := 7, timestamp := 0, topic := some "orders.us" }
    .normal []

/-- One untopiced subscription to `OrderEvent` and one subscription to `AuditEvent`
    (type 2) on `orders.>`. -/
def orderAndAuditOps : List RegistryOp :=
  [.register 1 "OrderEvent" { id := 10 },
    .register 2 "AuditEvent" { id := 20, topic := some "orders.>" }]

/-- The two handler channels, both empty. -/
def orderAndAuditChannels : DashMap Uuid SubscriptionData :=
  (∅ : DashMap Uuid SubscriptionData).insert 10 ⟨[], true⟩ |>.insert 20 ⟨[], true⟩

/-- With both subscriptions on `OrderEvent`, both receive it. -/
theorem dispatch_deliversExactly_orders :
    DeliversExactly
      ⟨RegistryOp.run DashMapRegistry.new
        [.register 1 "OrderEvent" { id := 10 },
         .register 1 "OrderEvent" { id := 20, topic := some "orders.>" }], orderAndAuditChannels⟩
      orderEnvelope := by
  refine (dispatch_deliversExactly_iff _ (by unfold RegistryOp.FreshIds; decide) _ _).mpr ?_
  rintro ⟨t, ht, s, hs, -⟩
  have hne : (1 : TypeId) ≠ t := fun h => ht h.symm
  simp [entries_register, hne] at hs

/-- The audit subscription receives the order event. -/
theorem dispatch_not_deliversExactly :
    ¬ DeliversExactly ⟨RegistryOp.run DashMapRegistry.new orderAndAuditOps, orderAndAuditChannels⟩
      orderEnvelope := by
  intro h
  have hwf := wf_run orderAndAuditOps (by unfold RegistryOp.FreshIds; decide)
  have haudit : ({ id := 20, topic := some "orders.>" } : SubscriptionEntry)
      ∈ (RegistryOp.run DashMapRegistry.new orderAndAuditOps).entries 2 := by
    simp [orderAndAuditOps, entries_register]
  have hsame := h.others 20 fun hr =>
    not_recipient_of_foreign (m := ⟨_, orderAndAuditChannels⟩) hwf (t := 2) (by decide) haudit hr.1
  have hlen := congrArg (Option.map fun d => d.channel.length) hsame
  revert hlen
  decide

end SubscriptionManager
end TokioEvents
