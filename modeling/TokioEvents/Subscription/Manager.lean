/-
  TokioEvents.Subscription.Manager

  `SubscriptionManager::dispatch` (`src/subscription/mod.rs`) over any registry.

  A handler channel is the list of envelopes buffered in it, oldest first, and a
  flag that is cleared when the handler task has dropped the receiver.  `dispatch`
  is taken to its end: every `send` has found room or failed, no timeout cut it
  short (`pushAll` with a sublist of the senders describes one that was).
-/

import Mathlib.Data.List.Nodup
import TokioEvents.Registry.DashMap

namespace TokioEvents

/-- `SubscriptionData`, seen from the sending side. -/
structure SubscriptionData where
  /-- Envelopes buffered in the handler channel. -/
  channel : List EventEnvelope
  /-- The handler task still holds the receiver. -/
  live : Bool

/-- `SubscriptionManager`. -/
structure SubscriptionManager (R : Type) where
  registry : R
  subscriptions : DashMap Uuid SubscriptionData

namespace SubscriptionManager

variable {R : Type} [EventRegistry R]

/-- The topic an envelope is routed by: the explicit one, or the event type name. -/
def targetTopic (envelope : EventEnvelope) : String :=
  envelope.metadata.topic.getD envelope.eventType

/-- The loop over `topic_subs`: append the entries whose id is not there yet. -/
def mergeTopicSubs (subscriptions topicSubs : List SubscriptionEntry) : List SubscriptionEntry :=
  topicSubs.foldl (fun acc sub => if acc.any (fun s => s.id == sub.id) then acc else acc ++ [sub])
    subscriptions

/-- The subscriptions `dispatch` selects before it looks at filters and channels. -/
def selectSubscriptions (registry : R) (envelope : EventEnvelope) : List SubscriptionEntry :=
  let subscriptions := EventRegistry.getSubscriptions registry envelope.typeId
  -- Those with a topic are added back via `get_topic_subscriptions` if they match.
  let subscriptions := subscriptions.filter fun s => s.topic.isNone
  mergeTopicSubs subscriptions
    (EventRegistry.getTopicSubscriptions registry (targetTopic envelope))

/-- `senders`: the ids whose channel gets a `send`. -/
def senders (m : SubscriptionManager R) (envelope : EventEnvelope) : List Uuid :=
  (selectSubscriptions m.registry envelope).filterMap fun subEntry =>
    if !subEntry.accepts envelope then none
    else m.subscriptions[subEntry.id]?.map fun _ => subEntry.id

/-- `senders` over any registry and any table of subscriptions. -/
def sendersOf (registry : R) (subscribed : Uuid → Bool) (envelope : EventEnvelope) : List Uuid :=
  (selectSubscriptions registry envelope).filterMap fun subEntry =>
    if !subEntry.accepts envelope then none
    else if subscribed subEntry.id then some subEntry.id else none

/-- `sender.send(envelope).await`: an error (receiver dropped) is only logged. -/
def push (envelope : EventEnvelope) (subscriptions : DashMap Uuid SubscriptionData) (id : Uuid) :
    DashMap Uuid SubscriptionData :=
  match subscriptions[id]? with
  | some data =>
    if data.live then subscriptions.insert id { data with channel := data.channel ++ [envelope] }
    else subscriptions
  | none => subscriptions

/-- All the sends. -/
def pushAll (envelope : EventEnvelope) (subscriptions : DashMap Uuid SubscriptionData)
    (ids : List Uuid) : DashMap Uuid SubscriptionData :=
  ids.foldl (push envelope) subscriptions

/-- `dispatch`. -/
def dispatch (m : SubscriptionManager R) (envelope : EventEnvelope) : SubscriptionManager R :=
  { m with subscriptions := pushAll envelope m.subscriptions (m.senders envelope) }

/-! ## The merge -/

theorem mergeTopicSubs_concat (a b : List SubscriptionEntry) (sub : SubscriptionEntry) :
    mergeTopicSubs a (b ++ [sub])
      = if sub.id ∈ (mergeTopicSubs a b).map (·.id) then mergeTopicSubs a b
        else mergeTopicSubs a b ++ [sub] := by
  simp [mergeTopicSubs, List.foldl_append, List.any_eq_true]

theorem mem_mergeTopicSubs {a b : List SubscriptionEntry} {s : SubscriptionEntry}
    (h : s ∈ mergeTopicSubs a b) : s ∈ a ∨ s ∈ b := by
  induction b using List.reverseRecOn with
  | nil => exact .inl h
  | append_singleton b sub ih =>
    rw [mergeTopicSubs_concat] at h
    split at h
    · exact (ih h).imp_right fun hb => List.mem_append_left _ hb
    · rcases List.mem_append.mp h with h | h
      · exact (ih h).imp_right fun hb => List.mem_append_left _ hb
      · exact .inr (List.mem_append_right _ h)

theorem mem_map_id_mergeTopicSubs {a b : List SubscriptionEntry} {i : Uuid} :
    i ∈ (mergeTopicSubs a b).map (·.id) ↔ i ∈ a.map (·.id) ∨ i ∈ b.map (·.id) := by
  induction b using List.reverseRecOn with
  | nil => simp [mergeTopicSubs]
  | append_singleton b sub ih =>
    rw [mergeTopicSubs_concat]
    split
    · rename_i hsub
      have hi : i = sub.id → i ∈ a.map (·.id) ∨ i ∈ b.map (·.id) := fun h => ih.mp (h ▸ hsub)
      simp only [ih, List.map_append, List.map_cons, List.map_nil, List.mem_append,
        List.mem_singleton]
      tauto
    · simp only [ih, List.map_append, List.map_cons, List.map_nil, List.mem_append,
        List.mem_singleton]
      tauto

theorem subset_mergeTopicSubs (a b : List SubscriptionEntry) : a ⊆ mergeTopicSubs a b := by
  induction b using List.reverseRecOn with
  | nil => exact fun _ h => h
  | append_singleton b sub ih =>
    rw [mergeTopicSubs_concat]
    split
    · exact ih
    · exact fun s hs => List.mem_append_left _ (ih hs)

theorem nodup_mergeTopicSubs {a : List SubscriptionEntry} (b : List SubscriptionEntry)
    (h : (a.map (·.id)).Nodup) : ((mergeTopicSubs a b).map (·.id)).Nodup := by
  induction b using List.reverseRecOn with
  | nil => exact h
  | append_singleton b sub ih =>
    rw [mergeTopicSubs_concat]
    split
    · exact ih
    · rename_i hsub
      rw [List.map_append, List.nodup_append]
      refine ⟨ih, by simp, ?_⟩
      rintro i hi j hj rfl
      obtain rfl : i = sub.id := by simpa using hj
      exact hsub hi

/-! ## The senders -/

theorem senders_eq_sendersOf (m : SubscriptionManager R) (envelope : EventEnvelope) :
    m.senders envelope
      = sendersOf m.registry (fun id => (m.subscriptions[id]?).isSome) envelope := by
  have hmap : ∀ (o : Option SubscriptionData) (id : Uuid),
      o.map (fun _ => id) = if o.isSome then some id else none := by
    intro o id
    cases o <;> rfl
  simp only [senders, sendersOf, hmap]

theorem mem_sendersOf {registry : R} {subscribed : Uuid → Bool} {envelope : EventEnvelope}
    {i : Uuid} :
    i ∈ sendersOf registry subscribed envelope
      ↔ ∃ s ∈ selectSubscriptions registry envelope,
          s.id = i ∧ s.accepts envelope = true ∧ subscribed i = true := by
  simp only [sendersOf, List.mem_filterMap]
  constructor
  · rintro ⟨s, hs, h⟩
    split at h
    · cases h
    · rename_i hacc
      split at h
      · rename_i hsub
        cases h
        exact ⟨s, hs, rfl, by simpa using hacc, hsub⟩
      · cases h
  · rintro ⟨s, hs, rfl, hacc, hsub⟩
    exact ⟨s, hs, by simp [hacc, hsub]⟩

theorem sendersOf_sublist (registry : R) (subscribed : Uuid → Bool) (envelope : EventEnvelope) :
    (sendersOf registry subscribed envelope).Sublist
      ((selectSubscriptions registry envelope).map (·.id)) := by
  unfold sendersOf
  induction selectSubscriptions registry envelope with
  | nil => exact List.Sublist.refl _
  | cons s l ih =>
    by_cases hsend : s.accepts envelope = true ∧ subscribed s.id = true
    · rw [List.filterMap_cons_some (b := s.id) (by simp [hsend])]
      exact ih.cons_cons _
    · rw [List.filterMap_cons_none]
      · exact ih.cons _
      · cases hacc : s.accepts envelope with
        | false => simp
        | true => simpa [hacc] using hsend

theorem mem_senders {m : SubscriptionManager R} {envelope : EventEnvelope} {i : Uuid} :
    i ∈ m.senders envelope
      ↔ ∃ s ∈ selectSubscriptions m.registry envelope,
          s.id = i ∧ s.accepts envelope = true ∧ (m.subscriptions[i]?).isSome := by
  rw [senders_eq_sendersOf, mem_sendersOf]

theorem senders_sublist (m : SubscriptionManager R) (envelope : EventEnvelope) :
    (m.senders envelope).Sublist ((selectSubscriptions m.registry envelope).map (·.id)) := by
  rw [senders_eq_sendersOf]
  exact sendersOf_sublist _ _ _

/-! ## The pushes -/

theorem getElem?_push (envelope : EventEnvelope) (subscriptions : DashMap Uuid SubscriptionData)
    (id i : Uuid) :
    (push envelope subscriptions id)[i]?
      = (subscriptions[i]?).map fun d =>
          if id = i ∧ d.live then { d with channel := d.channel ++ [envelope] } else d := by
  unfold push
  cases hid : subscriptions[id]? with
  | none =>
    by_cases h : id = i
    · subst h; simp [hid]
    · simp [h]
  | some d =>
    by_cases h : id = i
    · subst h
      cases hlive : d.live <;> simp [hlive, hid]
    · dsimp only
      split
      · simp [Std.ExtTreeMap.getElem?_insert, h]
      · simp [h]

/-- A live channel receives one copy for each time its id is among the senders, at
    its end; a dead one and every other channel stay as they were. -/
theorem getElem?_pushAll (envelope : EventEnvelope)
    (subscriptions : DashMap Uuid SubscriptionData) (ids : List Uuid) (i : Uuid) :
    (pushAll envelope subscriptions ids)[i]?
      = (subscriptions[i]?).map fun d =>
          if d.live then { d with channel := d.channel ++ List.replicate (ids.count i) envelope }
          else d := by
  induction ids generalizing subscriptions with
  | nil =>
    cases h : subscriptions[i]? with
    | none => simp [pushAll, h]
    | some d =>
      obtain ⟨channel, live⟩ := d
      cases live <;> simp [pushAll, h]
  | cons id ids ih =>
    have hstep : pushAll envelope subscriptions (id :: ids)
        = pushAll envelope (push envelope subscriptions id) ids := rfl
    rw [hstep, ih, getElem?_push, Option.map_map]
    congr 1
    funext d
    by_cases h : id = i
    · subst h
      cases hlive : d.live <;> simp [hlive, List.replicate_succ]
    · cases hlive : d.live <;> simp [hlive, h]

end SubscriptionManager
end TokioEvents
