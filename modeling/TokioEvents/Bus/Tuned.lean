/-
  TokioEvents.Bus.Tuned

  A subscription to a topic pattern, from `subscribe_topic` on: whatever the worker sends
  to its handler was published to a topic that the pattern matches.
-/

import TokioEvents.Bus.Carried
import TokioEvents.Bus.CompleteDispatch

namespace TokioEvents

namespace DashMapRegistry

/-- Every entry was one before, up to its counter. -/
def KeepsEntries (r r' : DashMapRegistry) : Prop :=
  ∀ t, ∀ e' ∈ r'.entries t, ∃ e ∈ r.entries t, e.id = e'.id ∧ e.topic = e'.topic

theorem keepsEntries_refl (r : DashMapRegistry) : KeepsEntries r r :=
  fun _ e' he' => ⟨e', he', rfl, rfl⟩

theorem keepsEntries_clear (r : DashMapRegistry) : KeepsEntries r r.clear := by
  intro t e' he'
  simp [clear, entries] at he'

theorem keepsEntries_unregister (r : DashMapRegistry) (id : Uuid) :
    KeepsEntries r (r.unregister id).2 := by
  unfold unregister
  split
  · exact keepsEntries_refl r
  · intro t e' he'
    rw [entries_removeFromList, entries_removeFromTrie] at he'
    split at he'
    · exact ⟨e', (List.mem_filter.mp he').1, rfl, rfl⟩
    · exact ⟨e', he', rfl, rfl⟩

theorem keepsEntries_incrementProcessed (r : DashMapRegistry) (id : Uuid) :
    KeepsEntries r (r.incrementProcessed id) := by
  unfold incrementProcessed
  split
  · exact keepsEntries_refl r
  · rename_i t ht
    split
    · rename_i subs hsubs
      intro t' e' he'
      rw [entries_replaceEntry hsubs] at he'
      split at he'
      · rcases List.mem_replaceF he' with hold | ⟨e, he, hcounted⟩
        · exact ⟨e', hold, rfl, rfl⟩
        · split at hcounted <;> cases hcounted
          exact ⟨e, he, rfl, rfl⟩
      · exact ⟨e', he', rfl, rfl⟩
    · exact keepsEntries_refl r

end DashMapRegistry

namespace MemoryBus

open DashMapRegistry SubscriptionManager

variable {config : EventBusConfig} {s s' : MemoryBus} {id : Uuid} {pattern : String}

/-- Only `subscribe` makes an entry. -/
theorem keepsEntries_step {a : Action} (h : step config s a = some s')
    (ha : ∀ eventType typeName entry, a ≠ .subscriber (.subscribe eventType typeName entry)) :
    KeepsEntries s.registry s'.registry := by
  cases a with
  | publisher b =>
    rw [(stepPublisher_cases h).registry_eq]
    exact keepsEntries_refl _
  | worker b =>
    rw [(stepWorker_cases h).registry_eq]
    exact keepsEntries_refl _
  | handler i b =>
    obtain ⟨task, -, hstep⟩ := stepHandler_cases h
    cases hstep with
    | ack => exact keepsEntries_incrementProcessed _ i
    | _ => exact keepsEntries_refl _
  | shutdown b =>
    cases stepShutdown_cases h with
    | abortAll => exact keepsEntries_clear _
    | remove => exact keepsEntries_unregister _ _
    | _ => exact keepsEntries_refl _
  | subscriber b =>
    cases stepSubscriber_cases h with
    | @subscribe eventType typeName entry => exact absurd rfl (ha eventType typeName entry)
    | unregister => exact keepsEntries_unregister _ _
    | unsubscribe hid =>
      rw [registry_abort]
      exact keepsEntries_unregister _ _
    | autoUnsubscribe hunsubs hid =>
      rw [registry_abort]
      exact keepsEntries_unregister _ _
    | _ => exact keepsEntries_refl _

/-- A subscription to a pattern: its entry has the pattern, and the events on their way
    to its handler and in its task were published to topics that it matches. -/
structure Tuned (s : MemoryBus) (id : Uuid) (pattern : String) : Prop where
  task : (s.tasks[id]?).isSome
  entry : ∀ t, ∀ e ∈ s.registry.entries t, e.id = id → e.topic = some pattern
  sent : ∀ event sends, s.worker = .dispatching event sends → id ∈ sends →
    TopicTrie.TopicMatches pattern (targetTopic event.envelope)
  held : ∀ task, s.tasks[id]? = some task → ∀ event ∈ task.held,
    TopicTrie.TopicMatches pattern (targetTopic event.envelope)

/-- The subscription is made. -/
theorem tuned_subscribe {eventType : TypeId} {typeName : String} {entry : SubscriptionEntry}
    (hs : s.Orderly) (htopic : entry.topic = some pattern)
    (h : s.subscribe config eventType typeName entry = some s') : s'.Tuned entry.id pattern := by
  have hstep : s.stepSubscriber config (.subscribe eventType typeName entry) = some s' := h
  cases stepSubscriber_cases hstep with
  | subscribe hfresh =>
    have hnew : ∀ id, (s.tasks[id]?).isSome → id ≠ entry.id := by
      rintro id hid rfl
      simp [hfresh] at hid
    constructor
    case task => simp [setTask]
    case entry =>
      intro t e he hid
      obtain ⟨used, hwf, hused⟩ := hs.registered
      have hold : e ∉ s.registry.entries t := fun hmem =>
        hnew e.id (hused _ (hwf.entriesUsed t e hmem)) hid
      rw [entries_register] at he
      split at he
      · rcases List.mem_append.mp he with he | he
        · exact absurd he hold
        · rw [List.mem_singleton.mp he]
          exact htopic
      · exact absurd he hold
    case sent =>
      intro event sends hworker hmem
      obtain ⟨ids, hselected, hids⟩ := hs.dispatching.chosen event sends hworker _ hmem
      exact absurd rfl (hnew _ (hs.dispatching.tasks _ _ hselected _ hids))
    case held =>
      intro task htask event hevent
      simp only [setTask, Std.ExtTreeMap.getElem?_insert_self, Option.some.injEq] at htask
      subst htask
      cases hevent

/-- **What reaches a subscription to a pattern was published to a topic that it matches.** -/
theorem Tuned.step {a : Action} (hs : s.Tuned id pattern) (hregistered : s.Registered)
    (h : step config s a = some s') : s'.Tuned id pattern := by
  constructor
  case task => exact isSome_task_step h hs.task
  case entry =>
    intro t e' he' hid
    by_cases hsubscribe : ∃ eventType typeName entry,
        a = .subscriber (.subscribe eventType typeName entry)
    · obtain ⟨eventType, typeName, entry, rfl⟩ := hsubscribe
      cases stepSubscriber_cases (a := .subscribe eventType typeName entry) h with
      | subscribe hfresh =>
        rw [entries_register] at he'
        split at he'
        · rcases List.mem_append.mp he' with he' | he'
          · exact hs.entry t e' he' hid
          · have htask := hs.task
            rw [← hid, List.mem_singleton.mp he', hfresh] at htask
            cases htask
        · exact hs.entry t e' he' hid
    · obtain ⟨e, he, heq, htopic⟩ := keepsEntries_step h
        (fun _ _ _ ha => hsubscribe ⟨_, _, _, ha⟩) t e' he'
      rw [← htopic]
      exact hs.entry t e he (heq.trans hid)
  case sent =>
    intro event sends hsends hid
    by_cases hworker : ∃ b, a = .worker b
    · obtain ⟨b, rfl⟩ := hworker
      cases stepWorker_cases h with
      | select hreceived =>
        cases hsends
        -- `dispatch` has selected an entry of the registry
        obtain ⟨e, he, rfl, -⟩ := mem_sendersOf.mp hid
        obtain ⟨used, hwf, -⟩ := hregistered
        rcases (mem_selectSubscriptions (m := ⟨s.registry, ∅⟩) hwf).mp he with
          ⟨hmem, -, hnone⟩ | ⟨⟨t, hmem⟩, -, topic, htopic, hmatches⟩
        · cases hnone.symm.trans (hs.entry _ e hmem rfl)
        · cases htopic.symm.trans (hs.entry t e hmem rfl)
          exact hmatches
      | push hdispatching =>
        cases hsends
        exact hs.sent _ _ hdispatching (List.mem_of_mem_erase hid)
      | miss hdispatching =>
        cases hsends
        exact hs.sent _ _ hdispatching (List.mem_of_mem_erase hid)
      | recv => cases hsends
      | drained => cases hsends
      | halt => cases hsends
      | finish => cases hsends
      | timeout => cases hsends
      | panic => cases hsends
    · rw [worker_of_not_worker h fun b hb => hworker ⟨b, hb⟩] at hsends
      exact hs.sent event sends hsends hid
  case held =>
    intro task htask event hevent
    rcases held_step h htask hevent with ⟨task₁, htask₁, hold⟩ | ⟨sends, hsends, hid⟩
    · exact hs.held task₁ htask₁ event hold
    · exact hs.sent event sends hsends hid

end MemoryBus
end TokioEvents
