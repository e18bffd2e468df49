/-
  TokioEvents.Bus.ProcessedCount

  What the registry says about a subscription is what has happened at it: as long as it is
  registered, `events_processed` is the number of the events that its handler has
  acknowledged, as a `u64`, whatever happens to other subscriptions of its type.
-/

import TokioEvents.Bus.DeadLetters
import TokioEvents.Registry.Statistics

namespace TokioEvents

namespace DashMapRegistry

/-- `increment_processed` counts for the entry with the id, wherever it is. -/
theorem Wf.entries_incrementProcessed {r : DashMapRegistry} {used : List Uuid} (h : Wf r used)
    (id : Uuid) (t : TypeId) :
    (r.incrementProcessed id).entries t = (r.entries t).map fun s =>
      if s.id = id then { s with eventsProcessed := (s.eventsProcessed + 1) % 2 ^ 64 } else s := by
  have hnone : (∀ s ∈ r.entries t, s.id ≠ id) → r.entries t = (r.entries t).map fun s =>
      if s.id = id then { s with eventsProcessed := (s.eventsProcessed + 1) % 2 ^ 64 } else s :=
    fun hne => (map_ite_of_ne hne).symm
  unfold DashMapRegistry.incrementProcessed
  cases htype : r.subscriptionToType[id]? with
  | none =>
    refine hnone fun s hs hid => ?_
    cases htype.symm.trans (hid ▸ h.typed t s hs)
  | some t' =>
    cases hsubs : r.subscriptions[t']? with
    | none =>
      dsimp only
      rw [hsubs]
      refine hnone fun s hs hid => ?_
      obtain rfl : t' = t := Option.some.inj (htype.symm.trans (hid ▸ h.typed t s hs))
      simp [DashMapRegistry.entries, hsubs] at hs
    | some subs =>
      dsimp only
      rw [hsubs]
      dsimp only
      rw [entries_replaceEntry hsubs]
      split
      · exact replaceF_eq_map (h.nodup t)
      · rename_i hne
        refine hnone fun s hs hid => hne ?_
        exact Option.some.inj (htype.symm.trans (hid ▸ h.typed t s hs))

theorem mem_entries_unregister {r : DashMapRegistry} {id : Uuid} {t : TypeId}
    {s : SubscriptionEntry} (hs : s ∈ (r.unregister id).2.entries t) : s ∈ r.entries t := by
  unfold DashMapRegistry.unregister at hs
  split at hs
  · exact hs
  · rw [entries_removeFromList, entries_removeFromTrie] at hs
    split at hs
    · exact (List.mem_filter.mp hs).1
    · exact hs

end DashMapRegistry

namespace MemoryBus

open DashMapRegistry

/-- Every registered subscription has counted its acknowledgements; a `u64` holds the count
    modulo `2 ^ 64`. -/
def CountsAcks (s : MemoryBus) : Prop :=
  ∀ t, ∀ entry ∈ s.registry.entries t,
    entry.eventsProcessed = (s.journal entry.id).acked.length % 2 ^ 64

/-- A new subscription has not processed any event. -/
def Action.unprocessed : Action → Prop
  | .subscriber (.subscribe _ _ entry) => entry.eventsProcessed = 0
  | _ => True

variable {config : EventBusConfig} {s s' : MemoryBus}

/-- Fewer entries, and no acknowledgement. -/
theorem CountsAcks.shrink (hs : s.CountsAcks)
    (hentries : ∀ t, ∀ entry ∈ s'.registry.entries t, entry ∈ s.registry.entries t)
    (hacked : ∀ id, (s'.journal id).acked = (s.journal id).acked) : s'.CountsAcks := by
  intro t entry hentry
  rw [hacked]
  exact hs t entry (hentries t entry hentry)

/-- The acknowledgements stay if none is recorded. -/
theorem acked_of_log {observations : Log} (hlog : s'.log = s.log ++ observations)
    (h : ∀ o ∈ observations, ∀ id event, o ≠ .marked .acked id event) (id : Uuid) :
    (s'.journal id).acked = (s.journal id).acked :=
  events_of_log hlog fun o ho _ hmark i event => List.mem_singleton.mp hmark ▸ h o ho i event

theorem HandlerStep.countsAcks {id : Uuid} {task : HandlerTask} {a : HandlerAction}
    (h : HandlerStep config s id task a s') (hregistered : s.Registered) (hs : s.CountsAcks) :
    s'.CountsAcks := by
  have hquiet : ∀ observations : Log, s'.registry = s.registry →
      s'.log = s.log ++ observations → (∀ o ∈ observations, ∀ i e, o ≠ .marked .acked i e) →
      s'.CountsAcks := by
    intro observations hregistry hlog hobservations
    exact hs.shrink (fun t entry hentry => hregistry ▸ hentry) (acked_of_log hlog hobservations)
  have hsilent : s'.registry = s.registry → s'.log = s.log → s'.CountsAcks :=
    fun hregistry hlog => hquiet [] hregistry (by rw [hlog, List.append_nil]) (by simp)
  cases h with
  | @recv event rest =>
    exact hquiet [.marked .started id event.addr, .marked .attempted id event.addr] rfl
      (List.append_assoc _ _ _) (by simp)
  | @ack event n =>
    obtain ⟨used, hwf, -⟩ := hregistered
    intro t entry hentry
    have hlog : (((s.setPhase id task .selecting).ackEvent id event).journal entry.id).acked
        = (s.journal entry.id).acked ++ if id = entry.id then [event.addr] else [] := by
      simp only [Journal.acked, Journal.events, journal, ackEvent, observe, setPhase, setTask,
        List.filterMap_append, List.filter_append, List.map_append]
      by_cases hid : id = entry.id
      · simp [Observation.entryOf, hid]
      · simp [Observation.entryOf, hid]
    replace hentry : entry ∈ (s.registry.incrementProcessed id).entries t := hentry
    rw [hwf.entries_incrementProcessed] at hentry
    obtain ⟨before, hbefore, rfl⟩ := List.mem_map.mp hentry
    by_cases hid : before.id = id
    · have hcount := hs t before hbefore
      rw [if_pos hid] at hlog ⊢
      rw [hlog, if_pos hid.symm, List.length_append, List.length_singleton]
      rw [hcount, Nat.mod_add_mod]
    · rw [if_neg hid] at hlog ⊢
      rw [hlog, if_neg (Ne.symm hid), List.append_nil]
      exact hs t before hbefore
  | @fail event =>
    exact hquiet [.marked .failed id event.addr] rfl rfl (by simp)
  | @deadLetter event dlq dlq' =>
    exact hquiet [.marked .deadLettered id event.addr, .marked .failed id event.addr] rfl
      (List.append_assoc _ _ _) (by simp)
  | @retry event =>
    exact hquiet [.marked .attempted id event.addr] rfl rfl (by simp)
  | _ => exact hsilent rfl rfl

theorem SubscriberStep.countsAcks {a : SubscriberAction} (h : SubscriberStep config s a s')
    (hsound : ∀ id, (s.journal id).Sound) (hunprocessed : Action.unprocessed (.subscriber a))
    (hs : s.CountsAcks) : s'.CountsAcks := by
  have hacked : ∀ id, (s'.journal id).acked = (s.journal id).acked :=
    acked_of_log (h.log_eq.trans (List.append_nil _).symm) (by simp)
  cases h with
  | @subscribe eventType typeName entry hfresh =>
    intro t other hother
    rw [hacked]
    replace hother : other ∈ (s.registry.register eventType typeName entry).2.entries t := hother
    rw [entries_register] at hother
    split at hother
    · rcases List.mem_append.mp hother with hold | hnew
      · exact hs t other hold
      · -- a subscription that has no task yet has no entry in the log
        obtain rfl := List.mem_singleton.mp hnew
        have hnone : (s.journal other.id).entries = [] :=
          (hsound other.id).fresh (by rw [journal, hfresh]; rfl)
        rw [Journal.acked, Journal.events, hnone]
        exact hunprocessed
    · exact hs t other hother
  | unregister => exact hs.shrink (fun t entry => mem_entries_unregister) hacked
  | unsubscribe =>
    refine hs.shrink (fun t entry hentry => ?_) hacked
    rw [registry_abort] at hentry
    exact mem_entries_unregister hentry
  | autoUnsubscribe =>
    refine hs.shrink (fun t entry hentry => ?_) hacked
    rw [registry_abort] at hentry
    exact mem_entries_unregister hentry
  | _ => exact hs.shrink (fun t entry => id) hacked

theorem ShutdownStep.countsAcks {a : ShutdownAction} (h : ShutdownStep s a s')
    (hs : s.CountsAcks) : s'.CountsAcks := by
  have hacked : ∀ id, (s'.journal id).acked = (s.journal id).acked := fun id =>
    congrArg Journal.acked h.journal_eq
  cases h with
  | abortAll =>
    intro t entry hentry
    simp [shutdownManager, setShutdown, DashMapRegistry.clear, DashMapRegistry.entries] at hentry
  | remove => exact hs.shrink (fun t entry => mem_entries_unregister) hacked
  | _ => exact hs.shrink (fun t entry => id) hacked

theorem CountsAcks.step {a : Action} (hs : s.CountsAcks) (hregistered : s.Registered)
    (hsound : ∀ id, (s.journal id).Sound) (hunprocessed : a.unprocessed)
    (h : MemoryBus.step config s a = some s') : s'.CountsAcks := by
  cases a with
  | publisher b =>
    have hstep := stepPublisher_cases h
    refine hs.shrink (fun t entry hentry => hstep.registry_eq ▸ hentry) fun id => ?_
    rw [hstep.journal_eq]
  | worker b =>
    have hstep := stepWorker_cases h
    obtain ⟨observations, hlog, hobservations⟩ := hstep.log
    refine hs.shrink (fun t entry hentry => hstep.registry_eq ▸ hentry) (acked_of_log hlog ?_)
    intro o ho id event
    rcases hobservations o ho with ⟨_, _, rfl⟩ | ⟨_, rfl⟩ | ⟨_, _, rfl⟩ <;> simp
  | handler id b =>
    obtain ⟨task, -, hstep⟩ := stepHandler_cases h
    exact hstep.countsAcks hregistered hs
  | subscriber b => exact (stepSubscriber_cases h).countsAcks hsound hunprocessed hs
  | shutdown b => exact (stepShutdown_cases h).countsAcks hs

/-- **The counts are true.** In every run, for every subscription that is registered: up to
    `2 ^ 64` acknowledgements exactly, and modulo that from then on. -/
theorem countsAcks_exec {as : List Action} (hunprocessed : ∀ a ∈ as, a.unprocessed)
    (hexec : exec config (build config) as = some s) : s.CountsAcks := by
  have hC : Transition.Along (step config) (fun _ a => a.unprocessed) (build config) as :=
    Transition.along_of_forall (fun a ha _ => hunprocessed a ha) _
  refine (Transition.invariant_along (I := fun s : MemoryBus => s.Registered ∧
    (∀ id, (s.journal id).Sound) ∧ s.CountsAcks) (fun s a s' hs hC h => ?_)
    ⟨registered_build, sound_build, ?_⟩ hC hexec).2.2
  · exact ⟨hs.1.step h, fun id => (hs.2.1 id).step (journal_step h id),
      hs.2.2.step hs.1 hs.2.1 hC h⟩
  · intro t entry hentry
    simp [build] at hentry

theorem countsAcks_failedOrder :
    ∃ s, exec { maxRetries := 1 } (build { maxRetries := 1 }) failedOrder = some s ∧
      s.CountsAcks ∧ (s.registry.entries 1).map (fun entry => (entry.id, entry.eventsProcessed))
        = [(10, 1)] := by
  obtain ⟨s, hs⟩ := Option.isSome_iff_exists.mp
    (by decide +kernel :
      (exec { maxRetries := 1 } (build { maxRetries := 1 }) failedOrder).isSome = true)
  have hcount : (exec { maxRetries := 1 } (build { maxRetries := 1 }) failedOrder).map
      (fun s => (s.registry.entries 1).map (fun entry => (entry.id, entry.eventsProcessed)))
      = some [(10, 1)] := by decide +kernel
  rw [hs] at hcount
  refine ⟨s, hs, countsAcks_exec ?_ hs, Option.some.inj hcount⟩
  simp [failedOrder, publishSteps, dispatchSteps, Action.unprocessed]

end MemoryBus
end TokioEvents
