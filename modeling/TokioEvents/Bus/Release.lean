/-
  TokioEvents.Bus.Release

  How a subscription of an in-memory bus is let go of.  A task that has ended without a panic
  has asked to be removed, and one that is to be aborted is removed already; and what is not
  in the map is not in the registry.  So a subscription that is signalled goes as soon as its
  task is back at its select.

  And how a publish call is awaited: a call of `publish_with_metadata` whose future is not
  dropped returns, and it does not return an error of `try_publish`.
-/

import TokioEvents.Bus.PublishCalls
import TokioEvents.Bus.Settling
import TokioEvents.Subscription.Agreement

namespace TokioEvents
namespace MemoryBus

open DashMapRegistry

variable {config : EventBusConfig} {s s' : MemoryBus} {id : Uuid}

/-! ## The map and the registry -/

/-- The registry has nothing that is not in the map. -/
def Listed (s : MemoryBus) : Prop :=
  ∀ id, id ∉ s.subscriptions → s.registry.subscriptionToType[id]? = none

theorem listed_build : (build config).Listed := by
  intro id _
  simp [build, DashMapRegistry.new]

/-- What is unregistered leaves the map with it, or was not there. -/
theorem Listed.unregister (hs : s.Listed) (i : Uuid)
    (hregistry : s'.registry = (s.registry.unregister i).2)
    (hsubscriptions : ∀ id ∈ s.subscriptions, i ≠ id → id ∈ s'.subscriptions) : s'.Listed := by
  intro id hid
  rw [hregistry, subscriptionToType_unregister]
  split
  · rfl
  · rename_i hne
    exact hs id fun hmem => hid (hsubscriptions id hmem hne)

theorem mem_removeSubscription {i : Uuid} (hid : id ∈ s.subscriptions) (hne : i ≠ id) :
    id ∈ s.subscriptions.filter (· != i) :=
  List.mem_filter.mpr ⟨hid, by simpa using hne.symm⟩

theorem Listed.step {a : Action} (hs : s.Listed) (h : step config s a = some s') :
    s'.Listed := by
  cases a with
  | publisher b =>
    obtain ⟨_, _, _, _, rfl⟩ := (stepPublisher_cases h).frame
    exact hs
  | worker b =>
    obtain ⟨_, _, _, _, rfl⟩ := (stepWorker_cases h).frame
    exact hs
  | handler i b =>
    obtain ⟨task, -, hstep⟩ := stepHandler_cases h
    cases hstep with
    | ack =>
      intro id hid
      show (s.registry.incrementProcessed i).subscriptionToType[id]? = none
      rw [subscriptionToType_incrementProcessed]
      exact hs id hid
    | _ => exact hs
  | subscriber b =>
    cases stepSubscriber_cases h with
    | @subscribe eventType typeName entry hfresh =>
      intro id hid
      show (s.registry.register eventType typeName entry).2.subscriptionToType[id]? = none
      have hnot : id ∉ s.subscriptions ++ [entry.id] := hid
      rw [subscriptionToType_register, if_neg fun heq => hnot (by simp [heq])]
      exact hs id fun hmem => hnot (List.mem_append_left _ hmem)
    | @unregister i => exact hs.unregister i rfl fun id hid _ => hid
    | @unsubscribe i =>
      refine hs.unregister i (registry_abort _ _) fun id hid hne => ?_
      rw [subscriptions_abort]
      exact mem_removeSubscription hid hne
    | @autoUnsubscribe i =>
      refine hs.unregister i (registry_abort _ _) fun id hid hne => ?_
      rw [subscriptions_abort]
      exact mem_removeSubscription hid hne
    | _ => exact hs
  | shutdown b =>
    cases stepShutdown_cases h with
    | abortAll =>
      intro id _
      simp [shutdownManager, setShutdown, DashMapRegistry.clear]
    | @remove n call i => exact hs.unregister i rfl fun id hid hne => mem_removeSubscription hid hne
    | _ => exact hs

/-! ## The end of a task -/

/-- A task that has ended has asked to be removed, and one that is aborted is removed. -/
structure LetsGo (s : MemoryBus) (id : Uuid) : Prop where
  ended : ∀ task, s.tasks[id]? = some task → task.phase = .ended →
    id ∈ s.subscriptions → id ∈ s.unsubs
  aborted : ∀ task, s.tasks[id]? = some task → task.aborted = true → id ∉ s.subscriptions

theorem letsGo_of_gone (h : id ∉ s.subscriptions) : s.LetsGo id :=
  ⟨fun _ _ _ hid => absurd hid h, fun _ _ _ => h⟩

/-- A new task. -/
theorem letsGo_of_new {channel : Mpsc.Channel ArcEnvelope}
    (htask : s.tasks[id]? = some ⟨channel, .selecting, false, false⟩) : s.LetsGo id := by
  refine ⟨fun task htask' hended => ?_, fun task htask' haborted => ?_⟩
  · cases htask.symm.trans htask'
    cases hended
  · cases htask.symm.trans htask'
    cases haborted

/-- A handler task changes no flags. -/
theorem HandlerStep.flags {task : HandlerTask} {a : HandlerAction}
    (h : HandlerStep config s id task a s') :
    ∃ task', s'.tasks = s.tasks.insert id task' ∧ task'.signalled = task.signalled ∧
      task'.aborted = task.aborted := by
  cases h <;> exact ⟨_, rfl, rfl, rfl⟩

/-- What a step leaves of a task. -/
structure Goes (s' : MemoryBus) (a : Action) (id : Uuid) (task task' : HandlerTask) : Prop where
  /-- A signal is not taken back. -/
  signalled : task.signalled = true → task'.signalled = true
  /-- The subscription is removed before the task is aborted. -/
  aborted : task'.aborted = true → task.aborted = true ∨ id ∉ s'.subscriptions
  /-- Only the task itself goes on. -/
  phase : (∀ b, a ≠ .handler id b) → task'.phase = task.phase

theorem goes_refl (s' : MemoryBus) (a : Action) (id : Uuid) (task : HandlerTask) :
    s'.Goes a id task task := ⟨fun h => h, .inl, fun _ => rfl⟩

/-- The task of another id, or of this one. -/
theorem goes_insert {i : Uuid} {task task' : HandlerTask} {a : Action}
    (htasks : s'.tasks = s.tasks.insert i task') (htask : s.tasks[id]? = some task)
    (hgoes : i = id → s'.Goes a id task task') :
    ∃ t, s'.tasks[id]? = some t ∧ s'.Goes a id task t := by
  rw [htasks]
  by_cases hi : i = id
  · exact ⟨task', by rw [hi, Std.ExtTreeMap.getElem?_insert_self], hgoes hi⟩
  · refine ⟨task, ?_, goes_refl s' a id task⟩
    rw [Std.ExtTreeMap.getElem?_insert, if_neg (by simpa using hi)]
    exact htask

theorem goes_abort {i : Uuid} {task : HandlerTask} {a : Action}
    (htask : s.tasks[id]? = some task) (hgone : i ∉ s.subscriptions) :
    ∃ t, (s.abort i).tasks[id]? = some t ∧ (s.abort i).Goes a id task t := by
  unfold abort
  cases hi : s.tasks[i]? with
  | none => exact ⟨task, htask, goes_refl _ a id task⟩
  | some other =>
    refine goes_insert rfl htask fun heq => ?_
    subst heq
    cases hi.symm.trans htask
    exact ⟨fun h => h, fun _ => .inr hgone, fun _ => rfl⟩

/-- **What a step does to a task.** -/
theorem goes_step {a : Action} (h : step config s a = some s') {task : HandlerTask}
    (htask : s.tasks[id]? = some task) :
    ∃ task', s'.tasks[id]? = some task' ∧ s'.Goes a id task task' := by
  cases a with
  | publisher b =>
    obtain ⟨_, _, _, _, rfl⟩ := (stepPublisher_cases h).frame
    exact ⟨task, htask, goes_refl _ _ id task⟩
  | worker b =>
    cases stepWorker_cases h with
    | @push event sends i task' hworker hid htask' =>
      refine goes_insert rfl htask fun heq => ?_
      subst heq
      cases htask'.symm.trans htask
      exact ⟨fun h => h, .inl, fun _ => rfl⟩
    | _ => exact ⟨task, htask, goes_refl _ _ id task⟩
  | handler i b =>
    obtain ⟨task', htask', hstep⟩ := stepHandler_cases h
    obtain ⟨next, htasks, hsignalled, haborted⟩ := hstep.flags
    refine goes_insert htasks htask fun heq => ?_
    subst heq
    cases htask'.symm.trans htask
    exact ⟨fun h => hsignalled ▸ h, fun h => .inl (haborted ▸ h), fun hb => absurd rfl (hb b)⟩
  | subscriber b =>
    cases stepSubscriber_cases h with
    | subscribe hfresh =>
      refine goes_insert rfl htask fun heq => ?_
      subst heq
      cases hfresh.symm.trans htask
    | @signal i task' htask' =>
      refine goes_insert rfl htask fun heq => ?_
      subst heq
      cases htask'.symm.trans htask
      exact ⟨fun _ => rfl, .inl, fun _ => rfl⟩
    | unsubscribe => exact goes_abort htask (by simp [removeSubscription])
    | autoUnsubscribe => exact goes_abort htask (by simp [removeSubscription])
    | _ => exact ⟨task, htask, goes_refl _ _ id task⟩
  | shutdown b =>
    cases stepShutdown_cases h with
    | abortAll =>
      refine ⟨if id ∈ s.subscriptions then { task with aborted := true } else task, ?_, ?_⟩
      · simp [shutdownManager, setShutdown, htask]
      · refine ⟨fun hsignalled => ?_, fun _ => .inr (by simp [shutdownManager, setShutdown]),
          fun _ => ?_⟩
        · split <;> exact hsignalled
        · split <;> rfl
    | _ => exact ⟨task, htask, goes_refl _ _ id task⟩

/-- A request to be removed stays until the worker removes the subscription. -/
theorem asked_step {a : Action} (h : step config s a = some s') (hid : id ∈ s.unsubs) :
    id ∈ s'.unsubs ∨ id ∉ s'.subscriptions := by
  cases a with
  | publisher b =>
    obtain ⟨_, _, _, _, rfl⟩ := (stepPublisher_cases h).frame
    exact .inl hid
  | worker b =>
    obtain ⟨_, _, _, _, rfl⟩ := (stepWorker_cases h).frame
    exact .inl hid
  | handler i b =>
    obtain ⟨task, -, hstep⟩ := stepHandler_cases h
    cases hstep with
    | closed => exact .inl (List.mem_append_left _ hid)
    | interrupt => exact .inl (List.mem_append_left _ hid)
    | _ => exact .inl hid
  | subscriber b =>
    cases stepSubscriber_cases h with
    | unsubscribe => exact .inl (by rwa [unsubs_abort])
    | @ignore i rest hunsubs hi =>
      rw [hunsubs] at hid
      rcases List.mem_cons.mp hid with rfl | hrest
      · exact .inr hi
      · exact .inl hrest
    | @autoUnsubscribe i rest hunsubs =>
      rw [hunsubs] at hid
      rcases List.mem_cons.mp hid with rfl | hrest
      · exact .inr (by simp [subscriptions_abort, removeSubscription])
      · exact .inl (by rwa [unsubs_abort])
    | _ => exact .inl hid
  | shutdown b =>
    obtain ⟨_, _, _, _, _, _, _, _, _, rfl⟩ := (stepShutdown_cases h).frame
    exact .inl hid

/-- Without a panic, a task ends by asking to be removed, or because it is aborted. -/
theorem HandlerStep.letsGo {task : HandlerTask} {b : HandlerAction}
    (h : HandlerStep config s id task b s') (htask : s.tasks[id]? = some task) (hs : s.LetsGo id)
    (hpanic : b ≠ .outcome .panic)
    (hoverflow : ∀ event n, task.phase = .handling event n → config.afterError n ≠ .panics) :
    s'.LetsGo id := by
  have hkeep : ∀ task', s'.tasks = s.tasks.insert id task' → s'.subscriptions = s.subscriptions →
      task'.aborted = task.aborted → (task'.phase = .ended → id ∈ s'.unsubs) → s'.LetsGo id := by
    intro task' htasks hsubscriptions haborted hended
    have htask' : s'.tasks[id]? = some task' := by
      rw [htasks, Std.ExtTreeMap.getElem?_insert_self]
    refine ⟨fun t ht hphase _ => ?_, fun t ht habort => ?_⟩
    · cases htask'.symm.trans ht
      exact hended hphase
    · cases htask'.symm.trans ht
      rw [hsubscriptions]
      exact hs.aborted task htask (haborted ▸ habort)
  cases h with
  | closed =>
    exact hkeep _ rfl rfl rfl fun _ => List.mem_append_right _ (List.mem_singleton_self id)
  | interrupt =>
    exact hkeep _ rfl rfl rfl fun _ => List.mem_append_right _ (List.mem_singleton_self id)
  | overflow hphase hafter => exact absurd hafter (hoverflow _ _ hphase)
  | panic => exact absurd rfl hpanic
  | cancelled _ haborted => exact letsGo_of_gone (hs.aborted task htask haborted)
  | _ => exact hkeep _ rfl rfl rfl fun hended => by cases hended

/-- **Every step**, unless the handler of the subscription panics. -/
theorem LetsGo.step {a : Action} {task : HandlerTask} (hs : s.LetsGo id)
    (htask : s.tasks[id]? = some task) (hpanic : a ≠ .handler id (.outcome .panic))
    (hoverflow : ∀ event n, task.phase = .handling event n → config.afterError n ≠ .panics)
    (h : step config s a = some s') : s'.LetsGo id := by
  by_cases hown : ∃ b, a = .handler id b
  · obtain ⟨b, rfl⟩ := hown
    obtain ⟨task', htask', hstep⟩ := stepHandler_cases h
    cases htask.symm.trans htask'
    exact hstep.letsGo htask hs (fun hb => hpanic (hb ▸ rfl)) hoverflow
  · obtain ⟨task', htask', hgoes⟩ := goes_step h htask
    -- nobody subscribes under an id that has a task
    have hstays : id ∈ s'.subscriptions → id ∈ s.subscriptions := by
      intro hid
      rcases mem_subscriptions_step h hid with hold | ⟨_, _, _, _, _, hfresh⟩
      · exact hold
      · cases hfresh.symm.trans htask
    refine ⟨fun t ht hended hid => ?_, fun t ht haborted => ?_⟩
    · cases htask'.symm.trans ht
      have hphase := hgoes.phase fun b hb => hown ⟨b, hb⟩
      have hasked := hs.ended task htask (hphase ▸ hended) (hstays hid)
      exact (asked_step h hasked).resolve_right (not_not_intro hid)
    · cases htask'.symm.trans ht
      rcases hgoes.aborted haborted with hbefore | hgone
      · exact fun hid => hs.aborted task htask hbefore (hstays hid)
      · exact hgone

/-! ## Awaited publish calls -/

/-- A call of `publish_with_metadata` whose future is there. -/
def Awaited (s : MemoryBus) (n : Nat) : Prop :=
  ∃ call, s.calls[n]? = some call ∧ call.nonBlocking = false ∧ call.phase ≠ .cancelled ∧
    ∀ e, call.phase ≠ .returned (.tryError e)

theorem awaited_of_set {n : Nat} {call : PublishCall} {phase : PublishPhase}
    (hcall : s.calls[n]? = some call) (hblocking : call.nonBlocking = false)
    (hcalls : s'.calls = s.calls.set n { call with phase := phase })
    (hcancelled : phase ≠ .cancelled) (htry : ∀ e, phase ≠ .returned (.tryError e)) :
    s'.Awaited n := by
  refine ⟨{ call with phase := phase }, ?_, hblocking, hcancelled, htry⟩
  rw [hcalls]
  exact List.getElem?_set_self (List.getElem?_eq_some_iff.mp hcall).1

/-- A call goes on, and nobody drops it. -/
theorem awaited_of_target {n : Nat} {call : PublishCall} {b : PublisherAction}
    (hcall : s.calls[n]? = some call) (hblocking : call.nonBlocking = false)
    (htarget : b.target = some n) (hcancel : b ≠ .cancel n)
    (h : step config s (.publisher b) = some s') : s'.Awaited n := by
  cases b with
  | publish envelope nonBlocking => cases htarget
  | wake index => cases htarget
  | cancel m =>
    cases htarget
    exact absurd rfl hcancel
  | acquire m =>
    cases htarget
    obtain ⟨call', hcall', -, rfl⟩ := acquire_eq_some h
    cases hcall.symm.trans hcall'
    exact awaited_of_set hcall hblocking rfl (by simp) (by simp)
  | dispatch m now =>
    cases htarget
    cases (dispatch_blocking hcall hblocking h).2 with
    | refused e => exact awaited_of_set hcall hblocking rfl (by simp) (by simp)
    | scheduled => exact awaited_of_set hcall hblocking rfl (by simp) (by simp)
    | dropped => exact awaited_of_set hcall hblocking rfl (by simp) (by simp)
    | awaits => exact awaited_of_set hcall hblocking rfl (by simp) (by simp)
    | entered => exact awaited_of_set hcall hblocking rfl (by simp) (by simp)
  | send m =>
    cases htarget
    rcases (send_blocking hcall h).2 with ⟨-, rfl⟩ | ⟨-, e, rfl⟩
    · exact awaited_of_set hcall hblocking rfl (by simp) (by simp)
    · exact awaited_of_set hcall hblocking rfl (by simp) (by simp)

/-- **Every step** but the drop of its future. -/
theorem Awaited.step {n : Nat} {a : Action} (hs : s.Awaited n)
    (hcancel : a ≠ .publisher (.cancel n)) (h : step config s a = some s') : s'.Awaited n := by
  obtain ⟨call, hcall, hblocking, hawaited⟩ := hs
  by_cases htarget : ∃ b, a = .publisher b ∧ b.target = some n
  · obtain ⟨b, rfl, htarget⟩ := htarget
    exact awaited_of_target hcall hblocking htarget (fun hb => hcancel (hb ▸ rfl)) h
  · exact ⟨call, call_of_other h hcall fun b hb ht => htarget ⟨b, hb, ht⟩, hblocking, hawaited⟩

/-- A new call. -/
theorem awaited_publish (s : MemoryBus) (envelope : EventEnvelope) :
    (s.publish envelope false).Awaited s.calls.length := by
  refine ⟨_, List.getElem?_concat_length, rfl, ?_, fun e => ?_⟩
  · split <;> simp
  · split <;> simp [shuttingDown]

/-- What has come to its end has a result. -/
theorem Awaited.returned {n : Nat} (hs : s.Awaited n)
    (hrest : ∀ call ∈ s.calls, call.pending = false) :
    ∃ call result, s.calls[n]? = some call ∧ call.phase = .returned result ∧
      ∀ e, result ≠ .tryError e := by
  obtain ⟨call, hcall, -, hcancelled, htry⟩ := hs
  have hover := hrest call (List.mem_of_getElem? hcall)
  cases hphase : call.phase with
  | returned result =>
    exact ⟨call, result, hcall, hphase, fun e heq => htry e (hphase.trans (heq ▸ rfl))⟩
  | cancelled => exact absurd hphase hcancelled
  | _ => simp [PublishCall.pending, hphase] at hover

end MemoryBus
end TokioEvents
