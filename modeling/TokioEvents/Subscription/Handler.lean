/-
  TokioEvents.Subscription.Handler

  The `EventHandler` trait and the two ways to subscribe one: `subscribe_typed`, which
  takes the handler's `filter()` into the registry entry, and `subscribe_untyped`, which
  does not (`src/subscription/handler.rs`, `src/subscription/mod.rs`).

  An entry keeps the filter it was registered with for as long as it is registered.  So
  whether `dispatch` queues an event for a subscription that it selects depends on nothing
  but the event and that filter.
-/

import TokioEvents.Registry.Indexes
import TokioEvents.Subscription.Routing

namespace TokioEvents

/-- `EventFilterFn`. -/
abbrev EventFilterFn := EventEnvelope → Bool

/-- `trait EventHandler`; `σ` is everything the handlers act on. -/
structure EventHandler (σ : Type) where
  handle : EventEnvelope → σ → Except Error Unit × σ
  name : String := "unnamed"
  filter : Option EventFilterFn := none

/-- `filter.is_none_or(|filter| filter(&envelope))`. -/
def EventHandler.accepts {σ : Type} (handler : EventHandler σ) (envelope : EventEnvelope) : Bool :=
  match handler.filter with
  | some filter => filter envelope
  | none => true

namespace SubscriptionManager

variable {R σ : Type} [EventRegistry R]

/-- The entry that `subscribe_typed` registers. -/
def typedEntry (id : Uuid) (name : String) (topic : Option String) (handler : EventHandler σ) :
    SubscriptionEntry :=
  { id := id, name := some name, topic := topic, filter := handler.filter }

/-- The entry that `subscribe_untyped` registers. -/
def untypedEntry (id : Uuid) (eventTypeName : String) : SubscriptionEntry :=
  { id := id, name := some ("Handler<" ++ eventTypeName ++ ">") }

/-- The end of both: the channel is stored, and the entry is registered. -/
def subscribeEntry (m : SubscriptionManager R) (typeId : TypeId) (typeName : String)
    (entry : SubscriptionEntry) : Except Error Unit × SubscriptionManager R :=
  let (result, registry) := EventRegistry.register m.registry typeId typeName entry
  (result, ⟨registry, m.subscriptions.insert entry.id ⟨[], true⟩⟩)

/-- `subscribe_typed`; the id is a new v4 UUID. -/
def subscribeTyped (m : SubscriptionManager R) (id : Uuid) (typeId : TypeId) (typeName : String)
    (handler : EventHandler σ) (name : String) (topic : Option String) :
    Except Error Unit × SubscriptionManager R :=
  m.subscribeEntry typeId typeName (typedEntry id name topic handler)

/-- `subscribe`. -/
def subscribe (m : SubscriptionManager R) (id : Uuid) (typeId : TypeId) (typeName : String)
    (handler : EventHandler σ) : Except Error Unit × SubscriptionManager R :=
  m.subscribeTyped id typeId typeName handler ("Handler<" ++ typeName ++ ">") none

/-- `subscribe_untyped`: the handler's `filter()` is not asked. -/
def subscribeUntyped (m : SubscriptionManager R) (id : Uuid) (_handler : EventHandler σ)
    (eventTypeId : TypeId) (eventTypeName : String) :
    Except Error Unit × SubscriptionManager R :=
  m.subscribeEntry eventTypeId eventTypeName (untypedEntry id eventTypeName)

/-- Both are a `register` call, as far as the registry is concerned. -/
theorem subscribeEntry_registry (m : SubscriptionManager R) (typeId : TypeId) (typeName : String)
    (entry : SubscriptionEntry) :
    (m.subscribeEntry typeId typeName entry).2.registry
      = RegistryOp.apply m.registry (.register typeId typeName entry) := rfl

@[simp] theorem typedEntry_accepts (id : Uuid) (name : String) (topic : Option String)
    (handler : EventHandler σ) (envelope : EventEnvelope) :
    (typedEntry id name topic handler).accepts envelope = handler.accepts envelope := rfl

@[simp] theorem untypedEntry_accepts (id : Uuid) (eventTypeName : String)
    (envelope : EventEnvelope) : (untypedEntry id eventTypeName).accepts envelope = true := rfl

end SubscriptionManager

/-! ## The filter of a registered entry -/

namespace RegistryOp

/-- Fresh ids: a subscription is registered by one call only. -/
theorem FreshIds.register_unique {ops : List RegistryOp} (h : FreshIds ops) {t t' : TypeId}
    {n n' : String} {s s' : SubscriptionEntry} (hs : .register t n s ∈ ops)
    (hs' : .register t' n' s' ∈ ops) (hid : s.id = s'.id) : t = t' ∧ s = s' := by
  have hused : ∀ {ops : List RegistryOp} {t : TypeId} {n : String} {s : SubscriptionEntry},
      .register t n s ∈ ops → s.id ∈ ops.filterMap registeredId := fun hmem =>
    List.mem_filterMap.mpr ⟨_, hmem, rfl⟩
  induction ops using List.reverseRecOn with
  | nil => cases hs
  | append_singleton ops op ih =>
    obtain ⟨hpre, hnew⟩ := h.concat
    rcases List.mem_append.mp hs with hold | hlast <;>
      rcases List.mem_append.mp hs' with hold' | hlast'
    · exact ih hpre hold hold'
    · rw [List.mem_singleton] at hlast'
      exact absurd (hused hold) (hnew s.id (by rw [← hlast', hid]; rfl))
    · rw [List.mem_singleton] at hlast
      exact absurd (hused hold') (hnew s'.id (by rw [← hlast, ← hid]; rfl))
    · rw [List.mem_singleton] at hlast hlast'
      cases hlast.trans hlast'.symm
      exact ⟨rfl, rfl⟩

end RegistryOp

namespace DashMapRegistry

open RegistryOp

/-- The two entries are of one subscription, with what `dispatch` looks at unchanged. -/
def SameSubscription (s s' : SubscriptionEntry) : Prop :=
  s'.id = s.id ∧ s'.filter = s.filter ∧ s'.topic = s.topic

theorem mem_entries_replaceEntry {r : DashMapRegistry} {t : TypeId}
    {subs : List SubscriptionEntry} (hsubs : r.subscriptions[t]? = some subs)
    {f : SubscriptionEntry → Option SubscriptionEntry}
    (hf : ∀ a b, f a = some b → SameSubscription b a) {t' : TypeId} {s : SubscriptionEntry}
    (hs : s ∈ entries { r with subscriptions := r.subscriptions.insert t (subs.replaceF f) } t') :
    ∃ s₁ ∈ r.entries t', SameSubscription s s₁ := by
  rw [entries_replaceEntry hsubs] at hs
  split at hs
  · rcases List.mem_replaceF hs with hold | ⟨s₁, hs₁, hfs⟩
    · exact ⟨s, hold, rfl, rfl, rfl⟩
    · exact ⟨s₁, hs₁, hf s₁ s hfs⟩
  · exact ⟨s, hs, rfl, rfl, rfl⟩

/-- What a call makes of the entries: they are old ones with the filters they had, or the
    one that it registers. -/
theorem mem_entries_apply {r : DashMapRegistry} {op : RegistryOp} {t : TypeId}
    {s : SubscriptionEntry} (hs : s ∈ (op.apply r).entries t) :
    (∃ s₁ ∈ r.entries t, SameSubscription s s₁) ∨ ∃ n, op = .register t n s := by
  cases op with
  | register t' n s' =>
    rw [apply_register, entries_register] at hs
    split at hs
    · rename_i htype
      rcases List.mem_append.mp hs with hold | hnew
      · exact .inl ⟨s, hold, rfl, rfl, rfl⟩
      · rw [List.mem_singleton] at hnew
        exact .inr ⟨n, by rw [htype, hnew]⟩
    · exact .inl ⟨s, hs, rfl, rfl, rfl⟩
  | unregister id =>
    left
    rw [apply_unregister] at hs
    unfold DashMapRegistry.unregister at hs
    cases htype : r.subscriptionToType[id]? with
    | none =>
      rw [htype] at hs
      exact ⟨s, hs, rfl, rfl, rfl⟩
    | some t' =>
      rw [htype] at hs
      dsimp only at hs
      rw [entries_removeFromList, entries_removeFromTrie] at hs
      split at hs
      · exact ⟨s, (List.mem_filter.mp hs).1, rfl, rfl, rfl⟩
      · exact ⟨s, hs, rfl, rfl, rfl⟩
  | deactivate id =>
    left
    rw [apply_deactivate] at hs
    unfold DashMapRegistry.deactivate at hs
    cases htype : r.subscriptionToType[id]? with
    | none =>
      rw [htype] at hs
      exact ⟨s, hs, rfl, rfl, rfl⟩
    | some t' =>
      rw [htype] at hs
      dsimp only at hs
      cases hsubs : r.subscriptions[t']? with
      | none =>
        rw [hsubs] at hs
        exact ⟨s, hs, rfl, rfl, rfl⟩
      | some subs =>
        rw [hsubs] at hs
        dsimp only at hs
        split at hs
        · refine mem_entries_replaceEntry hsubs (fun a b hab => ?_) hs
          split at hab <;> cases hab
          exact ⟨rfl, rfl, rfl⟩
        · exact ⟨s, hs, rfl, rfl, rfl⟩
  | incrementProcessed id =>
    left
    rw [apply_incrementProcessed] at hs
    unfold DashMapRegistry.incrementProcessed at hs
    cases htype : r.subscriptionToType[id]? with
    | none =>
      rw [htype] at hs
      exact ⟨s, hs, rfl, rfl, rfl⟩
    | some t' =>
      rw [htype] at hs
      dsimp only at hs
      cases hsubs : r.subscriptions[t']? with
      | none =>
        rw [hsubs] at hs
        exact ⟨s, hs, rfl, rfl, rfl⟩
      | some subs =>
        rw [hsubs] at hs
        refine mem_entries_replaceEntry hsubs (fun a b hab => ?_) hs
        split at hab <;> cases hab
        exact ⟨rfl, rfl, rfl⟩
  | clear =>
    simp [DashMapRegistry.clear, entries] at hs

/-- A registered entry has the filter, and the type, that it was registered with. -/
theorem registered_of_mem_entries {ops : List RegistryOp} {t : TypeId} {s : SubscriptionEntry}
    (hs : s ∈ (run new ops).entries t) :
    ∃ n s₀, .register t n s₀ ∈ ops ∧ SameSubscription s s₀ := by
  induction ops using List.reverseRecOn generalizing s with
  | nil =>
    rw [run_nil, entries_new] at hs
    cases hs
  | append_singleton ops op ih =>
    rw [run_concat] at hs
    rcases mem_entries_apply hs with ⟨s₁, hs₁, hid₁, hfilter₁, htopic₁⟩ | ⟨n, rfl⟩
    · obtain ⟨n, s₀, hmem, hid, hfilter, htopic⟩ := ih hs₁
      exact ⟨n, s₀, List.mem_append_left _ hmem, hid.trans hid₁, hfilter.trans hfilter₁,
        htopic.trans htopic₁⟩
    · exact ⟨n, s, List.mem_append_right _ (List.mem_singleton_self _), rfl, rfl, rfl⟩

end DashMapRegistry

/-! ## What `dispatch` queues for one subscription -/

namespace SubscriptionManager

open DashMapRegistry RegistryOp

/-- `dispatch` appends the envelope to the channel of the subscription. -/
def Enqueues (m : SubscriptionManager DashMapRegistry) (envelope : EventEnvelope) (id : Uuid) :
    Prop :=
  ∃ data, m.subscriptions[id]? = some data ∧
    (m.dispatch envelope).subscriptions[id]?
      = some { data with channel := data.channel ++ [envelope] }

/-- `dispatch` comes to the subscription, by its type or by its topic, and the task that
    reads its channel is there. -/
def Selects (m : SubscriptionManager DashMapRegistry) (envelope : EventEnvelope) (id : Uuid) :
    Prop :=
  (∃ s ∈ selectSubscriptions m.registry envelope, s.id = id) ∧
    ∃ data, m.subscriptions[id]? = some data ∧ data.live = true

/-- A live subscription gets the event exactly if `dispatch` sends to it; otherwise its
    channel stays as it is. -/
theorem enqueues_iff_mem_senders {m : SubscriptionManager DashMapRegistry} {used : List Uuid}
    (hwf : Wf m.registry used) {envelope : EventEnvelope} {id : Uuid}
    (hlive : ∃ data, m.subscriptions[id]? = some data ∧ data.live = true) :
    (Enqueues m envelope id ↔ id ∈ m.senders envelope) ∧
      (id ∉ m.senders envelope →
        (m.dispatch envelope).subscriptions[id]? = m.subscriptions[id]?) := by
  obtain ⟨⟨channel, live⟩, hdata, hlive⟩ := hlive
  change live = true at hlive
  subst hlive
  have hdispatch : (m.dispatch envelope).subscriptions[id]? = _ := getElem?_dispatch hwf id
  rw [hdata, Option.map_some] at hdispatch
  simp only [true_and] at hdispatch
  refine ⟨⟨?_, fun hsend => ⟨_, hdata, by rw [hdispatch, if_pos hsend]⟩⟩, fun hnot => ?_⟩
  · rintro ⟨data', hdata', henqueued⟩
    cases hdata.symm.trans hdata'
    by_contra hnot
    rw [hdispatch, if_neg hnot, Option.some.injEq] at henqueued
    have hlength := congrArg (fun d => d.channel.length) henqueued
    simp at hlength
  · rw [hdispatch, if_neg hnot, hdata]

section Registered

variable {ops : List RegistryOp} {t : TypeId} {n : String} {entry : SubscriptionEntry}
  {subscriptions : DashMap Uuid SubscriptionData} {envelope : EventEnvelope}

/-- What is registered under the id of an entry has its type, its filter and its topic. -/
theorem eq_of_mem_entries (hfresh : FreshIds ops) (hregistered : .register t n entry ∈ ops)
    {t' : TypeId} {s : SubscriptionEntry} (hs : s ∈ (run new ops).entries t')
    (hid : s.id = entry.id) :
    t' = t ∧ s.filter = entry.filter ∧ s.topic = entry.topic := by
  obtain ⟨n', s₀, hregistered', hid', hfilter, htopic⟩ := registered_of_mem_entries hs
  obtain ⟨rfl, rfl⟩ := hfresh.register_unique hregistered' hregistered (hid'.trans hid)
  exact ⟨rfl, hfilter.symm, htopic.symm⟩

/-- `dispatch` sends to a subscription that it selects exactly if its filter accepts. -/
theorem mem_senders_registered (hfresh : FreshIds ops) (hregistered : .register t n entry ∈ ops)
    (hsome : (subscriptions[entry.id]?).isSome) :
    entry.id ∈ senders ⟨run new ops, subscriptions⟩ envelope
      ↔ (∃ s ∈ selectSubscriptions (run new ops) envelope, s.id = entry.id) ∧
        entry.accepts envelope = true := by
  have hwf : Wf (run new ops) (ops.filterMap registeredId) := wf_run ops hfresh
  have haccepts : ∀ s ∈ selectSubscriptions (run new ops) envelope, s.id = entry.id →
      s.accepts envelope = entry.accepts envelope := by
    intro s hs hid
    obtain ⟨t', hmem⟩ : ∃ t', s ∈ (run new ops).entries t' := by
      rcases (mem_selectSubscriptions (m := ⟨run new ops, subscriptions⟩) hwf).mp hs with
        ⟨hmem, -, -⟩ | ⟨hmem, -, -⟩
      · exact ⟨_, hmem⟩
      · exact hmem
    unfold SubscriptionEntry.accepts
    rw [(eq_of_mem_entries hfresh hregistered hmem hid).2.1]
  rw [mem_senders]
  constructor
  · rintro ⟨s, hs, hid, hacc, -⟩
    exact ⟨⟨s, hs, hid⟩, by rwa [← haccepts s hs hid]⟩
  · rintro ⟨⟨s, hs, hid⟩, hacc⟩
    exact ⟨s, hs, hid, by rwa [haccepts s hs hid], hsome⟩

/-- **The filter decides.**  A subscription that `dispatch` comes to gets the event exactly
    if the filter it was registered with accepts it; otherwise its channel stays as it is. -/
theorem enqueues_iff_accepts (hfresh : FreshIds ops) (hregistered : .register t n entry ∈ ops)
    (hselects : Selects ⟨run new ops, subscriptions⟩ envelope entry.id) :
    (Enqueues ⟨run new ops, subscriptions⟩ envelope entry.id ↔ entry.accepts envelope = true) ∧
      (entry.accepts envelope = false →
        (dispatch ⟨run new ops, subscriptions⟩ envelope).subscriptions[entry.id]?
          = subscriptions[entry.id]?) := by
  obtain ⟨hselected, data, hdata, hlive⟩ := hselects
  have hsend : entry.id ∈ senders ⟨run new ops, subscriptions⟩ envelope
      ↔ entry.accepts envelope = true :=
    (mem_senders_registered hfresh hregistered (by rw [hdata]; rfl)).trans
      (and_iff_right hselected)
  obtain ⟨hiff, hstays⟩ : (Enqueues ⟨run new ops, subscriptions⟩ envelope entry.id ↔ _) ∧ _ :=
    enqueues_iff_mem_senders (wf_run ops hfresh) ⟨data, hdata, hlive⟩
  exact ⟨hiff.trans hsend, fun hrej => hstays fun hmem => by cases hrej.symm.trans (hsend.mp hmem)⟩

/-- A subscription without a topic is selected by its type, and by nothing else. -/
theorem selects_untopiced_iff (hfresh : FreshIds ops) (hregistered : .register t n entry ∈ ops)
    (htopic : entry.topic = none) :
    (∃ s ∈ selectSubscriptions (run new ops) envelope, s.id = entry.id)
      ↔ envelope.typeId = t ∧
        ∃ s ∈ (run new ops).entries t, s.id = entry.id ∧ s.active = true := by
  have hwf : Wf (run new ops) (ops.filterMap registeredId) := wf_run ops hfresh
  have hselected : ∀ s, s ∈ selectSubscriptions (run new ops) envelope ↔ _ := fun s =>
    mem_selectSubscriptions (m := ⟨run new ops, ∅⟩) hwf
  constructor
  · rintro ⟨s, hs, hid⟩
    rcases (hselected s).mp hs with ⟨hmem, hactive, -⟩ | ⟨⟨t', hmem⟩, -, topic, hsome, -⟩
    · have htype := (eq_of_mem_entries hfresh hregistered hmem hid).1
      exact ⟨htype, s, htype ▸ hmem, hid, hactive⟩
    · have hsame := (eq_of_mem_entries hfresh hregistered hmem hid).2.2
      rw [hsame, htopic] at hsome
      cases hsome
  · rintro ⟨rfl, s, hmem, hid, hactive⟩
    have hsame := (eq_of_mem_entries hfresh hregistered hmem hid).2.2
    exact ⟨s, (hselected s).mpr (.inl ⟨hmem, hactive, hsame.trans htopic⟩), hid⟩

/-- **An active subscription without a topic** gets the events of its type that its filter
    accepts. -/
theorem enqueues_untopiced_iff (hfresh : FreshIds ops) (hregistered : .register t n entry ∈ ops)
    (htopic : entry.topic = none)
    (hactive : ∃ s ∈ (run new ops).entries t, s.id = entry.id ∧ s.active = true)
    (hlive : ∃ data, subscriptions[entry.id]? = some data ∧ data.live = true) :
    Enqueues ⟨run new ops, subscriptions⟩ envelope entry.id
      ↔ envelope.typeId = t ∧ entry.accepts envelope = true := by
  have hsome : (subscriptions[entry.id]?).isSome := by
    obtain ⟨data, hdata, -⟩ := hlive
    rw [hdata]
    rfl
  refine (enqueues_iff_mem_senders (m := ⟨run new ops, subscriptions⟩) (wf_run ops hfresh)
    hlive).1.trans ((mem_senders_registered hfresh hregistered hsome).trans ?_)
  rw [selects_untopiced_iff hfresh hregistered htopic, and_iff_left hactive]

end Registered

end SubscriptionManager
end TokioEvents
