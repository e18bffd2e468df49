/-
  TokioEvents.Registry.Concurrent

  `DashMapRegistry::register` and `unregister` called from many threads: every call
  on a `DashMap` or on the `ArcSwap` of the trie is one atomic step, and any number
  of calls interleave.

  `unregister` drops its guard between finding a type's list empty and removing the
  list.  An entry pushed in between is removed with it; that is the only way in which
  a registration is lost to the removal of another.
-/

import TokioEvents.Lib.Calls
import TokioEvents.Registry.DashMap

namespace TokioEvents

open TopicTrie

namespace DashMapRegistry

/-- What `register` touches next. -/
inductive RegisterAt where
  | subscriptionToType
  | nameToType
  | subscriptionToTopic
  | subscriptions
  | topicTrie
  | returned
  deriving DecidableEq

/-- What `unregister` touches next. -/
inductive UnregisterAt where
  | subscriptionToType
  | subscriptionToTopic (eventType : TypeId)
  | topicTrie (eventType : TypeId) (topic : Option String)
  | shrinkList (eventType : TypeId)
  /-- The guard is dropped, the list was empty. -/
  | dropList (eventType : TypeId)
  | returned (result : Except Error Unit)

/-- A call in progress. -/
inductive Call where
  | register (eventType : TypeId) (typeName : String) (subscription : SubscriptionEntry)
      (pc : RegisterAt)
  | unregister (subscriptionId : Uuid) (pc : UnregisterAt)

namespace Call

/-- The call has not done anything yet. -/
def initial : Call → Bool
  | .register _ _ _ .subscriptionToType => true
  | .unregister _ .subscriptionToType => true
  | _ => false

/-- The call is over. -/
def returned : Call → Bool
  | .register _ _ _ .returned => true
  | .unregister _ (.returned _) => true
  | _ => false

end Call

/-- The next step of a `register`. -/
def nextRegister (r : DashMapRegistry) (eventType : TypeId) (typeName : String)
    (subscription : SubscriptionEntry) : RegisterAt → Option (DashMapRegistry × RegisterAt)
  | .subscriptionToType =>
    some ({ r with subscriptionToType := r.subscriptionToType.insert subscription.id eventType },
      .nameToType)
  | .nameToType =>
    some ({ r with nameToType := r.nameToType.insert typeName eventType },
      if subscription.topic.isSome then .subscriptionToTopic else .subscriptions)
  | .subscriptionToTopic =>
    match subscription.topic with
    | some topic =>
      some ({ r with subscriptionToTopic := r.subscriptionToTopic.insert subscription.id topic },
        .subscriptions)
    | none => none
  | .subscriptions =>
    some ({ r with
        subscriptions := r.subscriptions.insert eventType
          (r.subscriptions[eventType]?.getD [] ++ [subscription]) },
      if subscription.topic.isSome then .topicTrie else .returned)
  | .topicTrie =>
    match subscription.topic with
    | some topic =>
      some ({ r with topicTrie := r.topicTrie.insert topic subscription.id }, .returned)
    | none => none
  | .returned => none

/-- The next step of an `unregister`. -/
def nextUnregister (r : DashMapRegistry) (subscriptionId : Uuid) :
    UnregisterAt → Option (DashMapRegistry × UnregisterAt)
  | .subscriptionToType =>
    match r.subscriptionToType[subscriptionId]? with
    | none => some (r, .returned (.error (.subscriptionNotFound subscriptionId)))
    | some eventType =>
      some ({ r with subscriptionToType := r.subscriptionToType.erase subscriptionId },
        .subscriptionToTopic eventType)
  | .subscriptionToTopic eventType =>
    some ({ r with subscriptionToTopic := r.subscriptionToTopic.erase subscriptionId },
      .topicTrie eventType r.subscriptionToTopic[subscriptionId]?)
  | .topicTrie eventType (some topic) =>
    some ({ r with topicTrie := (r.topicTrie.removeTopic topic subscriptionId).1 },
      .shrinkList eventType)
  -- Fallback to the full scan
  | .topicTrie eventType none =>
    some ({ r with topicTrie := (r.topicTrie.remove subscriptionId).1 }, .shrinkList eventType)
  | .shrinkList eventType =>
    match r.subscriptions[eventType]? with
    | some subs =>
      let subs := subs.filter fun s => s.id != subscriptionId
      some ({ r with subscriptions := r.subscriptions.insert eventType subs },
        if subs.isEmpty then .dropList eventType else .returned (.ok ()))
    | none => some (r, .returned (.ok ()))
  | .dropList eventType =>
    some ({ r with subscriptions := r.subscriptions.erase eventType }, .returned (.ok ()))
  | .returned _ => none

/-- The next atomic step of a call. -/
def next (r : DashMapRegistry) : Call → Option (DashMapRegistry × Call)
  | .register eventType typeName subscription pc =>
    (nextRegister r eventType typeName subscription pc).map fun (r, pc) =>
      (r, .register eventType typeName subscription pc)
  | .unregister subscriptionId pc =>
    (nextUnregister r subscriptionId pc).map fun (r, pc) => (r, .unregister subscriptionId pc)

/-- The registry shared by any number of calls. -/
abbrev Shared := Calls.Pool DashMapRegistry Call

/-- One move of the scheduler. -/
def stepShared : Shared → Calls.Action Call → Option Shared :=
  Calls.step (fun call => call.initial = true) next

/-! ## A call alone -/

/-- **A `register` that nobody interrupts** is the call of the sequential model. -/
theorem register_solo (r : DashMapRegistry) (t : TypeId) (n : String) (s : SubscriptionEntry) :
    ∃ actions, Transition.exec stepShared ⟨r, [.register t n s .subscriptionToType]⟩ actions
      = some ⟨(r.register t n s).2, [.register t n s .returned]⟩ := by
  cases htopic : s.topic with
  | none =>
    refine ⟨[.advance 0, .advance 0, .advance 0], ?_⟩
    simp [stepShared, Transition.exec, Calls.step, next, nextRegister, register, htopic]
  | some topic =>
    refine ⟨[.advance 0, .advance 0, .advance 0, .advance 0, .advance 0], ?_⟩
    simp [stepShared, Transition.exec, Calls.step, next, nextRegister, register, htopic]

/-- The two steps on the list are the sequential ones. -/
theorem removeFromList_solo (r : DashMapRegistry) (id : Uuid) (t : TypeId) :
    ∃ actions, Transition.exec stepShared ⟨r, [.unregister id (.shrinkList t)]⟩ actions
      = some ⟨r.removeFromList t id, [.unregister id (.returned (.ok ()))]⟩ := by
  unfold removeFromList
  cases hsubs : r.subscriptions[t]? with
  | none =>
    have hshrink : next r (.unregister id (.shrinkList t))
        = some (r, .unregister id (.returned (.ok ()))) := by
      simp [next, nextUnregister, hsubs]
    exact ⟨[.advance 0], Calls.exec_solo hshrink⟩
  | some subs =>
    by_cases hempty : (subs.filter fun s => s.id != id).isEmpty = true
    · -- the emptied list is stored and then removed
      set emptied : DashMapRegistry := { r with
        subscriptions := r.subscriptions.insert t (subs.filter fun s => s.id != id) } with hr
      have hshrink : next r (.unregister id (.shrinkList t))
          = some (emptied, .unregister id (.dropList t)) := by
        simp only [next, nextUnregister, hsubs, if_pos hempty, Option.map_some, hr]
      have hdrop : next emptied (.unregister id (.dropList t))
          = some ({ r with subscriptions := r.subscriptions.erase t },
              .unregister id (.returned (.ok ()))) := by
        have herase : emptied.subscriptions.erase t = r.subscriptions.erase t := by
          refine Std.ExtTreeMap.ext_getElem? fun t' => ?_
          simp only [hr, Std.ExtTreeMap.getElem?_erase, Std.ExtTreeMap.getElem?_insert]
          split <;> rfl
        simp only [next, nextUnregister, Option.map_some, herase]
        rfl
      refine ⟨[.advance 0, .advance 0], ?_⟩
      dsimp only
      rw [if_pos hempty]
      exact (Calls.exec_solo hshrink).trans (Calls.exec_solo hdrop)
    · have hshrink : next r (.unregister id (.shrinkList t))
          = some ({ r with
              subscriptions := r.subscriptions.insert t (subs.filter fun s => s.id != id) },
            .unregister id (.returned (.ok ()))) := by
        simp only [next, nextUnregister, hsubs, if_neg hempty, Option.map_some]
      refine ⟨[.advance 0], ?_⟩
      dsimp only
      rw [if_neg hempty]
      exact Calls.exec_solo hshrink

/-- **An `unregister` that nobody interrupts** is the call of the sequential model. -/
theorem unregister_solo (r : DashMapRegistry) (id : Uuid) :
    ∃ actions, Transition.exec stepShared ⟨r, [.unregister id .subscriptionToType]⟩ actions
      = some ⟨(r.unregister id).2, [.unregister id (.returned (r.unregister id).1)]⟩ := by
  unfold unregister
  cases htype : r.subscriptionToType[id]? with
  | none =>
    refine ⟨[.advance 0], ?_⟩
    simp [stepShared, Transition.exec, Calls.step, next, nextUnregister, htype]
  | some t =>
    set r₁ : DashMapRegistry :=
      { r with subscriptionToType := r.subscriptionToType.erase id } with hr₁
    obtain ⟨actions, hlist⟩ := removeFromList_solo (r₁.removeFromTrie id) id t
    refine ⟨.advance 0 :: .advance 0 :: .advance 0 :: actions, ?_⟩
    rw [← hlist]
    have hsteps : Transition.exec stepShared ⟨r, [.unregister id .subscriptionToType]⟩
        [.advance 0, .advance 0, .advance 0]
        = some ⟨r₁.removeFromTrie id, [.unregister id (.shrinkList t)]⟩ := by
      cases htopic : r.subscriptionToTopic[id]? with
      | none =>
        have hnone : r.subscriptionToTopic.erase id = r.subscriptionToTopic := by
          refine Std.ExtTreeMap.ext_getElem? fun i => ?_
          rw [Std.ExtTreeMap.getElem?_erase]
          split
          · rename_i heq
            obtain rfl : id = i := by simpa using heq
            exact htopic.symm
          · rfl
        simp [stepShared, Transition.exec, Calls.step, next, nextUnregister, removeFromTrie, htype,
          htopic, hnone, hr₁]
      | some topic =>
        simp [stepShared, Transition.exec, Calls.step, next, nextUnregister, removeFromTrie, htype,
          htopic, hr₁]
    exact Transition.exec_append_of_exec _ hsteps

/-! ## What a step keeps -/

namespace Call

/-- The id an `unregister` has taken out of the id index. -/
def took : Call → Option Uuid
  | .register _ _ _ _ => none
  | .unregister _ .subscriptionToType => none
  | .unregister _ (.returned (.error _)) => none
  | .unregister subscriptionId _ => some subscriptionId

end Call

theorem entries_insert (r : DashMapRegistry) (t : TypeId) (subs : List SubscriptionEntry)
    (t' : TypeId) :
    entries { r with subscriptions := r.subscriptions.insert t subs } t'
      = if t = t' then subs else r.entries t' := by
  unfold entries
  rw [Std.ExtTreeMap.getElem?_insert]
  by_cases h : t = t'
  · simp [h]
  · simp [h]

theorem entries_erase (r : DashMapRegistry) (t t' : TypeId) :
    entries { r with subscriptions := r.subscriptions.erase t } t'
      = if t = t' then [] else r.entries t' := by
  unfold entries
  rw [Std.ExtTreeMap.getElem?_erase]
  by_cases h : t = t'
  · simp [h]
  · simp [h]

/-- A step of `register` adds its entry to its list, its pattern to the trie, or
    neither, and removes nothing. -/
theorem nextRegister_adds {r r' : DashMapRegistry} {t : TypeId} {n : String}
    {s : SubscriptionEntry} {pc pc' : RegisterAt}
    (h : nextRegister r t n s pc = some (r', pc')) :
    (∀ t', r'.entries t' = if pc = .subscriptions ∧ t = t' then r.entries t' ++ [s]
      else r.entries t') ∧
    (∀ p i, (p, i) ∈ r'.topicTrie.index
      ↔ (pc = .topicTrie ∧ s.topic.map patternOf = some p ∧ i = s.id)
        ∨ (p, i) ∈ r.topicTrie.index) := by
  cases pc with
  | subscriptionToType => cases h; simp [entries]
  | nameToType => cases h; simp [entries]
  | subscriptionToTopic =>
    cases htopic : s.topic with
    | none => simp [nextRegister, htopic] at h
    | some topic =>
      simp only [nextRegister, htopic, Option.some.injEq, Prod.mk.injEq] at h
      obtain ⟨rfl, -⟩ := h
      simp [entries]
  | subscriptions =>
    simp only [nextRegister, Option.some.injEq, Prod.mk.injEq] at h
    obtain ⟨rfl, -⟩ := h
    refine ⟨fun t' => ?_, by simp⟩
    rw [entries_insert]
    by_cases heq : t = t'
    · subst heq
      simp [entries]
    · simp [heq]
  | topicTrie =>
    cases htopic : s.topic with
    | none => simp [nextRegister, htopic] at h
    | some topic =>
      simp only [nextRegister, htopic, Option.some.injEq, Prod.mk.injEq] at h
      obtain ⟨rfl, -⟩ := h
      refine ⟨by simp [entries], fun p i => ?_⟩
      rw [mem_index_insert]
      simp [eq_comm]
  | returned => cases h

/-- An `unregister` past its first step has found its id, and goes on having found it. -/
theorem took_nextUnregister {r r' : DashMapRegistry} {id : Uuid} {pc pc' : UnregisterAt}
    (h : nextUnregister r id pc = some (r', pc')) (hpc : pc ≠ .subscriptionToType) :
    (Call.unregister id pc').took = some id := by
  cases pc with
  | subscriptionToType => exact absurd rfl hpc
  | subscriptionToTopic t => cases h; rfl
  | topicTrie t topic => cases topic <;> cases h <;> rfl
  | shrinkList t =>
    simp only [nextUnregister] at h
    split at h
    · cases h
      split <;> rfl
    · cases h
      rfl
  | dropList t => cases h; rfl
  | returned result => cases h

/-- A step of `unregister` takes away entries and pairs of the id it has found only,
    unless it drops a list. -/
theorem nextUnregister_keeps {r r' : DashMapRegistry} {id : Uuid} {pc pc' : UnregisterAt}
    (h : nextUnregister r id pc = some (r', pc')) :
    (∀ t, ∀ s ∈ r.entries t, (Call.unregister id pc').took ≠ some s.id → pc ≠ .dropList t →
      s ∈ r'.entries t) ∧
    (∀ p i, (p, i) ∈ r.topicTrie.index → (Call.unregister id pc').took ≠ some i →
      (p, i) ∈ r'.topicTrie.index) := by
  by_cases hpc : pc = .subscriptionToType
  · -- the first step reads and clears the id index only
    subst hpc
    simp only [nextUnregister] at h
    split at h <;> cases h <;> exact ⟨fun _ _ hs _ _ => hs, fun _ _ hp _ => hp⟩
  · rw [took_nextUnregister h hpc]
    simp only [ne_eq, Option.some.injEq]
    cases pc with
    | subscriptionToType => exact absurd rfl hpc
    | subscriptionToTopic t => cases h; exact ⟨fun _ _ hs _ _ => hs, fun _ _ hp _ => hp⟩
    | topicTrie t topic =>
      cases topic with
      | none =>
        cases h
        refine ⟨fun _ _ hs _ _ => hs, fun p i hp hne => ?_⟩
        exact mem_index_remove.mpr ⟨hp, fun heq => hne heq.symm⟩
      | some topic =>
        cases h
        refine ⟨fun _ _ hs _ _ => hs, fun p i hp hne => ?_⟩
        exact mem_index_removeTopic.mpr ⟨hp, fun heq => hne heq.2.symm⟩
    | shrinkList t =>
      cases hsubs : r.subscriptions[t]? with
      | none =>
        simp only [nextUnregister, hsubs, Option.some.injEq, Prod.mk.injEq] at h
        obtain ⟨rfl, -⟩ := h
        exact ⟨fun _ _ hs _ _ => hs, fun _ _ hp _ => hp⟩
      | some subs =>
        simp only [nextUnregister, hsubs, Option.some.injEq, Prod.mk.injEq] at h
        obtain ⟨rfl, -⟩ := h
        refine ⟨fun t' s hs hne _ => ?_, fun _ _ hp _ => hp⟩
        rw [entries_insert]
        split
        · rename_i heq
          subst heq
          have hmem : s ∈ subs := by simpa [entries, hsubs] using hs
          exact List.mem_filter.mpr ⟨hmem, by simpa using fun heq => hne heq.symm⟩
        · exact hs
    | dropList t =>
      cases h
      refine ⟨fun t' s hs _ hdrop => ?_, fun _ _ hp _ => hp⟩
      have hother : ¬ t = t' := fun heq => hdrop (by rw [heq])
      rw [entries_erase, if_neg hother]
      exact hs
    | returned result => cases h

/-! ## The calls together -/

/-- The ids some `unregister` has taken out of the id index. -/
def unregistered (calls : List Call) : List Uuid := calls.filterMap Call.took

theorem mem_unregistered_set {calls : List Call} {index : Nat} {c c' : Call} {i : Uuid}
    (hcall : calls[index]? = some c) (hgoes : ∀ i, c.took = some i → c'.took = some i)
    (h : i ∈ unregistered calls ∨ c'.took = some i) : i ∈ unregistered (calls.set index c') := by
  unfold unregistered at h ⊢
  simp only [List.mem_filterMap] at h ⊢
  obtain ⟨hlt, -⟩ := List.getElem?_eq_some_iff.mp hcall
  have hnew : c' ∈ calls.set index c' := List.mem_set hlt c'
  rcases h with ⟨d, hd, htook⟩ | htook
  · obtain ⟨k, hk⟩ := List.mem_iff_getElem?.mp hd
    by_cases heq : index = k
    · subst heq
      obtain rfl : c = d := Option.some.inj (hcall.symm.trans hk)
      exact ⟨c', hnew, hgoes i htook⟩
    · exact ⟨d, List.mem_of_getElem? ((List.getElem?_set_ne heq).trans hk), htook⟩
  · exact ⟨c', hnew, htook⟩

/-- A begun call has found nothing. -/
theorem took_of_initial {c : Call} (h : c.initial = true) : c.took = none := by
  cases c with
  | register t n s pc => rfl
  | unregister id pc => cases pc <;> first | rfl | cases h

theorem unregistered_begin {calls : List Call} {c : Call} (h : c.initial = true) :
    unregistered (calls ++ [c]) = unregistered calls := by
  simp [unregistered, took_of_initial h]

/-- What a `register` has put in place stays there until its id is unregistered. -/
def Survives (p : Shared) : Call → Prop
  | .register t _ s pc =>
    s.active = true ∧ (s.id ∉ unregistered p.calls →
      (pc = .topicTrie ∨ pc = .returned → s ∈ p.shared.entries t) ∧
      (pc = .returned → ∀ topic, s.topic = some topic →
        (patternOf topic, s.id) ∈ p.shared.topicTrie.index))
  | .unregister _ _ => True

/-- A list is dropped only while every entry in it is of an id some `unregister` has
    taken, and entries are registered active. -/
def DropsUnregistered (p : Shared) : Calls.Action Call → Prop
  | .begin (.register _ _ s _) => s.active = true
  | .begin (.unregister _ _) => True
  | .advance index => ∀ id t, p.calls[index]? = some (.unregister id (.dropList t)) →
      ∀ s ∈ p.shared.entries t, s.id ∈ unregistered p.calls

instance (p : Shared) : (a : Calls.Action Call) → Decidable (DropsUnregistered p a)
  | .begin (.register _ _ s _) => inferInstanceAs (Decidable (s.active = true))
  | .begin (.unregister _ _) => isTrue trivial
  | .advance index =>
    match hcall : p.calls[index]? with
    | some (.unregister id (.dropList t)) =>
      decidable_of_iff (∀ s ∈ p.shared.entries t, s.id ∈ unregistered p.calls)
        ⟨fun h _ _ h' => by cases hcall.symm.trans h'; exact h, fun h => h id t hcall⟩
    | some (.unregister _ .subscriptionToType) | some (.unregister _ (.subscriptionToTopic _))
    | some (.unregister _ (.topicTrie _ _)) | some (.unregister _ (.shrinkList _))
    | some (.unregister _ (.returned _)) | some (.register _ _ _ _) | none =>
      isTrue fun _ _ h => by cases hcall.symm.trans h

/-- **No interference.** A step keeps the entries and the trie pairs of every id that no
    `unregister` has taken after it. -/
theorem next_keeps {p : Shared} {index : Nat} {c c' : Call} {shared' : DashMapRegistry}
    (hcall : p.calls[index]? = some c) (hC : DropsUnregistered p (.advance index))
    (hnext : next p.shared c = some (shared', c')) :
    (∀ i ∈ unregistered p.calls, i ∈ unregistered (p.calls.set index c')) ∧
    (∀ t, ∀ s ∈ p.shared.entries t, s.id ∉ unregistered (p.calls.set index c') →
      s ∈ shared'.entries t) ∧
    (∀ q i, (q, i) ∈ p.shared.topicTrie.index → i ∉ unregistered (p.calls.set index c') →
      (q, i) ∈ shared'.topicTrie.index) := by
  cases c with
  | register t n s pc =>
    simp only [next, Option.map_eq_some_iff] at hnext
    obtain ⟨⟨r, pc'⟩, hstep, heq⟩ := hnext
    cases heq
    obtain ⟨hentries, hindex⟩ := nextRegister_adds hstep
    refine ⟨fun i hi => ?_, fun t' s' hs' _ => ?_, fun q i hq _ => (hindex q i).mpr (.inr hq)⟩
    · exact mem_unregistered_set hcall (fun _ hi => nomatch hi) (.inl hi)
    · rw [hentries]
      split
      · exact List.mem_append_left _ hs'
      · exact hs'
  | unregister id pc =>
    simp only [next, Option.map_eq_some_iff] at hnext
    obtain ⟨⟨r, pc'⟩, hstep, heq⟩ := hnext
    cases heq
    have hgoes : ∀ i, (Call.unregister id pc).took = some i →
        (Call.unregister id pc').took = some i := by
      intro i hi
      by_cases hpc : pc = .subscriptionToType
      · subst hpc
        cases hi
      · rw [took_nextUnregister hstep hpc]
        cases pc with
        | subscriptionToType => exact absurd rfl hpc
        | returned result => cases hstep
        | _ => exact hi
    obtain ⟨hentries, hindex⟩ := nextUnregister_keeps hstep
    refine ⟨fun i hi => mem_unregistered_set hcall hgoes (.inl hi), fun t s hs hnot => ?_,
      fun q i hq hnot => ?_⟩
    · refine hentries t s hs ?_ ?_
      · exact fun htook => hnot (mem_unregistered_set hcall hgoes (.inr htook))
      · -- the list that is dropped holds unregistered ids only
        rintro rfl
        exact hnot (mem_unregistered_set hcall hgoes (.inl (hC id t hcall s hs)))
    · exact hindex q i hq fun htook => hnot (mem_unregistered_set hcall hgoes (.inr htook))

/-- **Every interleaving** that drops lists of unregistered ids only: what a `register`
    has put in place survives. -/
theorem survives_along {r : DashMapRegistry} {actions : List (Calls.Action Call)} {p : Shared}
    (hC : Transition.Along stepShared DropsUnregistered ⟨r, []⟩ actions)
    (hexec : Transition.exec stepShared ⟨r, []⟩ actions = some p) :
    ∀ c ∈ p.calls, Survives p c := by
  refine Calls.local_invariant_along ?_ ?_ ?_ ?_ (by simp) hC hexec
  · -- a call that begins has put nothing in place
    intro p c hinitial hC
    cases c with
    | register t n s pc =>
      cases pc with
      | subscriptionToType => exact ⟨hC, fun _ => ⟨by simp, by simp⟩⟩
      | _ => cases hinitial
    | unregister id pc => trivial
  · intro p c other hinitial h
    cases other with
    | register t n s pc =>
      obtain ⟨hactive, hkept⟩ := h
      refine ⟨hactive, fun hnot => hkept ?_⟩
      rwa [unregistered_begin hinitial] at hnot
    | unregister id pc => trivial
  · intro p index c shared' c' hcall hC hnext h
    obtain ⟨hgoes, hentries, hindex⟩ := next_keeps hcall hC hnext
    cases c with
    | unregister id pc =>
      simp only [next, Option.map_eq_some_iff] at hnext
      obtain ⟨⟨r, pc'⟩, -, heq⟩ := hnext
      cases heq
      trivial
    | register t n s pc =>
      simp only [next, Option.map_eq_some_iff] at hnext
      obtain ⟨⟨r, pc'⟩, hstep, heq⟩ := hnext
      cases heq
      obtain ⟨hactive, hkept⟩ := h
      obtain ⟨hpush, hinsert⟩ := nextRegister_adds hstep
      refine ⟨hactive, fun hnot => ?_⟩
      obtain ⟨hlist, -⟩ := hkept fun hi => hnot (hgoes s.id hi)
      -- the push and the insertion happen in their own phases
      cases pc with
      | subscriptionToType => cases hstep; exact ⟨by simp, by simp⟩
      | nameToType =>
        cases hstep
        split <;> exact ⟨by simp, by simp⟩
      | subscriptionToTopic =>
        cases htopic : s.topic with
        | none => simp [nextRegister, htopic] at hstep
        | some topic =>
          simp only [nextRegister, htopic, Option.some.injEq, Prod.mk.injEq] at hstep
          obtain ⟨-, rfl⟩ := hstep
          exact ⟨by simp, by simp⟩
      | subscriptions =>
        refine ⟨fun _ => by simp [hpush], fun hpc topic htopic => ?_⟩
        obtain rfl : pc' = .returned := hpc
        simp [nextRegister, htopic] at hstep
      | topicTrie =>
        refine ⟨fun _ => hentries t s (hlist (.inl rfl)) hnot, fun _ topic htopic => ?_⟩
        rw [hinsert]
        exact .inl ⟨rfl, by rw [htopic]; rfl, rfl⟩
      | returned => cases hstep
  · intro p index c shared' c' other hcall hC hnext h
    obtain ⟨hgoes, hentries, hindex⟩ := next_keeps hcall hC hnext
    cases other with
    | register t n s pc =>
      obtain ⟨hactive, hkept⟩ := h
      refine ⟨hactive, fun hnot => ?_⟩
      obtain ⟨hlist, htrie⟩ := hkept fun hi => hnot (hgoes s.id hi)
      refine ⟨fun hpc => hentries t s (hlist hpc) hnot, fun hpc topic htopic => ?_⟩
      exact hindex _ _ (htrie hpc topic htopic) hnot
    | unregister id pc => trivial

/-- Every entry that a `register` returned `Ok` for, and whose id no `unregister`
    returned `Ok` for, is found under its type and under the topics its pattern matches. -/
def NothingLost (p : Shared) : Prop :=
  ∀ t n s, Call.register t n s .returned ∈ p.calls →
    Call.unregister s.id (.returned (.ok ())) ∉ p.calls →
    s ∈ p.shared.getSubscriptions t ∧
    ∀ topic literalTopic, s.topic = some topic → TopicMatches topic literalTopic →
      s ∈ p.shared.getTopicSubscriptions literalTopic

/-- **No registration is lost** once all calls have returned, if entries are registered
    active and no list is dropped with an entry in it that nobody unregistered. -/
theorem nothingLost_along {r : DashMapRegistry} {actions : List (Calls.Action Call)} {p : Shared}
    (hC : Transition.Along stepShared DropsUnregistered ⟨r, []⟩ actions)
    (hexec : Transition.exec stepShared ⟨r, []⟩ actions = some p)
    (hreturned : ∀ c ∈ p.calls, c.returned = true) : NothingLost p := by
  intro t n s hregister hunregister
  obtain ⟨hactive, hkept⟩ := survives_along hC hexec _ hregister
  have hnot : s.id ∉ unregistered p.calls := by
    intro hmem
    obtain ⟨c, hc, htook⟩ := List.mem_filterMap.mp hmem
    have hdone := hreturned c hc
    -- an `unregister` that has found its id and is over returned `Ok`
    cases c with
    | register t n s pc => cases htook
    | unregister id pc =>
      cases pc with
      | returned result =>
        cases result with
        | error e => cases htook
        | ok u =>
          obtain rfl : id = s.id := Option.some.inj htook
          exact hunregister hc
      | _ => cases hdone
  obtain ⟨hlist, htrie⟩ := hkept hnot
  have hentry : s ∈ p.shared.entries t := hlist (.inr rfl)
  refine ⟨?_, fun topic literalTopic htopic hmatch => ?_⟩
  · rw [getSubscriptions_eq]
    exact List.mem_filter.mpr ⟨hentry, hactive⟩
  · refine mem_getTopicSubscriptions.mpr ⟨⟨t, hentry⟩, hactive, ?_⟩
    rw [TopicTrie.mem_matchTopic]
    exact ⟨_, htrie rfl topic htopic, hmatch⟩

/-- A subscription to type 1 and to a topic. -/
def euOrders : SubscriptionEntry := { id := 30, topic := some "orders.*" }

/-- The removal of 10 finds the list of type 1 empty.  Before it drops the list, 20 is
    pushed and then taken out of the id index; the registration of 30, which began first,
    pushes its entry before the removal of 20 is over. -/
def twoRemovals : List (Calls.Action Call) :=
  [.begin (.register 1 "Order" { id := 10 } .subscriptionToType), .advance 0, .advance 0,
    .begin (.register 1 "Order" euOrders .subscriptionToType), .advance 0, .advance 1,
    .begin (.unregister 10 .subscriptionToType), .advance 2, .advance 2, .advance 1, .advance 2,
    .advance 2, .begin (.register 1 "Order" { id := 20 } .subscriptionToType), .advance 3,
    .advance 3, .advance 3, .begin (.unregister 20 .subscriptionToType), .advance 4, .advance 2,
    .advance 1, .advance 4, .advance 1, .advance 4, .advance 4, .advance 1]

/-- The list that is dropped holds 20, and 30 is found by its type and by its topic. -/
theorem nothingLost_twoRemovals :
    (∃ p, Transition.exec stepShared ⟨new, []⟩ (twoRemovals.take 18) = some p ∧
      twoRemovals[18]? = some (.advance 2) ∧
      p.calls[2]? = some (.unregister 10 (.dropList 1)) ∧
      (p.shared.entries 1).map (·.id) = [20]) ∧
    ∃ p, Transition.exec stepShared ⟨new, []⟩ twoRemovals = some p ∧ NothingLost p ∧
      euOrders ∈ p.shared.getSubscriptions 1 ∧
      euOrders ∈ p.shared.getTopicSubscriptions "orders.eu" := by
  refine ⟨⟨_, rfl, rfl, rfl, rfl⟩, ?_⟩
  obtain ⟨p, hexec, hcalls⟩ : ∃ p, Transition.exec stepShared ⟨new, []⟩ twoRemovals = some p ∧
      p.calls = [.register 1 "Order" { id := 10 } .returned,
        .register 1 "Order" euOrders .returned, .unregister 10 (.returned (.ok ())),
        .register 1 "Order" { id := 20 } .returned, .unregister 20 (.returned (.ok ()))] :=
    ⟨_, rfl, rfl⟩
  have hkept : NothingLost p :=
    nothingLost_along (by decide +kernel) hexec (by simp [hcalls, Call.returned])
  obtain ⟨htype, htopic⟩ := hkept 1 "Order" euOrders (by simp [hcalls])
    (by simp [hcalls, euOrders])
  exact ⟨p, hexec, hkept, htype, htopic "orders.*" "orders.eu" rfl (by decide)⟩

/-- An entry is registered and unregistered, and another one of its type registered
    between the last two steps of the removal. -/
def pushBetween : List (Calls.Action Call) :=
  [.begin (.register 1 "Order" { id := 10 } .subscriptionToType), .advance 0, .advance 0,
    .advance 0, .begin (.unregister 10 .subscriptionToType), .advance 1, .advance 1, .advance 1,
    .advance 1, .begin (.register 1 "Order" { id := 20 } .subscriptionToType), .advance 2,
    .advance 2, .advance 2, .advance 1]

theorem exec_pushBetween :
    ∃ p, Transition.exec stepShared ⟨new, []⟩ pushBetween = some p ∧
      p.calls = [.register 1 "Order" { id := 10 } .returned, .unregister 10 (.returned (.ok ())),
        .register 1 "Order" { id := 20 } .returned] ∧
      p.shared.getSubscriptions 1 = [] :=
  ⟨_, rfl, rfl, rfl⟩

/-- All calls have returned, and the second entry is lost. -/
theorem not_nothingLost_pushBetween :
    ∃ p, Transition.exec stepShared ⟨new, []⟩ pushBetween = some p ∧
      (∀ c ∈ p.calls, c.returned = true) ∧ ¬ NothingLost p := by
  obtain ⟨p, hexec, hcalls, hlist⟩ := exec_pushBetween
  refine ⟨p, hexec, by simp [hcalls, Call.returned], fun h => ?_⟩
  obtain ⟨hmem, -⟩ := h 1 "Order" { id := 20 } (by simp [hcalls]) (by simp [hcalls])
  rw [hlist] at hmem
  cases hmem

end DashMapRegistry
end TokioEvents
