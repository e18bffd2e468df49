/-
  TokioEvents.Registry.Invariant

  The invariant of `DashMapRegistry` under every sequence of calls that registers
  fresh ids only: each id lives in the list of exactly the type it is indexed
  under, once, and the trie stores a registered id under its own pattern or, if it
  has no topic, nowhere.

  Ids that are no longer registered may linger in the trie (a pattern with an inner
  `>` is inserted cut but removed whole), so the invariant speaks about registered
  ids only and remembers the used ones: a fresh id is not in the trie at all.
-/

import TokioEvents.Registry.DashMap

namespace List

/-- An element of `replaceF f l` is an old element or the image of one. -/
theorem mem_replaceF {α : Type*} {f : α → Option α} {l : List α} {a : α}
    (h : a ∈ l.replaceF f) : a ∈ l ∨ ∃ b ∈ l, f b = some a := by
  rcases exists_or_eq_self_of_replaceF f l with heq | ⟨b, b', l₁, l₂, -, hb, hl, hr⟩
  · exact .inl (heq ▸ h)
  · rw [hr, mem_append, mem_cons] at h
    subst hl
    rcases h with h | rfl | h
    · exact .inl (by simp [h])
    · exact .inr ⟨b, by simp, hb⟩
    · exact .inl (by simp [h])

/-- Replacing an element by one with the same image leaves the images alone. -/
theorem map_replaceF {α β : Type*} {f : α → Option α} {g : α → β}
    (hg : ∀ a b, f a = some b → g b = g a) (l : List α) :
    (l.replaceF f).map g = l.map g := by
  induction l with
  | nil => rfl
  | cons a l ih =>
    cases hf : f a with
    | none => rw [replaceF_cons_of_none _ hf, map_cons, ih, map_cons]
    | some b => rw [replaceF_cons_of_some _ hf, map_cons, hg a b hf, map_cons]

end List

namespace TokioEvents
namespace DashMapRegistry

open TopicTrie

/-- The invariant, relative to the ids registered so far. -/
structure Wf (r : DashMapRegistry) (used : List Uuid) : Prop where
  typed : ∀ t, ∀ s ∈ r.entries t, r.subscriptionToType[s.id]? = some t
  nodup : ∀ t, ((r.entries t).map (·.id)).Nodup
  indexed : ∀ t, ∀ s ∈ r.entries t, ∀ p,
    (p, s.id) ∈ r.topicTrie.index ↔ s.topic.map patternOf = some p
  entriesUsed : ∀ t, ∀ s ∈ r.entries t, s.id ∈ used
  trieUsed : ∀ p i, (p, i) ∈ r.topicTrie.index → i ∈ used

theorem wf_new : Wf new [] where
  typed := by simp
  nodup := by simp
  indexed := by simp
  entriesUsed := by simp
  trieUsed := by simp [new]

/-! ## What each call does to the id index and to the trie -/

theorem subscriptionToType_register (r : DashMapRegistry) (t : TypeId) (n : String)
    (s : SubscriptionEntry) (i : Uuid) :
    (r.register t n s).2.subscriptionToType[i]?
      = if s.id = i then some t else r.subscriptionToType[i]? := by
  have h : (r.register t n s).2.subscriptionToType = r.subscriptionToType.insert s.id t := by
    unfold register
    cases s.topic <;> rfl
  simp [h, Std.ExtTreeMap.getElem?_insert]

theorem mem_index_register {r : DashMapRegistry} {t : TypeId} {n : String} {s : SubscriptionEntry}
    {p : List (Wildcard.Seg String)} {i : Uuid} :
    (p, i) ∈ (r.register t n s).2.topicTrie.index
      ↔ (s.topic.map patternOf = some p ∧ i = s.id) ∨ (p, i) ∈ r.topicTrie.index := by
  cases htopic : s.topic with
  | none =>
    have h : (r.register t n s).2.topicTrie = r.topicTrie := by
      unfold register; rw [htopic]
    simp [h]
  | some topic =>
    have h : (r.register t n s).2.topicTrie = r.topicTrie.insert topic s.id := by
      unfold register; rw [htopic]
    simp [h, mem_index_insert, eq_comm]

@[simp] theorem subscriptionToType_removeFromTrie (r : DashMapRegistry) (id : Uuid) :
    (r.removeFromTrie id).subscriptionToType = r.subscriptionToType := by
  unfold removeFromTrie
  cases r.subscriptionToTopic[id]? <;> rfl

@[simp] theorem subscriptionToType_removeFromList (r : DashMapRegistry) (t : TypeId) (id : Uuid) :
    (r.removeFromList t id).subscriptionToType = r.subscriptionToType := by
  unfold removeFromList
  cases r.subscriptions[t]? with
  | none => rfl
  | some subs => dsimp only; split <;> rfl

@[simp] theorem topicTrie_removeFromList (r : DashMapRegistry) (t : TypeId) (id : Uuid) :
    (r.removeFromList t id).topicTrie = r.topicTrie := by
  unfold removeFromList
  cases r.subscriptions[t]? with
  | none => rfl
  | some subs => dsimp only; split <;> rfl

/-- Clearing an id from the trie touches no other id and adds nothing. -/
theorem mem_index_removeFromTrie {r : DashMapRegistry} {id i : Uuid}
    {p : List (Wildcard.Seg String)} :
    ((p, i) ∈ (r.removeFromTrie id).topicTrie.index → (p, i) ∈ r.topicTrie.index) ∧
    (i ≠ id → ((p, i) ∈ (r.removeFromTrie id).topicTrie.index ↔ (p, i) ∈ r.topicTrie.index)) := by
  unfold removeFromTrie
  cases r.subscriptionToTopic[id]? with
  | none =>
    dsimp only
    rw [mem_index_remove]
    exact ⟨And.left, fun h => and_iff_left h⟩
  | some topic =>
    dsimp only
    rw [mem_index_removeTopic]
    exact ⟨And.left, fun h => and_iff_left fun hc => h hc.2⟩

/-! ## Preservation -/

/-- A call that only drops entries, or rewrites them keeping id and topic, and keeps
    what the indexes say about the entries it leaves, keeps the invariant. -/
theorem Wf.shrink {r r' : DashMapRegistry} {used : List Uuid} (h : Wf r used)
    (hentry : ∀ t, ∀ s' ∈ r'.entries t, ∃ s ∈ r.entries t, s.id = s'.id ∧ s.topic = s'.topic)
    (hids : ∀ t, ((r'.entries t).map (·.id)).Sublist ((r.entries t).map (·.id)))
    (htype : ∀ t, ∀ s' ∈ r'.entries t,
      r'.subscriptionToType[s'.id]? = r.subscriptionToType[s'.id]?)
    (htrie : ∀ t, ∀ s' ∈ r'.entries t, ∀ p,
      (p, s'.id) ∈ r'.topicTrie.index ↔ (p, s'.id) ∈ r.topicTrie.index)
    (hsub : ∀ p i, (p, i) ∈ r'.topicTrie.index → (p, i) ∈ r.topicTrie.index) :
    Wf r' used where
  typed t s' hs' := by
    obtain ⟨s, hs, hid, -⟩ := hentry t s' hs'
    rw [htype t s' hs', ← hid]
    exact h.typed t s hs
  nodup t := (hids t).nodup (h.nodup t)
  indexed t s' hs' p := by
    obtain ⟨s, hs, hid, htopic⟩ := hentry t s' hs'
    rw [htrie t s' hs', ← hid, ← htopic]
    exact h.indexed t s hs p
  entriesUsed t s' hs' := by
    obtain ⟨s, hs, hid, -⟩ := hentry t s' hs'
    exact hid ▸ h.entriesUsed t s hs
  trieUsed p i hi := h.trieUsed p i (hsub p i hi)

theorem Wf.register {r : DashMapRegistry} {used : List Uuid} (h : Wf r used) {t : TypeId}
    {n : String} {s : SubscriptionEntry} (hfresh : s.id ∉ used) :
    Wf (r.register t n s).2 (used ++ [s.id]) := by
  have hne : ∀ t', ∀ s' ∈ r.entries t', s.id ≠ s'.id := fun t' s' hs' heq =>
    hfresh (heq ▸ h.entriesUsed t' s' hs')
  -- an entry of the new lists is an old one or the new one, in its type's list
  have hmem : ∀ t', ∀ s' ∈ (r.register t n s).2.entries t',
      s' ∈ r.entries t' ∨ (t = t' ∧ s' = s) := by
    intro t' s' hs'
    rw [entries_register] at hs'
    split at hs'
    · rename_i heq
      rcases List.mem_append.mp hs' with hold | hnew
      · exact .inl hold
      · exact .inr ⟨heq, List.mem_singleton.mp hnew⟩
    · exact .inl hs'
  constructor
  case typed =>
    intro t' s' hs'
    rw [subscriptionToType_register]
    rcases hmem t' s' hs' with hold | ⟨rfl, rfl⟩
    · rw [if_neg (hne t' s' hold)]
      exact h.typed t' s' hold
    · simp
  case nodup =>
    -- the new id is fresh, so the longer list has no duplicate either
    intro t'
    rw [entries_register]
    split
    · rw [List.map_append, List.nodup_append]
      refine ⟨h.nodup t', by simp, ?_⟩
      intro i hi j hj
      obtain ⟨s', hs', rfl⟩ := List.mem_map.mp hi
      obtain rfl : j = s.id := by simpa using hj
      exact (hne t' s' hs').symm
    · exact h.nodup t'
  case indexed =>
    -- the trie gains the path of the new entry and nothing of any other
    intro t' s' hs' p
    rw [mem_index_register]
    rcases hmem t' s' hs' with hold | ⟨rfl, rfl⟩
    · have := hne t' s' hold
      simp [h.indexed t' s' hold p, this.symm]
    · have hnone : (p, s'.id) ∉ r.topicTrie.index := fun hi => hfresh (h.trieUsed p _ hi)
      simp [hnone]
  case entriesUsed =>
    intro t' s' hs'
    rcases hmem t' s' hs' with hold | ⟨rfl, rfl⟩
    · exact List.mem_append_left _ (h.entriesUsed t' s' hold)
    · simp
  case trieUsed =>
    intro p i hi
    rcases mem_index_register.mp hi with ⟨-, rfl⟩ | hold
    · simp
    · exact List.mem_append_left _ (h.trieUsed p i hold)

theorem Wf.unregister {r : DashMapRegistry} {used : List Uuid} (h : Wf r used) (id : Uuid) :
    Wf (r.unregister id).2 used := by
  unfold DashMapRegistry.unregister
  cases htype : r.subscriptionToType[id]? with
  | none => exact h
  | some t =>
    set r₁ : DashMapRegistry :=
      { r with subscriptionToType := r.subscriptionToType.erase id } with hr₁
    have hentries : ∀ t', ((r₁.removeFromTrie id).removeFromList t id).entries t'
        = if t = t' then (r.entries t').filter (fun s => s.id != id) else r.entries t' := by
      intro t'
      rw [entries_removeFromList, entries_removeFromTrie]
      rfl
    -- the id is registered under `t` only, so no surviving entry carries it
    have hkept : ∀ t', ∀ s' ∈ ((r₁.removeFromTrie id).removeFromList t id).entries t',
        s' ∈ r.entries t' ∧ s'.id ≠ id := by
      intro t' s' hs'
      rw [hentries] at hs'
      split at hs'
      · simpa using hs'
      · rename_i hne
        refine ⟨hs', fun heq => hne ?_⟩
        have := h.typed t' s' hs'
        rw [heq, htype] at this
        exact Option.some.inj this
    apply h.shrink
    · intro t' s' hs'
      exact ⟨s', (hkept t' s' hs').1, rfl, rfl⟩
    · intro t'
      rw [hentries]
      split
      · exact List.filter_sublist.map _
      · exact List.Sublist.refl _
    · intro t' s' hs'
      have hne := (hkept t' s' hs').2
      simp [hr₁, Std.ExtTreeMap.getElem?_erase, hne.symm]
    · -- the trie forgets the removed id only
      intro t' s' hs' p
      have hne := (hkept t' s' hs').2
      rw [topicTrie_removeFromList]
      exact mem_index_removeFromTrie.2 hne
    · intro p i hi
      rw [topicTrie_removeFromList] at hi
      exact (mem_index_removeFromTrie (r := r₁)).1 hi

/-- Rewriting one entry of a list leaves the other lists alone. -/
theorem entries_replaceEntry {r : DashMapRegistry} {t : TypeId} {subs : List SubscriptionEntry}
    (hsubs : r.subscriptions[t]? = some subs)
    (f : SubscriptionEntry → Option SubscriptionEntry) (t' : TypeId) :
    entries { r with subscriptions := r.subscriptions.insert t (subs.replaceF f) } t'
      = if t = t' then (r.entries t').replaceF f else r.entries t' := by
  unfold entries
  rw [Std.ExtTreeMap.getElem?_insert]
  by_cases heq : t = t'
  · subst heq; simp [hsubs]
  · simp [heq]

/-- Rewriting one entry of a list, keeping its id and topic. -/
theorem Wf.replaceEntry {r : DashMapRegistry} {used : List Uuid} (h : Wf r used) {t : TypeId}
    {subs : List SubscriptionEntry} (hsubs : r.subscriptions[t]? = some subs)
    {f : SubscriptionEntry → Option SubscriptionEntry}
    (hf : ∀ a b, f a = some b → b.id = a.id ∧ b.topic = a.topic) :
    Wf { r with subscriptions := r.subscriptions.insert t (subs.replaceF f) } used := by
  have hentries := entries_replaceEntry hsubs f
  apply h.shrink
  · intro t' s' hs'
    rw [hentries] at hs'
    split at hs'
    · rcases List.mem_replaceF hs' with hold | ⟨s, hs, hfs⟩
      · exact ⟨s', hold, rfl, rfl⟩
      · exact ⟨s, hs, (hf s s' hfs).1.symm, (hf s s' hfs).2.symm⟩
    · exact ⟨s', hs', rfl, rfl⟩
  · intro t'
    rw [hentries]
    split
    · rw [List.map_replaceF fun a b hab => (hf a b hab).1]
    · exact List.Sublist.refl _
  · intro t' s' hs'
    rfl
  · intro t' s' hs' p
    rfl
  · intro p i hi
    exact hi

theorem Wf.deactivate {r : DashMapRegistry} {used : List Uuid} (h : Wf r used) (id : Uuid) :
    Wf (r.deactivate id).2 used := by
  unfold DashMapRegistry.deactivate
  cases r.subscriptionToType[id]? with
  | none => exact h
  | some t =>
    cases hsubs : r.subscriptions[t]? with
    | none => simpa [hsubs] using h
    | some subs =>
      simp only [hsubs]
      split
      · apply h.replaceEntry hsubs
        intro a b hab
        split at hab <;> cases hab
        exact ⟨rfl, rfl⟩
      · exact h

theorem Wf.incrementProcessed {r : DashMapRegistry} {used : List Uuid} (h : Wf r used) (id : Uuid) :
    Wf (r.incrementProcessed id) used := by
  unfold DashMapRegistry.incrementProcessed
  cases r.subscriptionToType[id]? with
  | none => exact h
  | some t =>
    cases hsubs : r.subscriptions[t]? with
    | none => simpa [hsubs] using h
    | some subs =>
      simp only [hsubs]
      apply h.replaceEntry hsubs
      intro a b hab
      split at hab <;> cases hab
      exact ⟨rfl, rfl⟩

/-- Counting a processed event leaves of every list what does not look at the count. -/
theorem map_incrementProcessed {β : Type*} {g : SubscriptionEntry → β}
    (hg : ∀ (s : SubscriptionEntry) (n : Nat), g { s with eventsProcessed := n } = g s)
    (r : DashMapRegistry) (id : Uuid) (t : TypeId) :
    ((r.incrementProcessed id).entries t).map g = (r.entries t).map g := by
  unfold DashMapRegistry.incrementProcessed
  cases r.subscriptionToType[id]? with
  | none => rfl
  | some t' =>
    cases hsubs : r.subscriptions[t']? with
    | none => simp [hsubs]
    | some subs =>
      simp only [hsubs]
      rw [entries_replaceEntry hsubs]
      split
      · apply List.map_replaceF
        intro a b hab
        split at hab <;> cases hab
        exact hg a _
      · rfl

/-- In particular, the ids. -/
theorem ids_incrementProcessed (r : DashMapRegistry) (id : Uuid) (t : TypeId) :
    ((r.incrementProcessed id).entries t).map (·.id) = (r.entries t).map (·.id) :=
  map_incrementProcessed (fun _ _ => rfl) r id t

theorem Wf.clear {r : DashMapRegistry} {used : List Uuid} (h : Wf r used) : Wf r.clear used := by
  apply h.shrink <;> simp [DashMapRegistry.clear, entries]

/-- **One call** with a fresh id keeps the invariant; only `register` uses up an id. -/
theorem Wf.apply {r : DashMapRegistry} {used : List Uuid} (h : Wf r used) {op : RegistryOp}
    (hfresh : ∀ id, op.registeredId = some id → id ∉ used) :
    Wf (op.apply r) (used ++ op.registeredId.toList) := by
  have hsame : op.registeredId = none → Wf (op.apply r) used →
      Wf (op.apply r) (used ++ op.registeredId.toList) := by
    intro hnone hwf
    rwa [hnone, Option.toList_none, List.append_nil]
  cases op with
  | register t n s => exact h.register (hfresh s.id rfl)
  | unregister id => exact hsame rfl (h.unregister id)
  | deactivate id => exact hsame rfl (h.deactivate id)
  | incrementProcessed id => exact hsame rfl (h.incrementProcessed id)
  | clear => exact hsame rfl h.clear

/-- **The invariant holds after every sequence of calls with fresh ids.** -/
theorem wf_run (ops : List RegistryOp) (hfresh : RegistryOp.FreshIds ops) :
    Wf (RegistryOp.run new ops) (ops.filterMap RegistryOp.registeredId) := by
  induction ops using List.reverseRecOn with
  | nil => exact wf_new
  | append_singleton ops op ih =>
    unfold RegistryOp.FreshIds at hfresh
    rw [List.filterMap_append, List.nodup_append] at hfresh
    obtain ⟨hpre, -, hnew⟩ := hfresh
    have hids : [op].filterMap RegistryOp.registeredId = op.registeredId.toList := by
      cases hid : op.registeredId <;> simp [hid]
    rw [RegistryOp.run_concat, List.filterMap_append, hids]
    refine (ih hpre).apply fun id hid hused => ?_
    exact hnew id hused id (by rw [hids, hid]; exact List.mem_singleton_self id) rfl

/-- A registered subscription is selected for a topic exactly when it has a topic
    pattern and the pattern matches. -/
theorem Wf.mem_matchTopic {r : DashMapRegistry} {used : List Uuid} (h : Wf r used) {t : TypeId}
    {s : SubscriptionEntry} (hs : s ∈ r.entries t) {literalTopic : String} :
    s.id ∈ r.topicTrie.matchTopic literalTopic
      ↔ ∃ topic, s.topic = some topic ∧ TopicMatches topic literalTopic := by
  rw [TopicTrie.mem_matchTopic]
  constructor
  · rintro ⟨p, hp, hm⟩
    obtain ⟨topic, htopic, rfl⟩ := Option.map_eq_some_iff.mp ((h.indexed t s hs p).mp hp)
    exact ⟨topic, htopic, hm⟩
  · rintro ⟨topic, htopic, hm⟩
    exact ⟨_, (h.indexed t s hs _).mpr (by simp [htopic]), hm⟩

/-- No id is registered twice: two entries with one id are one entry of one type. -/
theorem Wf.entry_unique {r : DashMapRegistry} {used : List Uuid} (h : Wf r used) {t t' : TypeId}
    {s s' : SubscriptionEntry} (hs : s ∈ r.entries t) (hs' : s' ∈ r.entries t')
    (hid : s.id = s'.id) : t = t' ∧ s = s' := by
  have htype : some t = some t' := by rw [← h.typed t s hs, hid, h.typed t' s' hs']
  obtain rfl := Option.some.inj htype
  exact ⟨rfl, List.inj_on_of_nodup_map (h.nodup t) hs hs' hid⟩

end DashMapRegistry
end TokioEvents
