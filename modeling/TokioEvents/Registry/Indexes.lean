/-
  TokioEvents.Registry.Indexes

  The registry against the list of registrations it stands for: `registered ops` is
  the list a sequence of calls should leave, and every structure of
  `DashMapRegistry` is a view of it.  The lists, the id index and the trie are views
  after every sequence of calls with fresh ids.  The topics by id are not: `clear`
  empties the other maps and keeps this one, so what it holds besides is what the
  clears left behind.
-/

import Mathlib.Algebra.GroupWithZero.Nat
import TokioEvents.Registry.Invariant

namespace TokioEvents

/-- What a registry has to remember of a subscription to find it. -/
structure Registration where
  id : Uuid
  eventType : TypeId
  topic : Option String
  deriving DecidableEq, Repr

/-- The registration a subscription entry of a type stands for. -/
def SubscriptionEntry.registration (eventType : TypeId) (s : SubscriptionEntry) : Registration :=
  ⟨s.id, eventType, s.topic⟩

namespace RegistryOp

/-- The registrations after a call. -/
def store (live : List Registration) : RegistryOp → List Registration
  | .register eventType _ subscription => live ++ [subscription.registration eventType]
  | .unregister subscriptionId => live.filter fun x => x.id ≠ subscriptionId
  | .deactivate _ => live
  | .incrementProcessed _ => live
  | .clear => []

/-- The registrations after a sequence of calls. -/
def registered (ops : List RegistryOp) : List Registration := ops.foldl store []

@[simp] theorem registered_nil : registered [] = [] := rfl

@[simp] theorem registered_concat (ops : List RegistryOp) (op : RegistryOp) :
    registered (ops ++ [op]) = store (registered ops) op := by
  simp [registered]

/-- Only ids that were registered are. -/
theorem id_mem_of_mem_registered {ops : List RegistryOp} {x : Registration}
    (hx : x ∈ registered ops) : x.id ∈ ops.filterMap registeredId := by
  induction ops using List.reverseRecOn with
  | nil => simp at hx
  | append_singleton ops op ih =>
    rw [registered_concat] at hx
    rw [List.filterMap_append, List.mem_append]
    cases op with
    | register t n s =>
      rcases List.mem_append.mp hx with hold | hnew
      · exact .inl (ih hold)
      · rw [List.mem_singleton] at hnew
        subst hnew
        exact .inr (by simp [registeredId, SubscriptionEntry.registration])
    | unregister id => exact .inl (ih (List.mem_filter.mp hx).1)
    | deactivate id => exact .inl (ih hx)
    | incrementProcessed id => exact .inl (ih hx)
    | clear => simp [store] at hx

/-- The calls before the last one, and the freshness of its id. -/
theorem FreshIds.concat {ops : List RegistryOp} {op : RegistryOp} (h : FreshIds (ops ++ [op])) :
    FreshIds ops ∧ ∀ id, op.registeredId = some id → id ∉ ops.filterMap registeredId := by
  unfold FreshIds at h
  rw [List.filterMap_append, List.nodup_append] at h
  obtain ⟨hpre, -, hnew⟩ := h
  refine ⟨hpre, fun id hid hmem => ?_⟩
  exact hnew id hmem id (by simp [hid]) rfl

end RegistryOp

namespace DashMapRegistry

open RegistryOp

/-- The lists and the id index are views of the registrations. -/
structure Refines (r : DashMapRegistry) (live : List Registration) : Prop where
  entries : ∀ t : TypeId,
    (r.entries t).map (·.registration t) = live.filter fun x => x.eventType = t
  typed : ∀ (id : Uuid) (t : TypeId),
    r.subscriptionToType[id]? = some t ↔ ∃ x ∈ live, x.id = id ∧ x.eventType = t
  nonempty : ∀ t : TypeId, r.subscriptions[t]? ≠ some []
  nodup : (live.map (·.id)).Nodup

theorem refines_new : Refines new [] where
  entries := by simp
  typed := by simp [new]
  nonempty := by simp [new]
  nodup := by simp

section Views

variable {r : DashMapRegistry} {live : List Registration} (h : Refines r live)
include h

/-- The ids in a type's list are the ids registered for it. -/
theorem Refines.ids (t : TypeId) :
    (r.entries t).map (·.id) = (live.filter fun x => x.eventType = t).map (·.id) := by
  rw [← h.entries t, List.map_map]
  rfl

theorem Refines.mem_ids {t : TypeId} {id : Uuid} :
    id ∈ (r.entries t).map (·.id) ↔ ∃ x ∈ live, x.id = id ∧ x.eventType = t := by
  rw [h.ids t]
  simp only [List.mem_map, List.mem_filter, decide_eq_true_eq]
  constructor
  · rintro ⟨x, ⟨hx, ht⟩, hid⟩
    exact ⟨x, hx, hid, ht⟩
  · rintro ⟨x, hx, hid, ht⟩
    exact ⟨x, ⟨hx, ht⟩, hid⟩

theorem Refines.nodup_ids (t : TypeId) : ((r.entries t).map (·.id)).Nodup := by
  rw [h.ids t]
  exact (List.filter_sublist.map _).nodup h.nodup

/-- No id is registered twice. -/
theorem Refines.unique {x y : Registration} (hx : x ∈ live) (hy : y ∈ live) (hid : x.id = y.id) :
    x = y :=
  List.inj_on_of_nodup_map h.nodup hx hy hid

theorem Refines.not_typed {id : Uuid} (hnone : r.subscriptionToType[id]? = none) :
    ∀ x ∈ live, x.id ≠ id := by
  intro x hx hid
  have hsome := (h.typed id x.eventType).mpr ⟨x, hx, hid, rfl⟩
  rw [hnone] at hsome
  cases hsome

end Views

/-! ## One lemma for each call -/

theorem Refines.register {r : DashMapRegistry} {live : List Registration} (h : Refines r live)
    {t : TypeId} {n : String} {s : SubscriptionEntry} (hfresh : s.id ∉ live.map (·.id)) :
    Refines (r.register t n s).2 (live ++ [s.registration t]) where
  entries t' := by
    rw [entries_register, List.filter_append]
    split
    · rename_i heq
      subst heq
      rw [List.map_append, h.entries]
      simp [SubscriptionEntry.registration]
    · rename_i hne
      rw [h.entries]
      simp [SubscriptionEntry.registration, hne]
  typed id t' := by
    rw [subscriptionToType_register]
    by_cases hid : s.id = id
    · -- the new id, which no other registration has
      subst hid
      have hold : ∀ x ∈ live, x.id ≠ s.id := fun x hx heq =>
        hfresh (heq ▸ List.mem_map_of_mem hx)
      simp only [↓reduceIte, Option.some.injEq, List.mem_append, List.mem_singleton]
      constructor
      · rintro rfl
        exact ⟨_, .inr rfl, rfl, rfl⟩
      · rintro ⟨x, hx | rfl, hxid, hxt⟩
        · exact absurd hxid (hold x hx)
        · exact hxt
    · rw [if_neg hid, h.typed]
      simp only [List.mem_append, List.mem_singleton]
      constructor
      · rintro ⟨x, hx, hx'⟩
        exact ⟨x, .inl hx, hx'⟩
      · rintro ⟨x, hx | rfl, hxid, hxt⟩
        · exact ⟨x, hx, hxid, hxt⟩
        · exact absurd hxid hid
  nonempty t' := by
    have hsubs : (r.register t n s).2.subscriptions
        = r.subscriptions.insert t (r.subscriptions[t]?.getD [] ++ [s]) := by
      unfold DashMapRegistry.register
      cases s.topic <;> rfl
    rw [hsubs, Std.ExtTreeMap.getElem?_insert]
    split
    · simp
    · exact h.nonempty t'
  nodup := by
    rw [List.map_append, List.nodup_append]
    refine ⟨h.nodup, by simp, ?_⟩
    intro i hi j hj heq
    obtain rfl : j = s.id := by simpa [SubscriptionEntry.registration] using hj
    exact hfresh (heq ▸ hi)

/-- A list is dropped when it runs empty. -/
theorem nonempty_removeFromList {r : DashMapRegistry}
    (h : ∀ t : TypeId, r.subscriptions[t]? ≠ some []) (t : TypeId) (id : Uuid) (t' : TypeId) :
    (r.removeFromList t id).subscriptions[t']? ≠ some [] := by
  unfold removeFromList
  split
  · dsimp only
    split
    · rw [Std.ExtTreeMap.getElem?_erase]
      split
      · simp
      · exact h t'
    · rename_i hnonempty
      rw [Std.ExtTreeMap.getElem?_insert]
      split
      · simpa using hnonempty
      · exact h t'
  · exact h t'

@[simp] theorem subscriptions_removeFromTrie (r : DashMapRegistry) (id : Uuid) :
    (r.removeFromTrie id).subscriptions = r.subscriptions := by
  unfold removeFromTrie
  cases r.subscriptionToTopic[id]? <;> rfl

theorem Refines.unregister {r : DashMapRegistry} {live : List Registration} (h : Refines r live)
    (id : Uuid) : Refines (r.unregister id).2 (live.filter fun x => x.id ≠ id) := by
  unfold DashMapRegistry.unregister
  cases htype : r.subscriptionToType[id]? with
  | none =>
    -- an unknown id is in no registration
    have hall : (live.filter fun x => x.id ≠ id) = live :=
      List.filter_eq_self.mpr fun x hx => by simpa using h.not_typed htype x hx
    rw [hall]
    exact h
  | some t =>
    obtain ⟨y, hy, hyid, hyt⟩ := (h.typed id t).mp htype
    constructor
    case entries =>
      intro t'
      rw [entries_removeFromList, entries_removeFromTrie, List.filter_filter]
      have hcomm : (live.filter fun x => decide (x.eventType = t') && decide (x.id ≠ id))
          = (live.filter fun x => x.eventType = t').filter fun x => x.id ≠ id := by
        rw [List.filter_filter]
        exact List.filter_congr fun x _ => Bool.and_comm _ _
      rw [hcomm, ← h.entries t']
      split
      · rw [List.filter_map]
        congr 1
        exact List.filter_congr fun s _ => by
          simp [SubscriptionEntry.registration, bne, BEq.beq]
      · -- the id is registered for `t`, so the other lists do not hold it
        rename_i hne
        rw [List.filter_eq_self.mpr]
        · rfl
        · intro x hx
          rw [h.entries t'] at hx
          obtain ⟨hlive, hxt⟩ := List.mem_filter.mp hx
          have hxt : x.eventType = t' := by simpa using hxt
          rw [decide_eq_true_eq]
          intro hxid
          obtain rfl := h.unique hlive hy (hxid.trans hyid.symm)
          exact hne (hyt.symm.trans hxt)
    case typed =>
      intro id' t'
      rw [subscriptionToType_removeFromList, subscriptionToType_removeFromTrie,
        Std.ExtTreeMap.getElem?_erase]
      simp only [Std.LawfulEqCmp.compare_eq_iff_eq, List.mem_filter, ne_eq, decide_not,
        Bool.not_eq_eq_eq_not, Bool.not_true, decide_eq_false_iff_not]
      by_cases hid : id = id'
      · subst hid
        simp only [↓reduceIte, reduceCtorEq, false_iff, not_exists]
        rintro x ⟨⟨-, hx⟩, hxid, -⟩
        exact hx hxid
      · rw [if_neg hid, h.typed]
        constructor
        · rintro ⟨x, hx, hxid, hxt⟩
          exact ⟨x, ⟨hx, fun heq => hid (heq.symm.trans hxid)⟩, hxid, hxt⟩
        · rintro ⟨x, ⟨hx, -⟩, hxid, hxt⟩
          exact ⟨x, hx, hxid, hxt⟩
    case nonempty =>
      intro t'
      apply nonempty_removeFromList
      simpa using h.nonempty
    case nodup => exact (List.filter_sublist.map _).nodup h.nodup

/-- Rewriting one entry of a list, keeping its id and topic. -/
theorem Refines.replaceEntry {r : DashMapRegistry} {live : List Registration} (h : Refines r live)
    {t : TypeId} {subs : List SubscriptionEntry} (hsubs : r.subscriptions[t]? = some subs)
    {f : SubscriptionEntry → Option SubscriptionEntry}
    (hf : ∀ a b, f a = some b → b.id = a.id ∧ b.topic = a.topic) :
    Refines { r with subscriptions := r.subscriptions.insert t (subs.replaceF f) } live where
  entries t' := by
    rw [← h.entries t', entries_replaceEntry hsubs]
    split
    · apply List.map_replaceF
      intro a b hab
      obtain ⟨hid, htopic⟩ := hf a b hab
      simp [SubscriptionEntry.registration, hid, htopic]
    · rfl
  typed := h.typed
  nonempty t' := by
    rw [Std.ExtTreeMap.getElem?_insert]
    split
    · rw [Ne, Option.some.injEq]
      intro hnil
      have hlen := List.length_replaceF (f := f) (l := subs)
      rw [hnil, List.length_nil] at hlen
      exact h.nonempty t (by rw [hsubs, List.eq_nil_of_length_eq_zero hlen.symm])
    · exact h.nonempty t'
  nodup := h.nodup

theorem Refines.deactivate {r : DashMapRegistry} {live : List Registration} (h : Refines r live)
    (id : Uuid) : Refines (r.deactivate id).2 live := by
  unfold DashMapRegistry.deactivate
  cases r.subscriptionToType[id]? with
  | none => exact h
  | some t =>
    cases hsubs : r.subscriptions[t]? with
    | none => simpa [hsubs] using h
    | some subs =>
      simp only [hsubs]
      split
      · apply h.replaceEntry hsubs
        intro a b hab
        split at hab <;> cases hab
        exact ⟨rfl, rfl⟩
      · exact h

theorem Refines.incrementProcessed {r : DashMapRegistry} {live : List Registration}
    (h : Refines r live) (id : Uuid) : Refines (r.incrementProcessed id) live := by
  unfold DashMapRegistry.incrementProcessed
  cases r.subscriptionToType[id]? with
  | none => exact h
  | some t =>
    cases hsubs : r.subscriptions[t]? with
    | none => simpa [hsubs] using h
    | some subs =>
      simp only [hsubs]
      apply h.replaceEntry hsubs
      intro a b hab
      split at hab <;> cases hab
      exact ⟨rfl, rfl⟩

theorem refines_clear (r : DashMapRegistry) : Refines r.clear [] where
  entries := by simp [DashMapRegistry.clear, DashMapRegistry.entries]
  typed := by simp [DashMapRegistry.clear]
  nonempty := by simp [DashMapRegistry.clear]
  nodup := by simp

/-- **One call** that registers no id a second time. -/
theorem Refines.apply {r : DashMapRegistry} {live : List Registration} (h : Refines r live)
    {op : RegistryOp} (hfresh : ∀ id, op.registeredId = some id → id ∉ live.map (·.id)) :
    Refines (op.apply r) (store live op) := by
  cases op with
  | register t n s => exact h.register (hfresh s.id rfl)
  | unregister id => exact h.unregister id
  | deactivate id => exact h.deactivate id
  | incrementProcessed id => exact h.incrementProcessed id
  | clear => exact refines_clear _

/-- **Every sequence of calls with fresh ids** leaves the registrations it should. -/
theorem refines_run (ops : List RegistryOp) (hfresh : FreshIds ops) :
    Refines (run new ops) (registered ops) := by
  induction ops using List.reverseRecOn with
  | nil => exact refines_new
  | append_singleton ops op ih =>
    obtain ⟨hpre, hnew⟩ := hfresh.concat
    rw [run_concat, registered_concat]
    refine (ih hpre).apply fun id hid hmem => ?_
    obtain ⟨x, hx, rfl⟩ := List.mem_map.mp hmem
    exact hnew x.id hid (id_mem_of_mem_registered hx)

/-! ## The primary index -/

/-- `subscription_to_type` indexes the subscription lists, and the queries that go
    through either agree. -/
structure PrimaryIndex (r : DashMapRegistry) (live : List Registration) : Prop where
  occursOnce : ∀ (id : Uuid) (t : TypeId), r.subscriptionToType[id]? = some t
    ↔ ((r.entries t).map (·.id)).count id = 1 ∧ ∀ t' ≠ t, id ∉ (r.entries t').map (·.id)
  noEmptyList : ∀ t : TypeId, r.subscriptions[t]? ≠ some []
  total : r.totalSubscriptions = (r.eventTypes.map r.subscriptionCount).sum
  found : ∀ id, (∃ s, r.getSubscription id = some s) ↔ id ∈ live.map (·.id)
  foundEntry : ∀ id s, r.getSubscription id = some s → s.id = id
  notFound : ∀ id id', (r.unregister id).1 = .error (.subscriptionNotFound id') →
    (r.unregister id).2 = r
  notDeactivated : ∀ id id', (r.deactivate id).1 = .error (.subscriptionNotFound id') →
    (r.deactivate id).2 = r

/-- A call that does not find its subscription changes nothing. -/
theorem unregister_notFound {r : DashMapRegistry} {id id' : Uuid}
    (h : (r.unregister id).1 = .error (.subscriptionNotFound id')) : (r.unregister id).2 = r := by
  unfold unregister at h ⊢
  cases htype : r.subscriptionToType[id]? with
  | none => rfl
  | some t => simp [htype] at h

theorem deactivate_notFound {r : DashMapRegistry} {id id' : Uuid}
    (h : (r.deactivate id).1 = .error (.subscriptionNotFound id')) : (r.deactivate id).2 = r := by
  unfold deactivate at h ⊢
  cases htype : r.subscriptionToType[id]? with
  | none => rfl
  | some t =>
    cases hsubs : r.subscriptions[t]? with
    | none => simp [hsubs]
    | some subs =>
      simp only [htype, hsubs] at h ⊢
      split
      · rename_i hany
        simp [hany] at h
      · rfl

/-- What is found under an id has that id. -/
theorem getSubscription_id {r : DashMapRegistry} {id : Uuid} {s : SubscriptionEntry}
    (hs : r.getSubscription id = some s) : s.id = id := by
  unfold getSubscription at hs
  split at hs
  · cases hs
  · split at hs
    · simpa using List.find?_some hs
    · cases hs

section Views

variable {r : DashMapRegistry} {live : List Registration} (h : Refines r live)
include h

theorem Refines.occursOnce (id : Uuid) (t : TypeId) :
    r.subscriptionToType[id]? = some t
      ↔ ((r.entries t).map (·.id)).count id = 1 ∧ ∀ t' ≠ t, id ∉ (r.entries t').map (·.id) := by
  rw [h.typed]
  constructor
  · intro hreg
    refine ⟨List.count_eq_one_of_mem (h.nodup_ids t) (h.mem_ids.mpr hreg), ?_⟩
    intro t' hne hmem
    obtain ⟨x, hx, hxid, hxt⟩ := hreg
    obtain ⟨y, hy, hyid, hyt⟩ := h.mem_ids.mp hmem
    obtain rfl := h.unique hx hy (hxid.trans hyid.symm)
    exact hne (hyt.symm.trans hxt)
  · rintro ⟨hcount, -⟩
    exact h.mem_ids.mp (List.count_pos_iff.mp (by omega))

/-- Lists of different types share no id. -/
theorem Refines.nodup_flatMap_ids :
    (r.eventTypes.flatMap fun t => (r.entries t).map (·.id)).Nodup := by
  have htypes : r.eventTypes.Nodup := Std.ExtTreeMap.nodup_keys
  rw [List.nodup_flatMap]
  refine ⟨fun t _ => h.nodup_ids t, htypes.imp ?_⟩
  intro t t' hne id hid hid'
  exact ((h.occursOnce id t).mp ((h.typed id t).mpr (h.mem_ids.mp hid))).2 t' hne.symm hid'

/-- The ids of all lists together are the keys of the index, so there are as many. -/
theorem Refines.total : r.totalSubscriptions = (r.eventTypes.map r.subscriptionCount).sum := by
  have hcount : (r.eventTypes.map r.subscriptionCount).sum
      = (r.eventTypes.flatMap fun t => (r.entries t).map (·.id)).length := by
    rw [List.length_flatMap]
    congr 1
    exact List.map_congr_left fun t _ => by rw [subscriptionCount_eq, List.length_map]
  have hkeys : r.totalSubscriptions = r.subscriptionToType.keys.length := by
    rw [Std.ExtTreeMap.length_keys]
    rfl
  rw [hcount, hkeys]
  apply List.Perm.length_eq
  rw [List.perm_ext_iff_of_nodup Std.ExtTreeMap.nodup_keys h.nodup_flatMap_ids]
  intro id
  rw [Std.ExtTreeMap.mem_keys, Std.ExtTreeMap.mem_iff_isSome_getElem?, Option.isSome_iff_exists,
    List.mem_flatMap]
  constructor
  · rintro ⟨t, ht⟩
    have hmem := h.mem_ids.mpr ((h.typed id t).mp ht)
    obtain ⟨s, hs, -⟩ := List.mem_map.mp hmem
    exact ⟨t, mem_eventTypes_of_mem hs, hmem⟩
  · rintro ⟨t, -, hmem⟩
    exact ⟨t, (h.typed id t).mpr (h.mem_ids.mp hmem)⟩

theorem Refines.getSubscription_iff (id : Uuid) :
    (∃ s, r.getSubscription id = some s) ↔ id ∈ live.map (·.id) := by
  rw [List.mem_map]
  unfold getSubscription
  cases htype : r.subscriptionToType[id]? with
  | none =>
    simp only [reduceCtorEq, exists_false, false_iff, not_exists, not_and]
    exact h.not_typed htype
  | some t =>
    have hreg := (h.typed id t).mp htype
    have hmem := h.mem_ids.mpr hreg
    obtain ⟨x, hx, hxid, -⟩ := hreg
    have hlive : ∃ x ∈ live, x.id = id := ⟨x, hx, hxid⟩
    obtain ⟨s, hs, hsid⟩ := List.mem_map.mp hmem
    cases hsubs : r.subscriptions[t]? with
    | none => simp [DashMapRegistry.entries, hsubs] at hs
    | some subs =>
      have hs : s ∈ subs := by simpa [DashMapRegistry.entries, hsubs] using hs
      have hfind : (subs.find? fun s => s.id == id).isSome :=
        List.find?_isSome.mpr ⟨s, hs, by simpa using hsid⟩
      simpa only [hsubs, hlive, iff_true] using Option.isSome_iff_exists.mp hfind

end Views

/-- **The primary index.** After every sequence of calls with fresh ids, an id is
    indexed under a type exactly when it occurs once in that type's list and in no
    other, no type keeps an empty list, the totals agree, exactly the registered ids
    are found, and a call that does not find its id changes nothing. -/
theorem primaryIndex_run (ops : List RegistryOp) (hfresh : FreshIds ops) :
    PrimaryIndex (run new ops) (registered ops) where
  occursOnce := (refines_run ops hfresh).occursOnce
  noEmptyList := (refines_run ops hfresh).nonempty
  total := (refines_run ops hfresh).total
  found := (refines_run ops hfresh).getSubscription_iff
  foundEntry _ _ := getSubscription_id
  notFound _ _ := unregister_notFound
  notDeactivated _ _ := deactivate_notFound

/-- Two types, an id removed twice, a deactivation and a last entry removed. -/
def registerTwice : List RegistryOp :=
  [.register 1 "Order" { id := 10 }, .register 2 "Audit" { id := 20, topic := some "orders.>" },
    .deactivate 10, .unregister 20, .unregister 20, .register 1 "Order" { id := 30 }]

theorem primaryIndex_registerTwice :
    PrimaryIndex (run new registerTwice) (registered registerTwice) :=
  primaryIndex_run registerTwice (by unfold FreshIds registerTwice registeredId; decide)

end DashMapRegistry
end TokioEvents
