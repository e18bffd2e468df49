/-
  TokioEvents.Registry.Statistics

  `RegistryStatistics::stats`, the provided method of every registry (`src/registry/mod.rs`),
  against the history of the registry.

  The loop counts the inactive entries among those that `get_subscriptions` returns, and
  `DashMapRegistry` returns active ones only.  So it finds no inactive subscription, whatever
  was deactivated, and the deactivated ones are missing from the total.
-/

import TokioEvents.Registry.Indexes

namespace TokioEvents

/-- `RegistryStats`. -/
structure RegistryStats where
  eventTypes : Nat
  totalSubscriptions : Nat
  activeSubscriptions : Nat
  inactiveSubscriptions : Nat
  deriving DecidableEq, Repr

namespace RegistryStatistics

variable {R : Type} [EventRegistry R]

/-- The body of the loop: what the entries of a type add to `total`, `active` and `inactive`. -/
def countType (r : R) (counts : Nat × Nat × Nat) (eventType : TypeId) : Nat × Nat × Nat :=
  let subs := EventRegistry.getSubscriptions r eventType
  (counts.1 + subs.length, counts.2.1 + (subs.filter fun s => s.active).length,
    counts.2.2 + (subs.filter fun s => !s.active).length)

/-- `stats`. -/
def stats (r : R) : RegistryStats :=
  let eventTypes := EventRegistry.eventTypes r
  let (total, active, inactive) := eventTypes.foldl (countType r) (0, 0, 0)
  { eventTypes := eventTypes.length
    totalSubscriptions := total
    activeSubscriptions := active
    inactiveSubscriptions := inactive }

/-- The loop adds up what the types contribute. -/
theorem foldl_countType (r : R) (eventTypes : List TypeId) (counts : Nat × Nat × Nat) :
    eventTypes.foldl (countType r) counts
      = (counts.1 + (eventTypes.flatMap (EventRegistry.getSubscriptions r)).length,
        counts.2.1 + (eventTypes.flatMap (EventRegistry.getSubscriptions r)).countP (·.active),
        counts.2.2 + (eventTypes.flatMap (EventRegistry.getSubscriptions r)).countP
          (!·.active)) := by
  induction eventTypes generalizing counts with
  | nil => rfl
  | cons t ts ih =>
    rw [List.foldl_cons, ih, List.flatMap_cons, List.length_append, List.countP_append,
      List.countP_append]
    unfold countType
    simp only [List.countP_eq_length_filter, Nat.add_assoc]

end RegistryStatistics

/-! ## The subscriptions of a history, with their state -/

namespace RegistryOp

/-- The subscriptions after a call, each with whether it is active. -/
def enroll (roll : List (Uuid × Bool)) : RegistryOp → List (Uuid × Bool)
  | .register _ _ subscription => roll ++ [(subscription.id, subscription.active)]
  | .unregister subscriptionId => roll.filter fun x => x.1 ≠ subscriptionId
  | .deactivate subscriptionId => roll.map fun x => if x.1 = subscriptionId then (x.1, false) else x
  | .incrementProcessed _ => roll
  | .clear => []

/-- The subscriptions after a sequence of calls. -/
def enrolled (ops : List RegistryOp) : List (Uuid × Bool) := ops.foldl enroll []

theorem enrolled_concat (ops : List RegistryOp) (op : RegistryOp) :
    enrolled (ops ++ [op]) = enroll (enrolled ops) op := by
  unfold enrolled
  rw [List.foldl_append, List.foldl_cons, List.foldl_nil]

/-- The same subscriptions as the registrations. -/
theorem map_fst_enrolled (ops : List RegistryOp) :
    (enrolled ops).map (·.1) = (registered ops).map (·.id) := by
  induction ops using List.reverseRecOn with
  | nil => rfl
  | append_singleton ops op ih =>
    rw [enrolled_concat, registered_concat]
    cases op with
    | register t n s =>
      show (enrolled ops ++ [_]).map _ = (registered ops ++ [_]).map _
      rw [List.map_append, List.map_append, ih]
      rfl
    | unregister id =>
      show ((enrolled ops).filter ((fun i => decide (i ≠ id)) ∘ fun x => x.1)).map _
        = ((registered ops).filter ((fun i => decide (i ≠ id)) ∘ fun x => x.id)).map _
      rw [← List.filter_map, ← List.filter_map, ih]
    | deactivate id =>
      show ((enrolled ops).map _).map _ = (registered ops).map _
      rw [List.map_map, ← ih]
      apply List.map_congr_left
      intro x _
      show (if x.1 = id then (x.1, false) else x).1 = x.1
      split <;> rfl
    | incrementProcessed id => exact ih
    | clear => rfl

end RegistryOp

namespace DashMapRegistry

open RegistryOp RegistryStatistics

/-! ## The lists after a call -/

theorem map_ite_of_ne {id : Uuid} {g : SubscriptionEntry → SubscriptionEntry}
    {l : List SubscriptionEntry} (h : ∀ s ∈ l, s.id ≠ id) :
    l.map (fun s => if s.id = id then g s else s) = l :=
  (List.map_congr_left fun s hs => if_neg (h s hs)).trans (List.map_id' l)

/-- Where an id occurs once, rewriting the first entry with it is rewriting every one. -/
theorem replaceF_eq_map {id : Uuid} {g : SubscriptionEntry → SubscriptionEntry}
    {l : List SubscriptionEntry} (h : (l.map (·.id)).Nodup) :
    (l.replaceF fun s => if s.id = id then some (g s) else none)
      = l.map fun s => if s.id = id then g s else s := by
  induction l with
  | nil => rfl
  | cons a l ih =>
    rw [List.map_cons, List.nodup_cons] at h
    obtain ⟨hnot, hrest⟩ := h
    rw [List.map_cons]
    by_cases ha : a.id = id
    · have hothers : ∀ s ∈ l, s.id ≠ id := fun s hs hid =>
        hnot (List.mem_map.mpr ⟨s, hs, hid.trans ha.symm⟩)
      have hfirst : (if a.id = id then some (g a) else none) = some (g a) := if_pos ha
      rw [List.replaceF_cons_of_some _ hfirst, if_pos ha, map_ite_of_ne hothers]
    · rw [List.replaceF_cons_of_none _ (by rw [if_neg ha]), if_neg ha, ih hrest]

section Calls

variable {r : DashMapRegistry} {live : List Registration} (h : Refines r live)
include h

/-- An id without a type is in no list. -/
theorem Refines.ne_of_not_typed {id : Uuid} (hnone : r.subscriptionToType[id]? = none) (t : TypeId)
    {s : SubscriptionEntry} (hs : s ∈ r.entries t) : s.id ≠ id := by
  intro hid
  obtain ⟨x, hx, hxid, -⟩ := h.mem_ids.mp (List.mem_map.mpr ⟨s, hs, hid⟩)
  exact h.not_typed hnone x hx hxid

/-- An id is in the list of its type only. -/
theorem Refines.ne_of_typed {id : Uuid} {t t' : TypeId}
    (htype : r.subscriptionToType[id]? = some t) (hne : t ≠ t') {s : SubscriptionEntry}
    (hs : s ∈ r.entries t') : s.id ≠ id := by
  intro hid
  exact ((h.occursOnce id t).mp htype).2 t' hne.symm (List.mem_map.mpr ⟨s, hs, hid⟩)

/-- `unregister` removes the entry, wherever it is. -/
theorem Refines.entries_unregister (id : Uuid) (t : TypeId) :
    (r.unregister id).2.entries t = (r.entries t).filter fun s => s.id != id := by
  have hall : (∀ s ∈ r.entries t, s.id ≠ id) →
      r.entries t = (r.entries t).filter fun s => s.id != id := fun hne =>
    (List.filter_eq_self.mpr fun s hs => by simpa using hne s hs).symm
  unfold DashMapRegistry.unregister
  cases htype : r.subscriptionToType[id]? with
  | none => exact hall fun s hs => h.ne_of_not_typed htype t hs
  | some t' =>
    dsimp only
    rw [entries_removeFromList, entries_removeFromTrie]
    split
    · rfl
    · rename_i hne
      exact hall fun s hs => h.ne_of_typed htype hne hs

/-- `deactivate` clears the flag of the entry, wherever it is. -/
theorem Refines.entries_deactivate (id : Uuid) (t : TypeId) :
    (r.deactivate id).2.entries t
      = (r.entries t).map fun s => if s.id = id then { s with active := false } else s := by
  unfold DashMapRegistry.deactivate
  cases htype : r.subscriptionToType[id]? with
  | none => exact (map_ite_of_ne fun s hs => h.ne_of_not_typed htype t hs).symm
  | some t' =>
    have hother : t' ≠ t → (r.entries t).map
        (fun s => if s.id = id then { s with active := false } else s) = r.entries t :=
      fun hne => map_ite_of_ne fun s hs => h.ne_of_typed htype hne hs
    cases hsubs : r.subscriptions[t']? with
    | none =>
      dsimp only
      rw [hsubs]
      by_cases htt : t' = t
      · subst htt
        simp [DashMapRegistry.entries, hsubs]
      · exact (hother htt).symm
    | some subs =>
      have hsame : r.entries t' = subs := by simp [DashMapRegistry.entries, hsubs]
      dsimp only
      rw [hsubs]
      dsimp only
      split
      · rw [entries_replaceEntry hsubs]
        split
        · exact replaceF_eq_map (h.nodup_ids t)
        · rename_i hne
          exact (hother hne).symm
      · rename_i hany
        have hnone : ∀ s ∈ subs, s.id ≠ id := by simpa using hany
        by_cases htt : t' = t
        · subst htt
          rw [hsame]
          exact (map_ite_of_ne hnone).symm
        · exact (hother htt).symm

end Calls

/-! ## The lists hold the enrolled subscriptions -/

/-- What the statistics look at. -/
def activity (s : SubscriptionEntry) : Uuid × Bool := (s.id, s.active)

/-- The lists hold exactly the subscriptions of the roll, in the state it says. -/
def Enrolled (r : DashMapRegistry) (roll : List (Uuid × Bool)) : Prop :=
  ∀ x, (∃ t, x ∈ (r.entries t).map activity) ↔ x ∈ roll

/-- **One call.** -/
theorem Enrolled.apply {r : DashMapRegistry} {live : List Registration} (h : Refines r live)
    {roll : List (Uuid × Bool)} (hroll : Enrolled r roll) (op : RegistryOp) :
    Enrolled (op.apply r) (enroll roll op) := by
  intro x
  cases op with
  | register t n s =>
    show _ ↔ x ∈ roll ++ [(s.id, s.active)]
    rw [List.mem_append, ← hroll x, List.mem_singleton]
    simp only [apply_register, entries_register]
    constructor
    · rintro ⟨t', hx⟩
      split at hx
      · rw [List.map_append, List.mem_append] at hx
        exact hx.imp (fun hold => ⟨t', hold⟩) List.mem_singleton.mp
      · exact .inl ⟨t', hx⟩
    · rintro (⟨t', hx⟩ | rfl)
      · refine ⟨t', ?_⟩
        split
        · rw [List.map_append]
          exact List.mem_append_left _ hx
        · exact hx
      · refine ⟨t, ?_⟩
        rw [if_pos rfl, List.map_append]
        exact List.mem_append_right _ (List.mem_singleton_self _)
  | unregister id =>
    show _ ↔ x ∈ roll.filter fun x => x.1 ≠ id
    rw [List.mem_filter, ← hroll x]
    simp only [apply_unregister, h.entries_unregister, List.mem_map, List.mem_filter]
    constructor
    · rintro ⟨t, s, ⟨hs, hid⟩, rfl⟩
      exact ⟨⟨t, s, hs, rfl⟩, decide_eq_true (show s.id ≠ id by simpa using hid)⟩
    · rintro ⟨⟨t, s, hs, rfl⟩, hid⟩
      have hne : s.id ≠ id := of_decide_eq_true hid
      exact ⟨t, s, ⟨hs, by simpa using hne⟩, rfl⟩
  | deactivate id =>
    show _ ↔ x ∈ roll.map fun x => if x.1 = id then (x.1, false) else x
    have hactivity : ∀ s : SubscriptionEntry,
        activity (if s.id = id then { s with active := false } else s)
          = if (activity s).1 = id then ((activity s).1, false) else activity s := by
      intro s
      unfold activity
      split <;> rfl
    simp only [apply_deactivate, h.entries_deactivate, List.mem_map]
    constructor
    · rintro ⟨t, _, ⟨s, hs, rfl⟩, rfl⟩
      exact ⟨activity s, (hroll _).mp ⟨t, List.mem_map_of_mem hs⟩, (hactivity s).symm⟩
    · rintro ⟨y, hy, rfl⟩
      obtain ⟨t, hmem⟩ := (hroll y).mpr hy
      obtain ⟨s, hs, rfl⟩ := List.mem_map.mp hmem
      exact ⟨t, _, ⟨s, hs, rfl⟩, hactivity s⟩
  | incrementProcessed id =>
    show _ ↔ x ∈ roll
    rw [← hroll x]
    have hsame := map_incrementProcessed (g := activity) (fun _ _ => rfl) r id
    simp only [apply_incrementProcessed, hsame]
  | clear =>
    show _ ↔ x ∈ []
    simp [DashMapRegistry.clear, DashMapRegistry.entries]

/-- **Every sequence of calls with fresh ids.** -/
theorem enrolled_run (ops : List RegistryOp) (hfresh : FreshIds ops) :
    Enrolled (run new ops) (enrolled ops) := by
  induction ops using List.reverseRecOn with
  | nil =>
    intro x
    simp [enrolled]
  | append_singleton ops op ih =>
    obtain ⟨hpre, -⟩ := hfresh.concat
    rw [run_concat, enrolled_concat]
    exact (ih hpre).apply (refines_run ops hpre) op

/-! ## What the statistics say -/

/-- All entries of all lists. -/
def allEntries (r : DashMapRegistry) : List SubscriptionEntry := r.eventTypes.flatMap r.entries

/-- The roll is the entries, in another order. -/
theorem perm_allEntries {r : DashMapRegistry} {live : List Registration} (h : Refines r live)
    {roll : List (Uuid × Bool)} (hroll : Enrolled r roll) (hnodup : (roll.map (·.1)).Nodup) :
    (r.allEntries.map activity).Perm roll := by
  have hids : (r.allEntries.map (·.id)).Nodup := by
    unfold allEntries
    rw [List.map_flatMap]
    exact h.nodup_flatMap_ids
  have hpairs : (r.allEntries.map activity).Nodup := by
    refine List.Nodup.of_map (·.1) ?_
    rw [List.map_map]
    exact hids
  rw [List.perm_ext_iff_of_nodup hpairs (List.Nodup.of_map _ hnodup)]
  intro x
  rw [← hroll x]
  unfold allEntries
  rw [List.map_flatMap, List.mem_flatMap]
  constructor
  · rintro ⟨t, -, hx⟩
    exact ⟨t, hx⟩
  · rintro ⟨t, hx⟩
    obtain ⟨s, hs, -⟩ := List.mem_map.mp hx
    exact ⟨t, mem_eventTypes_of_mem hs, hx⟩

/-- **What `stats` counts** of a `DashMapRegistry`: the active entries, and nothing else. -/
theorem stats_eq (r : DashMapRegistry) :
    stats r = ⟨r.eventTypes.length, r.allEntries.countP (·.active),
      r.allEntries.countP (·.active), 0⟩ := by
  have hsubs : ∀ t, r.getSubscriptions t = (r.entries t).filter (·.active) := r.getSubscriptions_eq
  have hall : r.eventTypes.flatMap r.getSubscriptions = r.allEntries.filter (·.active) := by
    unfold allEntries
    rw [List.filter_flatMap]
    exact congrArg (List.flatMap · r.eventTypes) (funext hsubs)
  have hnone : (r.allEntries.filter (·.active)).countP (!·.active) = 0 := by
    rw [List.countP_eq_zero]
    intro s hs
    simpa using (List.mem_filter.mp hs).2
  have hloop : (EventRegistry.eventTypes r).foldl (countType r) (0, 0, 0)
      = (r.allEntries.countP (·.active), r.allEntries.countP (·.active), 0) := by
    rw [foldl_countType, Nat.zero_add, Nat.zero_add, Nat.zero_add]
    show ((r.eventTypes.flatMap r.getSubscriptions).length,
      (r.eventTypes.flatMap r.getSubscriptions).countP _,
      (r.eventTypes.flatMap r.getSubscriptions).countP _) = _
    rw [hall, hnone, List.countP_filter, List.countP_eq_length_filter]
    simp only [Bool.and_self, List.countP_eq_length_filter]
  unfold stats
  dsimp only
  rw [hloop]
  rfl

/-- What the statistics are for. -/
structure StatsCount (r : DashMapRegistry) (roll : List (Uuid × Bool)) : Prop where
  inactive : (stats r).inactiveSubscriptions = roll.countP (!·.2)
  active : (stats r).activeSubscriptions = roll.countP (·.2)
  total : (stats r).totalSubscriptions
    = (stats r).activeSubscriptions + (stats r).inactiveSubscriptions
  registry : (stats r).totalSubscriptions = r.totalSubscriptions

/-- **The statistics are right** after a sequence of calls exactly if no registered
    subscription is inactive. -/
theorem statsCount_iff (ops : List RegistryOp) (hfresh : FreshIds ops) :
    StatsCount (run new ops) (enrolled ops) ↔ ∀ x ∈ enrolled ops, x.2 = true := by
  have h := refines_run ops hfresh
  have hnodup : ((enrolled ops).map (·.1)).Nodup := by
    rw [map_fst_enrolled]
    exact h.nodup
  have hperm := perm_allEntries h (enrolled_run ops hfresh) hnodup
  have hactive : (run new ops).allEntries.countP (·.active) = (enrolled ops).countP (·.2) := by
    rw [← hperm.countP_eq, List.countP_map]
    rfl
  have hlength : (run new ops).totalSubscriptions = (enrolled ops).length := by
    rw [h.total, ← hperm.length_eq, List.length_map]
    unfold allEntries
    rw [List.length_flatMap]
    congr 1
    exact List.map_congr_left fun t _ => subscriptionCount_eq _ t
  have hsplit : (enrolled ops).length
      = (enrolled ops).countP (·.2) + (enrolled ops).countP (!·.2) := by
    rw [List.length_eq_countP_add_countP (·.2)]
    congr 1
    exact List.countP_congr fun x _ => by simp
  have hall : (∀ x ∈ enrolled ops, x.2 = true) ↔ (enrolled ops).countP (!·.2) = 0 := by
    rw [List.countP_eq_zero]
    simp
  rw [hall]
  constructor
  · intro hcount
    have hinactive := hcount.inactive
    rw [stats_eq] at hinactive
    exact hinactive.symm
  · intro hzero
    refine ⟨?_, ?_, ?_, ?_⟩ <;> rw [stats_eq]
    · exact hzero.symm
    · exact hactive
    · rfl
    · show (run new ops).allEntries.countP (·.active) = _
      rw [hlength, hactive]
      omega

/-- An order subscription, and one that is removed again. -/
def orderSubscribed : List RegistryOp :=
  [.register 1 "Order" { id := 10 }, .register 1 "Order" { id := 30 }, .unregister 30]

theorem statsCount_iff_orderSubscribed : StatsCount (run new orderSubscribed)
    (enrolled orderSubscribed) := by
  have hfresh : FreshIds orderSubscribed := by
    unfold FreshIds orderSubscribed registeredId
    decide
  have henrolled : enrolled orderSubscribed = [(10, true)] := by decide
  refine (statsCount_iff orderSubscribed hfresh).mpr fun x hx => ?_
  rw [henrolled, List.mem_singleton] at hx
  rw [hx]

/-- Two order subscriptions, one of them deactivated. -/
def orderDeactivated : List RegistryOp :=
  [.register 1 "Order" { id := 10 }, .register 1 "Order" { id := 30 }, .deactivate 10]

/-- The statistics know of one subscription and of no inactive one; the registry has two. -/
theorem not_statsCount_orderDeactivated :
    stats (run new orderDeactivated) = ⟨1, 1, 1, 0⟩ ∧
      (run new orderDeactivated).totalSubscriptions = 2 ∧
      enrolled orderDeactivated = [(10, false), (30, true)] ∧
      ¬ StatsCount (run new orderDeactivated) (enrolled orderDeactivated) := by
  refine ⟨by decide, by decide, by decide, fun h => ?_⟩
  have hinactive := h.inactive
  revert hinactive
  decide

end DashMapRegistry
end TokioEvents
