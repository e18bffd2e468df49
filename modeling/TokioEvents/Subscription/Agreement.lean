/-
  TokioEvents.Subscription.Agreement

  The map of the subscription manager and the registry hold the same ids whenever nobody
  is in between.  The two ways to remove an id take opposite orders: `unsubscribe` asks
  the registry first, the auto-unsubscribe worker the map, and they can meet on one id.

  Everything is said about one id at a time.  `Life` is what the state says of an id,
  `Life.Step` what can happen to it, and every step of the system is such a step for each
  id (`life_step`).
-/

import TokioEvents.Subscription.Lifecycle

namespace TokioEvents

/-! ## The life of an id -/

/-- What the state of the system says of one id. -/
@[ext]
structure Life where
  /-- How far `subscribe_typed` has come, if it has begun. -/
  phase : Option SubscribePhase
  stored : Bool
  registered : Bool
  /-- The worker has taken it out of the map and not asked the registry yet. -/
  unregistering : Bool
  /-- A call has unregistered it and not looked into the map yet. -/
  removing : Bool
  /-- It has a handle, or is known to somebody who had one. -/
  shared : Bool

namespace Life

/-- What can happen to an id. -/
inductive Step : Life → Life → Prop where
  | stay (l : Life) : Step l l
  | subscribe (l : Life) (h : l.phase = none) : Step l { l with phase := some .spawned }
  | store (l : Life) (h : l.phase = some .spawned) :
    Step l { l with phase := some .stored, stored := true }
  | register (l : Life) (shared : Bool) (h : l.phase = some .stored) :
    Step l { l with phase := some .returned, registered := true, shared := shared }
  /-- Handles and requests come and go; a task whose subscription was stored is told by its
      closed channel that it is stored no more. -/
  | share (l : Life) (shared : Bool)
    (h : l.shared = true ∨ l.phase = some .returned ∨ (l.phase = some .stored ∧ l.stored = false)) :
    Step l { l with shared := shared }
  /-- The worker, first step. -/
  | take (l : Life) (hshared : l.shared = true) (h : l.stored = true) :
    Step l { l with stored := false, unregistering := true }
  /-- The worker, second step. -/
  | forget (l : Life) (h : l.unregistering = true) :
    Step l { l with unregistering := false, registered := false }
  /-- `unsubscribe`, first step. -/
  | unregister (l : Life) (hshared : l.shared = true) (h : l.registered = true) :
    Step l { l with registered := false, removing := true }
  /-- `unsubscribe`, second step. -/
  | remove (l : Life) (removing shared : Bool) (h : l.removing = true) :
    Step l { l with stored := false, removing := removing, shared := shared }

/-- **The invariant of an id.** Until `subscribe_typed` has returned nobody else knows it.
    From then on, if it is registered and not in the map, the worker is about to ask the
    registry, and if it is in the map and not registered, a call is about to look there. -/
structure Coherent (l : Life) : Prop where
  unshared : l.phase ≠ some .returned →
    l.shared = false ∧ l.registered = false ∧ l.unregistering = false ∧ l.removing = false ∧
      (l.stored = true ↔ l.phase = some .stored)
  registered : l.registered = true → l.stored = true ∨ l.unregistering = true
  stored : l.phase = some .returned → l.stored = true → l.registered = true ∨ l.removing = true
  unregistering : l.unregistering = true → l.stored = false
  removing : l.removing = true → l.registered = false

/-- An id that somebody else knows has been returned. -/
theorem Coherent.returned_of_shared {l : Life} (hl : l.Coherent) (h : l.shared = true) :
    l.phase = some .returned := by
  by_contra hphase
  rw [(hl.unshared hphase).1] at h
  cases h

theorem Coherent.returned_of_unregistering {l : Life} (hl : l.Coherent)
    (h : l.unregistering = true) : l.phase = some .returned := by
  by_contra hphase
  rw [(hl.unshared hphase).2.2.1] at h
  cases h

theorem Coherent.returned_of_removing {l : Life} (hl : l.Coherent) (h : l.removing = true) :
    l.phase = some .returned := by
  by_contra hphase
  rw [(hl.unshared hphase).2.2.2.1] at h
  cases h

theorem Coherent.step {l l' : Life} (hl : l.Coherent) (h : Step l l') : l'.Coherent := by
  cases h with
  | stay => exact hl
  | subscribe h =>
    obtain ⟨hshared, hregistered, hunregistering, hremoving, hstored⟩ := hl.unshared (by simp [h])
    have hnone : l.stored = false := by simpa [h] using hstored
    exact ⟨fun _ => ⟨hshared, hregistered, hunregistering, hremoving, by simp [hnone]⟩,
      hl.registered, by simp, hl.unregistering, hl.removing⟩
  | store h =>
    obtain ⟨hshared, hregistered, hunregistering, hremoving, -⟩ := hl.unshared (by simp [h])
    exact ⟨fun _ => ⟨hshared, hregistered, hunregistering, hremoving, by simp⟩,
      fun _ => .inl rfl, by simp, by simp [hunregistering], hl.removing⟩
  | register shared h =>
    -- nobody knew the id, so it is in the map still
    obtain ⟨-, -, hunregistering, hremoving, hstored⟩ := hl.unshared (by simp [h])
    exact ⟨by simp, fun _ => .inl (hstored.mpr h), fun _ _ => .inl rfl, hl.unregistering,
      by simp [hremoving]⟩
  | share shared h =>
    refine ⟨fun hphase => ?_, hl.registered, hl.stored, hl.unregistering, hl.removing⟩
    obtain ⟨hshared, -, -, -, hstored⟩ := hl.unshared hphase
    rcases h with h | h | ⟨hbegun, hgone⟩
    · cases h.symm.trans hshared
    · exact absurd h hphase
    · cases (hstored.mpr hbegun).symm.trans hgone
  | take hshared h =>
    have hphase := hl.returned_of_shared hshared
    exact ⟨absurd hphase, fun _ => .inr rfl, by simp, by simp, hl.removing⟩
  | forget h =>
    have hphase := hl.returned_of_unregistering h
    exact ⟨absurd hphase, by simp, by simp [hl.unregistering h], by simp, fun _ => rfl⟩
  | unregister hshared h =>
    have hphase := hl.returned_of_shared hshared
    exact ⟨absurd hphase, by simp, fun _ _ => .inr rfl, hl.unregistering, fun _ => rfl⟩
  | remove removing shared h =>
    have hphase := hl.returned_of_removing h
    have hregistered := hl.removing h
    exact ⟨absurd hphase, by simp [hregistered], by simp, fun _ => rfl, fun _ => hregistered⟩

end Life

/-! ## What the calls on the registry do to the index -/

namespace DashMapRegistry

theorem subscriptionToType_unregister (r : DashMapRegistry) (id i : Uuid) :
    (r.unregister id).2.subscriptionToType[i]?
      = if id = i then none else r.subscriptionToType[i]? := by
  unfold unregister
  cases htype : r.subscriptionToType[id]? with
  | none =>
    by_cases h : id = i
    · subst h
      simpa using htype
    · simp [h]
  | some t => simp [Std.ExtTreeMap.getElem?_erase]

theorem unregister_ok {r : DashMapRegistry} {id : Uuid} (h : (r.unregister id).1 = .ok ()) :
    (r.subscriptionToType[id]?).isSome = true := by
  unfold unregister at h
  split at h
  · cases h
  · simp [*]

theorem unregister_error {r : DashMapRegistry} {id : Uuid} {e : Error}
    (h : (r.unregister id).1 = .error e) : (r.unregister id).2 = r := by
  unfold unregister at h ⊢
  split at h
  · rfl
  · cases h

theorem subscriptionToType_incrementProcessed (r : DashMapRegistry) (id : Uuid) :
    (r.incrementProcessed id).subscriptionToType = r.subscriptionToType := by
  unfold incrementProcessed
  repeat' split
  all_goals rfl

end DashMapRegistry

namespace Lifecycle

variable {R : Type} {s s' s'' : Lifecycle R} {id j : Uuid}

/-! ## Who knows an id -/

/-- The id has a handle, or is known to somebody who had one. -/
def shared (s : Lifecycle R) (id : Uuid) : Bool :=
  (s.subscribers[id]?.any fun sub => decide (0 < sub.handles) || sub.signalled) ||
    s.unsubRx.contains id || decide (s.worker.id = some id) ||
    s.unsubscribes.any fun call => call.id == id

theorem getElem?_put (s : Lifecycle R) (id : Uuid) (sub : Subscriber) (j : Uuid) :
    (s.put id sub).subscribers[j]? = if id = j then some sub else s.subscribers[j]? := by
  simp [put, Std.ExtTreeMap.getElem?_insert]

/-- Who has no handle and has not been told anything shares nothing. -/
theorem shared_put_eq {sub' : Subscriber}
    (h : (s.subscribers[id]?.any fun sub => decide (0 < sub.handles) || sub.signalled)
      = (decide (0 < sub'.handles) || sub'.signalled)) :
    (s.put id sub').shared id = s.shared id := by
  have hget := getElem?_put s id sub' id
  rw [if_pos rfl] at hget
  refine congrArg (· || _ || _ || _) ?_
  rw [hget, h]
  rfl

/-- A handle shares its id. -/
theorem shared_of_handle {sub : Subscriber} (h : s.subscribers[id]? = some sub)
    (hsub : 0 < sub.handles ∨ sub.signalled = true) : s.shared id = true := by
  rcases hsub with hsub | hsub <;> simp [shared, h, hsub]

theorem shared_setPhase {call : UnsubscribeCall} {index : Nat} {phase : UnsubscribePhase}
    (h : s.unsubscribes[index]? = some call) (j : Uuid) :
    (s.setPhase index call.id phase).shared j = s.shared j := by
  have hcalls : ((s.setPhase index call.id phase).unsubscribes.any fun c => c.id == j)
      = s.unsubscribes.any fun c => c.id == j := Calls.any_set h rfl
  exact congrArg (_ || ·) hcalls

/-- A call shares its id. -/
theorem shared_of_call {call : UnsubscribeCall} {index : Nat}
    (h : s.unsubscribes[index]? = some call) : s.shared call.id = true := by
  have hany : (s.unsubscribes.any fun c => c.id == call.id) = true :=
    List.any_eq_true.mpr ⟨call, List.mem_of_getElem? h, by simp⟩
  simp [shared, hany]

/-- What the worker is busy with is shared. -/
theorem shared_of_worker (h : s.worker.id = some id) : s.shared id = true := by
  simp [shared, h]

variable [EventRegistry R] [DashMapBacked R]

/-! ## The index of the registry -/

/-- The registry has the id in its index. -/
def indexed (registry : R) (id : Uuid) : Bool :=
  ((DashMapBacked.dashMap registry).subscriptionToType[id]?).isSome

theorem indexed_register (r : R) (t : TypeId) (n : String) (entry : SubscriptionEntry) (j : Uuid) :
    indexed (EventRegistry.register r t n entry).2 j = (decide (entry.id = j) || indexed r j) := by
  unfold indexed
  rw [dashMap_register, DashMapRegistry.subscriptionToType_register]
  by_cases h : entry.id = j <;> simp [h]

theorem indexed_unregister (r : R) (id j : Uuid) :
    indexed (EventRegistry.unregister r id).2 j = (!decide (id = j) && indexed r j) := by
  unfold indexed
  rw [dashMap_unregister, DashMapRegistry.subscriptionToType_unregister]
  by_cases h : id = j <;> simp [h]

theorem indexed_incrementProcessed (r : R) (id j : Uuid) :
    indexed (EventRegistry.incrementProcessed r id) j = indexed r j := by
  unfold indexed
  rw [dashMap_incrementProcessed, DashMapRegistry.subscriptionToType_incrementProcessed]

/-- `unregister` finds exactly the ids of the index, and an id it does not find changes
    nothing there. -/
theorem indexed_of_unregister_ok {r : R} (h : (EventRegistry.unregister r id).1 = .ok ()) :
    indexed r id = true :=
  DashMapRegistry.unregister_ok ((DashMapBacked.unregister_fst r id).symm.trans h)

theorem indexed_unregister_error {r : R} {e : Error}
    (h : (EventRegistry.unregister r id).1 = .error e) (j : Uuid) :
    indexed (EventRegistry.unregister r id).2 j = indexed r j := by
  unfold indexed
  rw [dashMap_unregister,
    DashMapRegistry.unregister_error ((DashMapBacked.unregister_fst r id).symm.trans h)]

/-! ## The life of an id in the system -/

/-- What the state says of an id. -/
def life (s : Lifecycle R) (id : Uuid) : Life where
  phase := s.subscribers[id]?.map (·.phase)
  stored := decide (id ∈ s.subscriptions)
  registered := indexed s.registry id
  unregistering := decide (s.worker = .unregistering id)
  removing := s.unsubscribes.any fun call => call.id == id && call.isRemoving
  shared := s.shared id

/-- Between the two states only who knows the id has changed. -/
structure SharesOnly (s s' : Lifecycle R) (id : Uuid) : Prop where
  others : ∀ j, j ≠ id → s'.life j = s.life j
  own : s'.life id = { s.life id with shared := s'.shared id }

theorem SharesOnly.trans (h : SharesOnly s s' id) (h' : SharesOnly s' s'' id) :
    SharesOnly s s'' id where
  others j hj := (h'.others j hj).trans (h.others j hj)
  own := by rw [h'.own, h.own]

/-- Such a change is a step of the id, if somebody knew it. -/
theorem SharesOnly.step (h : SharesOnly s s' id)
    (hshared : s.shared id = true ∨ (s.life id).phase = some .returned ∨
      ((s.life id).phase = some .stored ∧ (s.life id).stored = false)) (j : Uuid) :
    Life.Step (s.life j) (s'.life j) := by
  by_cases hj : j = id
  · subst hj
    rw [h.own]
    exact .share _ _ hshared
  · rw [h.others j hj]
    exact .stay _

theorem life_put_of_ne (sub : Subscriber) (hj : j ≠ id) : (s.put id sub).life j = s.life j := by
  have hget := getElem?_put s id sub j
  rw [if_neg (Ne.symm hj)] at hget
  refine Life.ext ?_ rfl rfl rfl rfl ?_
  · exact congrArg (Option.map Subscriber.phase) hget
  · exact congrArg (fun o => Option.any _ o || _ || _ || _) hget

theorem phase_put (sub : Subscriber) : ((s.put id sub).life id).phase = some sub.phase := by
  simp [life, getElem?_put]

theorem sharesOnly_put {sub : Subscriber} (sub' : Subscriber) (h : s.subscribers[id]? = some sub)
    (hphase : sub'.phase = sub.phase) : SharesOnly s (s.put id sub') id where
  others j hj := life_put_of_ne sub' hj
  own := Life.ext ((phase_put sub').trans (by simp [life, h, hphase])) rfl rfl rfl rfl rfl

theorem sharesOnly_release (s : Lifecycle R) (id : Uuid) : SharesOnly s (s.release id) id := by
  unfold release
  split
  · rename_i sub hsub
    split
    · exact sharesOnly_put _ hsub rfl
    · exact ⟨fun _ _ => rfl, rfl⟩
  · exact ⟨fun _ _ => rfl, rfl⟩

/-- A subscription whose handles stay as they are stays what it is for everybody. -/
theorem life_put {sub : Subscriber} (sub' : Subscriber) (h : s.subscribers[id]? = some sub)
    (hphase : sub'.phase = sub.phase) (hhandles : sub'.handles = sub.handles)
    (hsignalled : sub'.signalled = sub.signalled) (j : Uuid) :
    (s.put id sub').life j = s.life j := by
  by_cases hj : j = id
  · subst hj
    rw [(sharesOnly_put sub' h hphase).own, shared_put_eq (by simp [h, hhandles, hsignalled])]
    rfl
  · exact life_put_of_ne sub' hj

theorem life_abort (s : Lifecycle R) (id j : Uuid) : (s.abort id).life j = s.life j := by
  unfold abort
  split
  · rename_i sub hsub
    refine life_put _ hsub ?_ ?_ ?_ j <;> rfl
  · rfl

/-! ## The calls of `unsubscribe` -/

section SetPhase

variable {call : UnsubscribeCall} {index : Nat} {phase : UnsubscribePhase}

/-- The phase of a call concerns its own id only. -/
theorem life_setPhase_of_ne (h : s.unsubscribes[index]? = some call) (hj : j ≠ call.id) :
    (s.setPhase index call.id phase).life j = s.life j := by
  have hne : (call.id == j) = false := by simpa using Ne.symm hj
  exact Life.ext rfl rfl rfl rfl (Calls.any_set h (by simp [hne])) (shared_setPhase h j)

theorem life_setPhase (phase : UnsubscribePhase) (h : s.unsubscribes[index]? = some call) :
    (s.setPhase index call.id phase).life call.id = { s.life call.id with
      removing := ((s.setPhase index call.id phase).life call.id).removing } :=
  Life.ext rfl rfl rfl rfl rfl (shared_setPhase h call.id)

/-- A call that neither was nor is removing. -/
theorem sharesOnly_setPhase (h : s.unsubscribes[index]? = some call)
    (hbefore : call.isRemoving = false)
    (hafter : (UnsubscribeCall.mk call.id phase).isRemoving = false) :
    SharesOnly s (s.setPhase index call.id phase) call.id where
  others j hj := life_setPhase_of_ne h hj
  own := Life.ext rfl rfl rfl rfl (Calls.any_set h (by simp [hbefore, hafter])) rfl

theorem removing_of_call (h : s.unsubscribes[index]? = some call)
    (hremoving : call.isRemoving = true) : (s.life call.id).removing = true :=
  List.any_eq_true.mpr ⟨call, List.mem_of_getElem? h, by simp [hremoving]⟩

/-- `unsubscribe` lets go of its handle. -/
theorem sharesOnly_finishCall (result : Except Error Unit)
    (h : s.unsubscribes[index]? = some call) (hbefore : call.isRemoving = false) :
    SharesOnly s (s.finishCall index call.id result) call.id :=
  (sharesOnly_setPhase h hbefore rfl).trans (sharesOnly_release _ _)

end SetPhase

/-- **A step of an `unsubscribe` call**, for every id. -/
theorem life_advance {index : Nat} (h : s.advance index = some s') (j : Uuid) :
    Life.Step (s.life j) (s'.life j) := by
  unfold advance at h
  split at h
  case h_1 id hcall =>
    have hshared : s.shared id = true := shared_of_call hcall
    split at h
    case h_1 registry hunregister =>
      cases h
      have hindexed : indexed s.registry id = true :=
        indexed_of_unregister_ok (by rw [hunregister])
      have hafter : indexed registry j = (!decide (id = j) && indexed s.registry j) := by
        rw [← indexed_unregister, hunregister]
      set s₁ : Lifecycle R := { s with registry := registry }
      by_cases hj : j = id
      · subst hj
        have hlife : (s₁.setPhase index j .unregistered).life j
            = { s.life j with registered := false, removing := true } :=
          Life.ext rfl rfl (hafter.trans (by simp)) rfl
            (Calls.any_set_of_pos hcall (by simp [UnsubscribeCall.isRemoving]))
            (shared_setPhase (s := s₁) hcall j)
        rw [hlife]
        exact .unregister _ hshared hindexed
      · have hlife : (s₁.setPhase index id .unregistered).life j = s.life j := by
          refine (life_setPhase_of_ne (s := s₁) hcall hj).trans ?_
          refine Life.ext rfl rfl (hafter.trans ?_) rfl rfl rfl
          simp [Ne.symm hj, life]
        rw [hlife]
        exact .stay _
    case h_2 e registry hunregister =>
      cases h
      -- the registry does not know the id, and the call returns
      have hsame : ({ s with registry := registry } : Lifecycle R).life = s.life := by
        funext i
        refine Life.ext rfl rfl ?_ rfl rfl rfl
        have herror : (EventRegistry.unregister s.registry id).1 = .error e := by rw [hunregister]
        have hindexed := indexed_unregister_error herror i
        rwa [hunregister] at hindexed
      have hshares := sharesOnly_finishCall (s := { s with registry := registry }) (.error e)
        hcall rfl
      rw [← hsame]
      exact hshares.step (.inl hshared) j
  case h_2 id hcall =>
    have hremoving : (s.life id).removing = true := removing_of_call hcall rfl
    split at h
    · cases h
      set s₁ : Lifecycle R := { s with subscriptions := s.subscriptions.erase id }
      by_cases hj : j = id
      · subst hj
        have hlife : (s₁.setPhase index j .removed).life j = { s.life j with
            stored := false, removing := ((s₁.setPhase index j .removed).life j).removing } :=
          Life.ext rfl (by simp [life, setPhase, s₁]) rfl rfl rfl
            (shared_setPhase (s := s₁) hcall j)
        rw [hlife]
        exact .remove _ _ _ hremoving
      · have hlife : (s₁.setPhase index id .removed).life j = s.life j := by
          refine (life_setPhase_of_ne (s := s₁) hcall hj).trans ?_
          exact Life.ext rfl (by simp [life, s₁, hj]) rfl rfl rfl rfl
        rw [hlife]
        exact .stay _
    · rename_i hgone
      cases h
      -- the worker was there first
      set s₁ := s.setPhase index id (.returned (.error (.subscriptionNotFound id)))
      have hrelease := sharesOnly_release s₁ id
      by_cases hj : j = id
      · subst hj
        have hstored : (s.life j).stored = false := decide_eq_false hgone
        have hlife : (s₁.release j).life j = { s.life j with
            stored := false
            removing := (s₁.life j).removing
            shared := (s₁.release j).shared j } := by
          rw [← hstored]
          refine hrelease.own.trans ?_
          rw [show s₁.life j = { s.life j with removing := (s₁.life j).removing } from
            life_setPhase _ hcall]
        exact hlife ▸ .remove _ _ _ hremoving
      · have hlife : (s₁.release id).life j = s.life j :=
          (hrelease.others j hj).trans (life_setPhase_of_ne hcall hj)
        exact hlife ▸ .stay _
  case h_3 id hcall =>
    cases h
    have hcall' : (s.abort id).unsubscribes[index]? = some ⟨id, .removed⟩ := by
      unfold abort
      split <;> exact hcall
    have hshares := sharesOnly_finishCall (.ok ()) hcall' rfl
    have hsame : (s.abort id).life = s.life := funext (life_abort s id)
    rw [← hsame]
    exact hshares.step (.inl (shared_of_call hcall')) j
  case h_4 => cases h

/-! ## Every step of the system -/

/-- What the worker is busy with matters to its id only. -/
theorem life_setWorker_of_ne (id : Uuid) {worker : AutoWorker} (hj : j ≠ id)
    (hbefore : s.worker.id = some id ∨ s.worker.id = none)
    (hafter : worker.id = some id ∨ worker.id = none) :
    ({ s with worker := worker } : Lifecycle R).life j = s.life j := by
  have hid : ∀ w : AutoWorker, w.id = some id ∨ w.id = none →
      w ≠ .unregistering j ∧ w.id ≠ some j := by
    intro w hw
    have hne : w.id ≠ some j := by
      rcases hw with hw | hw <;> simp [hw, Ne.symm hj]
    exact ⟨fun heq => hne (by rw [heq]; rfl), hne⟩
  obtain ⟨hun, hid₀⟩ := hid s.worker hbefore
  obtain ⟨hun', hid₁⟩ := hid worker hafter
  refine Life.ext rfl rfl rfl ?_ rfl ?_
  · show decide (worker = .unregistering j) = decide (s.worker = .unregistering j)
    rw [decide_eq_false hun, decide_eq_false hun']
  · simp [life, shared, hid₀, hid₁]

/-- **A step of the auto-unsubscribe worker**, for every id. -/
theorem life_auto (h : s.auto = some s') (j : Uuid) : Life.Step (s.life j) (s'.life j) := by
  unfold auto at h
  split at h
  case h_1 hworker =>
    split at h
    · rename_i id rest hrequests
      cases h
      set s₁ : Lifecycle R := { s with unsubRx := rest }
      by_cases hj : j = id
      · subst hj
        have hlife : ({ s₁ with worker := .received j } : Lifecycle R).life j = { s.life j with
            shared := ({ s₁ with worker := .received j } : Lifecycle R).shared j } :=
          Life.ext rfl rfl rfl (by simp [life, hworker]) rfl rfl
        rw [hlife]
        exact .share _ _ (.inl (by simp [life, shared, hrequests]))
      · have hrest : s₁.life j = s.life j :=
          Life.ext rfl rfl rfl rfl rfl (by simp [life, shared, hrequests, s₁, hj])
        rw [show ({ s₁ with worker := .received id } : Lifecycle R).life j = s₁.life j from
          life_setWorker_of_ne id hj (.inr (by simp [s₁, hworker, AutoWorker.id])) (.inl rfl),
          hrest]
        exact .stay _
    · cases h
  case h_2 id hworker =>
    have hbusy : s.worker.id = some id := by rw [hworker]; rfl
    split at h
    · rename_i hstored
      cases h
      set s₁ : Lifecycle R := { s with subscriptions := s.subscriptions.erase id }
      by_cases hj : j = id
      · subst hj
        have hlife : ({ s₁ with worker := .unregistering j } : Lifecycle R).life j
            = { s.life j with stored := false, unregistering := true } :=
          Life.ext rfl (by simp [life, s₁]) rfl (by simp [life]) rfl
            (by simp [life, shared, hworker, AutoWorker.id])
        rw [hlife]
        exact .take _ (shared_of_worker hbusy) (decide_eq_true hstored)
      · have herase : s₁.life j = s.life j :=
          Life.ext rfl (by simp [life, s₁, hj]) rfl rfl rfl rfl
        rw [show ({ s₁ with worker := .unregistering id } : Lifecycle R).life j = s₁.life j from
          life_setWorker_of_ne id hj (.inl hbusy) (.inl rfl), herase]
        exact .stay _
    · cases h
      have hshares : SharesOnly s { s with worker := .waiting } id := by
        refine ⟨fun i hi => ?_, ?_⟩
        · exact life_setWorker_of_ne id hi (.inl hbusy) (.inr rfl)
        · exact Life.ext rfl rfl rfl (by simp [life, hworker]) rfl rfl
      exact hshares.step (.inl (shared_of_worker hbusy)) j
  case h_3 id hworker =>
    have hbusy : s.worker.id = some id := by rw [hworker]; rfl
    cases h
    set s₁ : Lifecycle R := { s with registry := (EventRegistry.unregister s.registry id).2 }
    by_cases hj : j = id
    · subst hj
      have hlife : ({ s₁ with worker := .aborting j } : Lifecycle R).life j
          = { s.life j with unregistering := false, registered := false } :=
        Life.ext rfl rfl (by simp [life, s₁, indexed_unregister]) (by simp [life]) rfl
          (by simp [life, shared, hworker, AutoWorker.id])
      rw [hlife]
      exact .forget _ (decide_eq_true hworker)
    · have hunregister : s₁.life j = s.life j :=
        Life.ext rfl rfl (by simp [life, s₁, indexed_unregister, Ne.symm hj]) rfl rfl rfl
      rw [show ({ s₁ with worker := .aborting id } : Lifecycle R).life j = s₁.life j from
        life_setWorker_of_ne id hj (.inl hbusy) (.inl rfl), hunregister]
      exact .stay _
  case h_4 id hworker =>
    cases h
    have hbusy : (s.abort id).worker.id = some id := by
      unfold abort
      split <;> simp [put, hworker, AutoWorker.id]
    have hworker' : (s.abort id).worker ≠ .unregistering id := by
      unfold abort
      split <;> simp [put, hworker]
    have hshares : SharesOnly (s.abort id) { s.abort id with worker := .waiting } id :=
      ⟨fun i hi => life_setWorker_of_ne id hi (.inl hbusy) (.inr rfl),
        Life.ext rfl rfl rfl (by simp [life, hworker']) rfl rfl⟩
    have hsame : (s.abort id).life = s.life := funext (life_abort s id)
    rw [← hsame]
    exact hshares.step (.inl (shared_of_worker hbusy)) j

/-- A handler task that asks to be removed. -/
theorem sharesOnly_finishTask {sub : Subscriber} (h : s.subscribers[id]? = some sub) :
    SharesOnly s (s.finishTask id sub) id := by
  refine SharesOnly.trans (sharesOnly_put { sub with ended := true } h rfl)
    ⟨fun j hj => ?_, Life.ext rfl rfl rfl rfl rfl rfl⟩
  have hrequests : (s.unsubRx ++ [id]).contains j = s.unsubRx.contains j := by simp [hj]
  exact Life.ext rfl rfl rfl rfl rfl (congrArg (_ || · || _ || _) hrequests)

/-- `subscribe_typed` stores its subscription. -/
theorem life_store (h : s.store id = some s') (j : Uuid) : Life.Step (s.life j) (s'.life j) := by
  obtain ⟨sub, hsub, hstep⟩ := withSubscriber_eq_some.mp h
  split at hstep
  · rename_i hphase
    cases hstep
    set s₁ := s.put id { sub with phase := .stored }
    by_cases hj : j = id
    · subst hj
      have hlife : ({ s₁ with subscriptions := insert j s.subscriptions } : Lifecycle R).life j
          = { s.life j with phase := some .stored, stored := true } :=
        Life.ext (phase_put _) (by simp [life]) rfl rfl rfl
          (shared_put_eq (s := s) (by simp [hsub]))
      rw [hlife]
      exact .store _ (by simp [life, hsub, hphase])
    · have hlife : ({ s₁ with subscriptions := insert id s.subscriptions } : Lifecycle R).life j
          = s₁.life j :=
        Life.ext rfl (by simp [life, s₁, put, hj]) rfl rfl rfl rfl
      rw [hlife, life_put_of_ne _ hj]
      exact .stay _
  · cases hstep

/-- It registers its id and returns. -/
theorem life_register (h : s.register id = some s') (j : Uuid) :
    Life.Step (s.life j) (s'.life j) := by
  obtain ⟨sub, hsub, hstep⟩ := withSubscriber_eq_some.mp h
  split at hstep
  · rename_i hphase
    have hindexed : indexed (EventRegistry.register s.registry sub.eventType sub.typeName
        (sub.entry id)).2 j = (decide (id = j) || indexed s.registry j) :=
      indexed_register _ _ _ _ j
    have hok := DashMapBacked.register_ok s.registry sub.eventType sub.typeName (sub.entry id)
    split at hstep
    · rename_i registry hregister
      rw [hregister] at hindexed
      cases hstep
      set s₁ := s.put id { sub with phase := .returned, handles := 1 }
      by_cases hj : j = id
      · subst hj
        have hlife : ({ s₁ with registry := registry } : Lifecycle R).life j = { s.life j with
            phase := some .returned, registered := true, shared := s₁.shared j } :=
          Life.ext (phase_put _) rfl (hindexed.trans (by simp)) rfl rfl rfl
        rw [hlife]
        exact .register _ _ (by simp [life, hsub, hphase])
      · have hlife : ({ s₁ with registry := registry } : Lifecycle R).life j = s₁.life j :=
          Life.ext rfl rfl (hindexed.trans (by simp [Ne.symm hj]; rfl)) rfl rfl rfl
        rw [hlife, life_put_of_ne _ hj]
        exact .stay _
    · rename_i e registry hregister
      rw [hregister] at hok
      cases hok
  · cases hstep

/-- The handles of a subscription, and what its handler task does. -/
theorem life_handle {f : Subscriber → Option (Lifecycle R)}
    (h : s.withSubscriber id f = some s')
    (hf : ∀ sub, s.subscribers[id]? = some sub → f sub = some s' →
      SharesOnly s s' id ∧ (s.shared id = true ∨ (s.life id).phase = some .returned ∨
        ((s.life id).phase = some .stored ∧ (s.life id).stored = false))) (j : Uuid) :
    Life.Step (s.life j) (s'.life j) := by
  obtain ⟨sub, hsub, hstep⟩ := withSubscriber_eq_some.mp h
  obtain ⟨hshares, hshared⟩ := hf sub hsub hstep
  exact hshares.step hshared j

/-- **One step** of the system is a step for each id. -/
theorem life_step {a : LifecycleAction} (h : s.step a = some s') (j : Uuid) :
    Life.Step (s.life j) (s'.life j) := by
  cases a with
  | advance index => exact life_advance h j
  | auto => exact life_auto h j
  | store id => exact life_store h j
  | register id => exact life_register h j
  | subscribe id eventType typeName name topic filter =>
    simp only [step, subscribe] at h
    split at h
    · cases h
    · rename_i hnone
      cases h
      set sub : Subscriber :=
        ⟨eventType, typeName, name, topic, filter, .spawned, 0, false, false, false⟩
      by_cases hj : j = id
      · subst hj
        have hlife : (s.put j sub).life j = { s.life j with phase := some .spawned } :=
          Life.ext (phase_put _) rfl rfl rfl rfl (shared_put_eq (by simp [hnone, sub]))
        rw [hlife]
        exact .subscribe _ (by simp [life, hnone])
      · rw [life_put_of_ne _ hj]
        exact .stay _
  | clone id =>
    refine life_handle h (fun sub hsub hstep => ?_) j
    split at hstep <;> cases hstep
    exact ⟨sharesOnly_put _ hsub rfl, .inl (shared_of_handle hsub (.inl ‹_›))⟩
  | drop id =>
    refine life_handle h (fun sub hsub hstep => ?_) j
    split at hstep <;> cases hstep
    exact ⟨(sharesOnly_put { sub with handles := sub.handles - 1 } hsub rfl).trans
      (sharesOnly_release _ _), .inl (shared_of_handle hsub (.inl ‹_›))⟩
  | signal id =>
    refine life_handle h (fun sub hsub hstep => ?_) j
    split at hstep <;> cases hstep
    exact ⟨sharesOnly_put _ hsub rfl, .inl (shared_of_handle hsub (.inl ‹_›))⟩
  | unsubscribe id =>
    refine life_handle h (fun sub hsub hstep => ?_) j
    split at hstep <;> cases hstep
    refine ⟨?_, .inl (shared_of_handle hsub (.inl ‹_›))⟩
    refine SharesOnly.trans (sharesOnly_put { sub with handles := sub.handles - 1 } hsub rfl)
      ⟨fun i hi => ?_, ?_⟩
    · refine Life.ext rfl rfl rfl rfl ?_ ?_
      · simp [life, put, Ne.symm hi]
      · have hcalls : (s.unsubscribes ++ [UnsubscribeCall.mk id .started]).any
            (fun call => call.id == i) = s.unsubscribes.any fun call => call.id == i := by
          simp [Ne.symm hi]
        exact congrArg (_ || ·) hcalls
    · exact Life.ext rfl rfl rfl rfl (by simp [life, put, UnsubscribeCall.isRemoving]) rfl
  | processed id =>
    cases h
    have hlife : (s.processed id).life j = s.life j :=
      Life.ext rfl rfl (indexed_incrementProcessed s.registry id j) rfl rfl rfl
    rw [hlife]
    exact .stay _
  | shutdown id =>
    refine life_handle h (fun sub hsub hstep => ?_) j
    split at hstep
    · rename_i hready
      cases hstep
      rw [Bool.and_eq_true] at hready
      exact ⟨sharesOnly_finishTask hsub, .inl (shared_of_handle hsub (.inr hready.1))⟩
    · cases hstep
  | closed id =>
    refine life_handle h (fun sub hsub hstep => ?_) j
    split at hstep
    · rename_i hclosed
      cases hstep
      refine ⟨sharesOnly_finishTask hsub, .inr ?_⟩
      have hgone : (s.life id).stored = false := decide_eq_false hclosed.2.1
      have hphase : (s.life id).phase = some sub.phase := by simp [life, hsub]
      rw [hphase, hgone]
      cases hp : sub.phase with
      | spawned => exact absurd hp hclosed.1
      | stored => exact .inr ⟨rfl, rfl⟩
      | returned => exact .inl rfl
    · cases hstep
  | panic id =>
    obtain ⟨sub, hsub, hstep⟩ := withSubscriber_eq_some.mp h
    split at hstep <;> cases hstep
    rw [life_put { sub with ended := true } hsub rfl rfl rfl j]
    exact .stay _
  | cancelled id =>
    obtain ⟨sub, hsub, hstep⟩ := withSubscriber_eq_some.mp h
    split at hstep <;> cases hstep
    rw [life_put { sub with ended := true } hsub rfl rfl rfl j]
    exact .stay _

/-! ## Runs -/

/-- **The invariant holds of every id in every run.** -/
theorem coherent_new {registry : R} (hnew : DashMapBacked.dashMap registry = .new) (j : Uuid) :
    ((new registry).life j).Coherent := by
  have hindexed : indexed registry j = false := by simp [indexed, hnew, DashMapRegistry.new]
  have hlife : (new registry).life j = ⟨none, false, false, false, false, false⟩ :=
    Life.ext (by simp [life, new]) (by simp [life, new]) hindexed rfl rfl
      (by simp [life, shared, new, AutoWorker.id])
  rw [hlife]
  constructor <;> simp

theorem coherent_exec {as : List LifecycleAction} (hI : ∀ j, (s.life j).Coherent)
    (h : s.exec as = some s') (j : Uuid) : (s'.life j).Coherent :=
  Transition.invariant (I := fun s : Lifecycle R => ∀ j, (s.life j).Coherent)
    (fun _ _ _ hI hstep j => (hI j).step (life_step hstep j)) hI h j

end Lifecycle

namespace Life

/-- An id whose `subscribe_typed` has returned only loses. -/
theorem Step.losing {l l' : Life} (h : Step l l') (hl : l.phase = some .returned) :
    l'.phase = some .returned ∧ (l'.stored = true → l.stored = true) ∧
      (l'.registered = true → l.registered = true) := by
  cases h <;> simp_all

/-- An id that is stored stays stored until `subscribe_typed` has returned. -/
theorem Step.past {l l' : Life} (h : Step l l')
    (hl : l.phase = some .stored ∨ l.phase = some .returned) :
    l'.phase = some .stored ∨ l'.phase = some .returned := by
  cases h <;> simp_all

/-- Nothing has an id before it is stored. -/
theorem Coherent.phase {l : Life} (hl : l.Coherent) :
    (l.stored = true → l.phase = some .stored ∨ l.phase = some .returned) ∧
      (l.registered = true → l.phase = some .returned) := by
  obtain ⟨hunshared, -, -, -, -⟩ := hl
  grind

/-- **In between nobody**, the map and the registry agree. -/
theorem Coherent.agree {l : Life} (hl : l.Coherent)
    (hphase : l.phase = none ∨ l.phase = some .returned) (hworker : l.unregistering = false)
    (hcalls : l.removing = false) : l.stored = true ↔ l.registered = true := by
  rcases hphase with hnone | hreturned
  · obtain ⟨-, hregistered, -, -, hstored⟩ := hl.unshared (by simp [hnone])
    simp [hregistered, hstored, hnone]
  · constructor
    · intro h
      simpa [hcalls] using hl.stored hreturned h
    · intro h
      simpa [hworker] using hl.registered h

end Life

namespace Lifecycle

variable {R : Type} [EventRegistry R] [DashMapBacked R] {s s' : Lifecycle R} {id : Uuid}

theorem losing_exec {as : List LifecycleAction} (hphase : (s.life id).phase = some .returned)
    (h : s.exec as = some s') :
    (s'.life id).phase = some .returned ∧
      ((s'.life id).stored = true → (s.life id).stored = true) ∧
      ((s'.life id).registered = true → (s.life id).registered = true) := by
  refine Transition.invariant (I := fun t : Lifecycle R => (t.life id).phase = some .returned ∧
    ((t.life id).stored = true → (s.life id).stored = true) ∧
      ((t.life id).registered = true → (s.life id).registered = true)) ?_
    ⟨hphase, fun h => h, fun h => h⟩ h
  rintro t a t' ⟨hreturned, hstored, hregistered⟩ hstep
  obtain ⟨hreturned', hstored', hregistered'⟩ := (life_step hstep id).losing hreturned
  exact ⟨hreturned', fun h => hstored (hstored' h), fun h => hregistered (hregistered' h)⟩

/-- Who loses an id in a run loses it after `subscribe_typed` has returned. -/
theorem returned_of_lost {as : List LifecycleAction} (hI : (s.life id).Coherent)
    (hI' : (s'.life id).Coherent) (h : s.exec as = some s')
    (hlost : ((s.life id).stored = true ∧ (s'.life id).stored = false) ∨
      ((s.life id).registered = true ∧ (s'.life id).registered = false)) :
    (s'.life id).phase = some .returned := by
  rcases hlost with ⟨hstored, hlost⟩ | ⟨hregistered, -⟩
  · have hpast : (s'.life id).phase = some .stored ∨ (s'.life id).phase = some .returned :=
      Transition.invariant (I := fun t : Lifecycle R =>
        (t.life id).phase = some .stored ∨ (t.life id).phase = some .returned)
        (fun _ _ _ ht hstep => (life_step hstep id).past ht) (hI.phase.1 hstored) h
    rcases hpast with hphase | hphase
    · -- while `subscribe_typed` is in progress nobody takes it out
      have hkept := (hI'.unshared (by simp [hphase])).2.2.2.2.mpr hphase
      rw [hlost] at hkept
      cases hkept
    · exact hphase
  · exact (losing_exec (hI.phase.2 hregistered) h).1

/-! ## The lists of the registry -/

/-- The id is in some subscription list of the registry. -/
def Registered (registry : R) (id : Uuid) : Prop :=
  ∃ t, id ∈ ((DashMapBacked.dashMap registry).entries t).map (·.id)

/-- The lists and the index of the registry are views of the same registrations. -/
def Refined (s : Lifecycle R) : Prop :=
  ∃ live, (DashMapBacked.dashMap s.registry).Refines live

theorem Refined.registered_iff (h : s.Refined) (id : Uuid) :
    Registered s.registry id ↔ indexed s.registry id = true := by
  obtain ⟨live, hlive⟩ := h
  unfold Registered indexed
  rw [Option.isSome_iff_exists]
  exact exists_congr fun t => hlive.mem_ids.trans (hlive.typed id t).symm

theorem Refined.step {a : LifecycleAction} (hI : s.Refined)
    (hfresh : ∀ (id : Uuid) sub, s.subscribers[id]? = some sub → sub.phase = .stored →
      indexed s.registry id = false) (h : s.step a = some s') : s'.Refined := by
  obtain ⟨live, hlive⟩ := hI
  unfold Refined
  rcases registry_step h with heq | ⟨id, heq⟩ | ⟨id, heq⟩ | ⟨id, sub, hsub, hphase, heq⟩
  · rw [heq]
    exact ⟨live, hlive⟩
  · rw [heq, dashMap_unregister]
    exact ⟨_, hlive.unregister id⟩
  · rw [heq, dashMap_incrementProcessed]
    exact ⟨_, hlive.incrementProcessed id⟩
  · -- the id is registered once, after it was stored
    have hnew : id ∉ live.map (·.id) := by
      intro hmem
      obtain ⟨x, hx, rfl⟩ := List.mem_map.mp hmem
      have hindexed : indexed s.registry x.id = false := hfresh x.id sub hsub hphase
      have htype := (hlive.typed x.id x.eventType).mpr ⟨x, hx, rfl, rfl⟩
      simp [indexed, htype] at hindexed
    rw [heq, dashMap_register]
    exact ⟨_, hlive.register hnew⟩

/-- An id that `subscribe_typed` has not returned yet is not in the index. -/
theorem indexed_of_stored {sub : Subscriber} (hlife : ∀ j, (s.life j).Coherent)
    (hsub : s.subscribers[id]? = some sub) (hphase : sub.phase = .stored) :
    indexed s.registry id = false := by
  have hnot : (s.life id).phase ≠ some .returned := by simp [life, hsub, hphase]
  exact ((hlife id).unshared hnot).2.1

theorem refined_exec {as : List LifecycleAction} (hI : s.Refined)
    (hlife : ∀ j, (s.life j).Coherent) (h : s.exec as = some s') : s'.Refined :=
  (Transition.invariant (I := fun s : Lifecycle R => s.Refined ∧ ∀ j, (s.life j).Coherent)
    (fun _ _ _ hI hstep => ⟨hI.1.step (fun _ _ => indexed_of_stored hI.2) hstep,
      fun j => (hI.2 j).step (life_step hstep j)⟩)
    ⟨hI, hlife⟩ h).1

/-! ## Agreement -/

/-- When nobody is in between, an id is in the map exactly when it is in the index. -/
theorem Quiet.agree (hquiet : s.Quiet) (hlife : ∀ j, (s.life j).Coherent) (id : Uuid) :
    id ∈ s.subscriptions ↔ indexed s.registry id = true := by
  have hphase : (s.life id).phase = none ∨ (s.life id).phase = some .returned := by
    cases hsub : s.subscribers[id]? with
    | none => exact .inl (by simp [life, hsub])
    | some sub => exact .inr (by simp [life, hsub, hquiet.subscribes id sub hsub])
  have hworker : (s.life id).unregistering = false := by simp [life, hquiet.worker]
  have hcalls : (s.life id).removing = false := by
    have hreturned : ∀ call ∈ s.unsubscribes, call.isRemoving = false := by
      rintro ⟨i, phase⟩ hmem
      have := hquiet.unsubscribes _ hmem
      cases phase <;> first | rfl | cases this
    simp only [life, List.any_eq_false, Bool.and_eq_true, not_and, Bool.not_eq_true]
    exact fun call hmem _ => hreturned call hmem
  exact decide_eq_true_iff.symm.trans ((hlife id).agree hphase hworker hcalls)

/-- **The manager and the registry agree.** In every run from an empty registry: in a state
    where no call is in progress and no request for the worker is pending, the map has the
    ids that are registered; and an id that has been taken out of one of the two comes back
    to neither. -/
theorem manager_and_registry_agree {registry : R} (hnew : DashMapBacked.dashMap registry = .new)
    {as as₁ as₂ : List LifecycleAction} {s s₁ s₂ : Lifecycle R}
    (h : (new registry).exec as = some s) (h₁ : s.exec as₁ = some s₁)
    (h₂ : s₁.exec as₂ = some s₂) :
    (s.Quiet → ∀ id, id ∈ s.subscriptions ↔ Registered s.registry id) ∧
    ∀ id, ((id ∈ s.subscriptions ∧ id ∉ s₁.subscriptions) ∨
        (Registered s.registry id ∧ ¬ Registered s₁.registry id)) →
      (id ∉ s₁.subscriptions → id ∉ s₂.subscriptions) ∧
        (¬ Registered s₁.registry id → ¬ Registered s₂.registry id) := by
  have hlife : ∀ j, (s.life j).Coherent := coherent_exec (coherent_new hnew) h
  have hlife₁ : ∀ j, (s₁.life j).Coherent := coherent_exec hlife h₁
  have hrefined₀ : (new registry).Refined := ⟨[], by
    show (DashMapBacked.dashMap registry).Refines []
    rw [hnew]
    exact DashMapRegistry.refines_new⟩
  have hrefined : s.Refined := refined_exec hrefined₀ (coherent_new hnew) h
  have hrefined₁ : s₁.Refined := refined_exec hrefined hlife h₁
  have hrefined₂ : s₂.Refined := refined_exec hrefined₁ hlife₁ h₂
  refine ⟨fun hquiet id => (hquiet.agree hlife id).trans (hrefined.registered_iff id).symm,
    fun id hlost => ?_⟩
  rw [hrefined.registered_iff, hrefined₁.registered_iff] at hlost
  rw [hrefined₁.registered_iff, hrefined₂.registered_iff]
  have hreturned : (s₁.life id).phase = some .returned := by
    refine returned_of_lost (hlife id) (hlife₁ id) h₁ ?_
    simpa [life] using hlost
  obtain ⟨-, hstored, hregistered⟩ := losing_exec hreturned h₂
  refine ⟨fun hgone hback => hgone ?_, fun hgone hback => hgone (hregistered hback)⟩
  exact of_decide_eq_true (hstored (decide_eq_true hback))

/-- Two subscriptions, the first with two handles. -/
def twoSubscriptions : List LifecycleAction :=
  [.subscribe 1 1 "OrderEvent" "Handler<OrderEvent>" none none, .store 1, .register 1,
    .subscribe 2 1 "OrderEvent" "Handler<OrderEvent>" none none, .store 2, .register 2, .clone 1]

/-- One handle of the first is unsubscribed by itself and the other by the manager, and the
    call comes between the two steps of the worker. -/
def removedTwice : List LifecycleAction :=
  [.signal 1, .shutdown 1, .unsubscribe 1, .auto, .auto, .advance 0, .advance 0, .auto, .auto]

/-- The second handler goes on. -/
def afterwards : List LifecycleAction := [.processed 2, .clone 2, .drop 2]

theorem manager_and_registry_agree_removedTwice :
    ∃ s s₁ s₂ : Lifecycle DashMapRegistry,
      (new .new).exec twoSubscriptions = some s ∧ s.exec removedTwice = some s₁ ∧
      s₁.exec afterwards = some s₂ ∧ 1 ∈ s.subscriptions ∧ 2 ∈ s.subscriptions ∧
      (∀ id, id ∈ s.subscriptions ↔ Registered s.registry id) ∧
      1 ∉ s₂.subscriptions ∧
      (¬ Registered s₁.registry 1 → ¬ Registered s₂.registry 1) := by
  obtain ⟨s, h⟩ : ∃ s, (new (.new : DashMapRegistry)).exec twoSubscriptions = some s :=
    Option.isSome_iff_exists.mp (by decide +kernel)
  obtain ⟨s₁, h₁'⟩ : ∃ s₁, (new (.new : DashMapRegistry)).exec (twoSubscriptions ++ removedTwice)
      = some s₁ := Option.isSome_iff_exists.mp (by decide +kernel)
  have h₁ : s.exec removedTwice = some s₁ := (Transition.exec_append_of_exec _ h).symm.trans h₁'
  obtain ⟨s₂, h₂'⟩ : ∃ s₂, (new (.new : DashMapRegistry)).exec
      ((twoSubscriptions ++ removedTwice) ++ afterwards) = some s₂ :=
    Option.isSome_iff_exists.mp (by decide +kernel)
  have h₂ : s₁.exec afterwards = some s₂ := (Transition.exec_append_of_exec _ h₁').symm.trans h₂'
  have hbefore : ((new (.new : DashMapRegistry)).exec twoSubscriptions).map
      (fun s => (decide s.Quiet, s.subscriptions)) = some (true, {1, 2}) := by
    decide +kernel
  have hafter : ((new (.new : DashMapRegistry)).exec (twoSubscriptions ++ removedTwice)).map
      (fun s => s.subscriptions) = some {2} := by
    decide +kernel
  rw [h] at hbefore
  rw [h₁'] at hafter
  simp only [Option.map_some, Option.some.injEq, Prod.mk.injEq, decide_eq_true_eq]
    at hbefore hafter
  obtain ⟨hquiet, hsubscriptions⟩ := hbefore
  have hfirst : 1 ∈ s.subscriptions := by rw [hsubscriptions]; decide
  have hgone : (1 : Uuid) ∉ s₁.subscriptions := by rw [hafter]; decide
  have hagree := manager_and_registry_agree rfl h h₁ h₂
  obtain ⟨hstays, hnever⟩ := hagree.2 1 (.inl ⟨hfirst, hgone⟩)
  exact ⟨s, s₁, s₂, h, h₁, h₂, hfirst, by rw [hsubscriptions]; decide, hagree.1 hquiet,
    hstays hgone, hnever⟩

end Lifecycle
end TokioEvents
