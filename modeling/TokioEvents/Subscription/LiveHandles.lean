/-
  TokioEvents.Subscription.LiveHandles

  What `is_active` says about the registration of a subscription
  (`src/subscription/handle.rs`): a doc comment promises "Check if this subscription is
  still active", and `SubscriptionHandle::unsubscribe`, the drop of the last clone and the
  auto-unsubscribe worker keep to it.  `SubscriptionManager::unsubscribe` and the two
  shutdowns remove a subscription and leave the sender where it is, so the clones that
  remain go on answering true.

  As for the agreement of the two maps, everything is said about one id at a time:
  `Standing` is what the state says of an id, and `Standing.Step` what can happen to it.
-/

import TokioEvents.Subscription.Handles

namespace TokioEvents

/-! ## The standing of an id -/

/-- What the state of the system says of one id. -/
@[ext]
structure Standing where
  /-- How far `subscribe_typed` has come, if it has begun. -/
  phase : Option SubscribePhase
  stored : Bool
  registered : Bool
  /-- The worker has been asked to remove it. -/
  asked : Bool
  /-- The sender of its handles was used or dropped. -/
  signalled : Bool
  /-- A clone of its handle remains. -/
  held : Bool

namespace Standing

/-- A clone remains that says the subscription is active. -/
def live (l : Standing) : Bool := l.held && !l.signalled

/-- The subscription has been stored. -/
def Past (l : Standing) : Prop := l.phase = some .stored ∨ l.phase = some .returned

/-- Handles come to an end, and so do requests to the worker. -/
structure Fades (l l' : Standing) : Prop where
  phase : l'.phase = l.phase
  stored : l'.stored = l.stored
  registered : l'.registered = l.registered
  asked : l'.asked = true → l.asked = true
  signalled : l.signalled = true → l'.signalled = true
  held : l'.held = true → l.held = true

theorem Fades.refl (l : Standing) : Fades l l := ⟨rfl, rfl, rfl, id, id, id⟩

theorem Fades.of_eq {l l' : Standing} (h : l' = l) : Fades l l' := h ▸ .refl l

theorem Fades.trans {l l' l'' : Standing} (h : Fades l l') (h' : Fades l' l'') : Fades l l'' where
  phase := h'.phase.trans h.phase
  stored := h'.stored.trans h.stored
  registered := h'.registered.trans h.registered
  asked := h.asked ∘ h'.asked
  signalled := h'.signalled ∘ h.signalled
  held := h.held ∘ h'.held

theorem Fades.live {l l' : Standing} (h : Fades l l') (hlive : l'.live = true) :
    l.live = true := by
  unfold Standing.live at hlive ⊢
  rw [Bool.and_eq_true, Bool.not_eq_true'] at hlive ⊢
  refine ⟨h.held hlive.1, ?_⟩
  cases hsignalled : l.signalled with
  | false => rfl
  | true => rw [← hlive.2, h.signalled hsignalled]

/-- What can happen to an id in a step that meets a condition `C`: if it does, then nobody
    takes the id of a live handle away, apart from the worker, which has to be asked. -/
inductive Step (C : Prop) : Standing → Standing → Prop where
  | fade {l l' : Standing} (h : Fades l l') : Step C l l'
  | subscribe (l : Standing) (h : l.phase = none) : Step C l { l with phase := some .spawned }
  | store (l : Standing) (h : l.phase = some .spawned) :
    Step C l { l with phase := some .stored, stored := true }
  | register (l : Standing) (held signalled : Bool) (h : l.phase = some .stored)
    (hC : C → l.stored = true) (hsignalled : l.signalled = true → signalled = true) :
    Step C l { l with
      phase := some .returned, registered := true, held := held, signalled := signalled }
  /-- The handler task asks the worker when it ends. -/
  | ask (l : Standing) (h : l.signalled = true ∨ (l.stored = false ∧ l.Past)) :
    Step C l { l with asked := true }
  /-- The worker, first step. -/
  | take (l : Standing) (h : l.asked = true) : Step C l { l with stored := false }
  /-- The worker, second step. -/
  | forget (l : Standing) (h : l.asked = true) : Step C l { l with registered := false }
  /-- A call takes the id out of the map. -/
  | remove (l : Standing) (hC : C → l.live = false) : Step C l { l with stored := false }
  /-- A call takes the id out of the registry. -/
  | unregister (l : Standing) (hC : C → l.live = false) :
    Step C l { l with registered := false }

/-- **The invariant of an id.** The worker is asked only about a subscription whose handles
    are used up, or which the map has let go of, and the registry has no id before
    `subscribe_typed` returns it. -/
structure Sound (l : Standing) : Prop where
  asked : l.asked = true → l.signalled = true ∨ (l.stored = false ∧ l.Past)
  registered : l.registered = true → l.phase = some .returned

theorem Sound.step {C : Prop} {l l' : Standing} (hl : l.Sound) (h : Step C l l') : l'.Sound := by
  cases h with
  | fade h =>
    constructor
    · intro hasked
      rcases hl.asked (h.asked hasked) with hsignalled | ⟨hstored, hpast⟩
      · exact .inl (h.signalled hsignalled)
      · refine .inr ⟨h.stored.trans hstored, ?_⟩
        rwa [Past, h.phase]
    · rw [h.registered, h.phase]
      exact hl.registered
  | subscribe h =>
    refine ⟨fun hasked => ?_, fun hregistered => ?_⟩
    · exact (hl.asked hasked).imp_right fun hpast => by simp [Past, h] at hpast
    · cases h.symm.trans (hl.registered hregistered)
  | store h =>
    -- nobody asks for an id before it is stored
    refine ⟨fun hasked => ?_, fun hregistered => ?_⟩
    · exact (hl.asked hasked).imp_right fun hpast => by simp [Past, h] at hpast
    · cases h.symm.trans (hl.registered hregistered)
  | register held signalled h hC hsignalled =>
    refine ⟨fun hasked => ?_, fun _ => rfl⟩
    rcases hl.asked hasked with hold | ⟨hstored, -⟩
    · exact .inl (hsignalled hold)
    · exact .inr ⟨hstored, .inr rfl⟩
  | ask h => exact ⟨fun _ => h, hl.registered⟩
  | take h => exact ⟨fun hasked => (hl.asked hasked).imp_right fun hpast => ⟨rfl, hpast.2⟩,
      hl.registered⟩
  | forget h => exact ⟨hl.asked, nofun⟩
  | remove hC => exact ⟨fun hasked => (hl.asked hasked).imp_right fun hpast => ⟨rfl, hpast.2⟩,
      hl.registered⟩
  | unregister hC => exact ⟨hl.asked, nofun⟩

/-- A live handle speaks of a subscription that is there. -/
def Truthful (l : Standing) : Prop :=
  l.live = true → l.stored = true ∧ l.registered = true

/-- What the worker is asked to remove has no live handle. -/
theorem Truthful.not_live_of_asked {l : Standing} (hl : l.Truthful) (hsound : l.Sound)
    (hasked : l.asked = true) : l.live = false := by
  rcases hsound.asked hasked with hsignalled | ⟨hstored, -⟩
  · simp [live, hsignalled]
  · -- a live handle would have it in the map still
    cases hlive : l.live with
    | false => rfl
    | true => exact absurd (hl hlive).1 (by simp [hstored])

/-- **One step** that meets the condition keeps a live handle truthful. -/
theorem Truthful.step {C : Prop} {l l' : Standing} (hl : l.Truthful) (hsound : l.Sound) (hC : C)
    (h : Step C l l') : l'.Truthful := by
  have hgone : ∀ {m : Standing}, m.live = l.live → l.live = false → m.Truthful := by
    intro m hsame hnot hlive
    rw [hsame, hnot] at hlive
    cases hlive
  cases h with
  | fade h =>
    intro hlive
    rw [h.stored, h.registered]
    exact hl (h.live hlive)
  | subscribe h => exact hl
  | store h => exact fun hlive => ⟨rfl, (hl hlive).2⟩
  | register held signalled h hstored => exact fun _ => ⟨hstored hC, rfl⟩
  | ask h => exact hl
  | take h => exact hgone rfl (hl.not_live_of_asked hsound h)
  | forget h => exact hgone rfl (hl.not_live_of_asked hsound h)
  | remove hnot => exact hgone rfl (hnot hC)
  | unregister hnot => exact hgone rfl (hnot hC)

end Standing

namespace Handles

open Lifecycle (indexed indexed_register indexed_unregister indexed_incrementProcessed
  withSubscriber_eq_some getElem?_put)
open Standing (Step Fades)

variable {R : Type} {s s' : Handles R} {id : Uuid}

theorem clones_eq {sub : Subscriber} (h : s.manager.subscribers[id]? = some sub) :
    s.clones id = sub.handles - s.detached[id]?.getD 0 := by
  unfold clones
  rw [h]

theorem clones_of_none (h : s.manager.subscribers[id]? = none) : s.clones id = 0 := by
  unfold clones
  rw [h]

theorem get_put_self (m : Lifecycle R) (sub : Subscriber) :
    (m.put id sub).subscribers[id]? = some sub := by
  rw [getElem?_put, if_pos rfl]

variable [EventRegistry R] [DashMapBacked R]

/-! ## The standing of an id in the system -/

/-- What the state says of an id. -/
def standing (s : Handles R) (id : Uuid) : Standing where
  phase := s.manager.subscribers[id]?.map (·.phase)
  stored := decide (id ∈ s.manager.subscriptions)
  registered := indexed s.manager.registry id
  asked := s.manager.unsubRx.contains id || decide (s.manager.worker.id = some id)
  signalled := s.manager.subscribers[id]?.any (·.signalled)
  held := decide (0 < s.clones id)

theorem live_standing (s : Handles R) (id : Uuid) : (s.standing id).live = s.live id := by
  unfold Standing.live live standing isActive
  cases h : s.manager.subscribers[id]? with
  | none => simp [clones_of_none h]
  | some sub => rfl

/-- The handles of an id, in two states that know the same of its subscriber. -/
theorem standing_congr {t : Handles R}
    (hsub : t.manager.subscribers[id]? = s.manager.subscribers[id]?)
    (hdetached : t.detached[id]? = s.detached[id]?) :
    t.standing id = { s.standing id with
      stored := (t.standing id).stored
      registered := (t.standing id).registered
      asked := (t.standing id).asked } := by
  have hclones : t.clones id = s.clones id := by
    unfold clones
    rw [hsub, hdetached]
  refine Standing.ext ?_ rfl rfl rfl ?_ ?_
  · exact congrArg (Option.map Subscriber.phase) hsub
  · exact congrArg (Option.any Subscriber.signalled) hsub
  · exact congrArg (decide <| 0 < ·) hclones

theorem standing_put_of_ne {j : Uuid} (sub : Subscriber) (hj : j ≠ id) :
    (s.setManager (s.manager.put id sub)).standing j = s.standing j := by
  have hget := getElem?_put s.manager id sub j
  rw [if_neg (Ne.symm hj)] at hget
  exact standing_congr (t := s.setManager (s.manager.put id sub)) hget rfl

/-- The standing of an id that has a subscriber. -/
theorem standing_of_get {sub : Subscriber} (h : s.manager.subscribers[id]? = some sub) :
    s.standing id = { s.standing id with
      phase := some sub.phase
      signalled := sub.signalled
      held := decide (0 < sub.handles - s.detached[id]?.getD 0) } := by
  refine Standing.ext ?_ rfl rfl rfl ?_ ?_
  · exact congrArg (Option.map Subscriber.phase) h
  · exact congrArg (Option.any Subscriber.signalled) h
  · exact congrArg (decide <| 0 < ·) (clones_eq h)

/-- A subscriber that is given no new handle, unless it has a clone already. -/
theorem fades_put {sub : Subscriber} (sub' : Subscriber)
    (h : s.manager.subscribers[id]? = some sub) (hphase : sub'.phase = sub.phase)
    (hhandles : 0 < s.clones id ∨ sub'.handles ≤ sub.handles)
    (hsignalled : sub.signalled = true → sub'.signalled = true) (j : Uuid) :
    Fades (s.standing j) ((s.setManager (s.manager.put id sub')).standing j) := by
  by_cases hj : j = id
  · subst hj
    have hget : (s.manager.put j sub').subscribers[j]? = some sub' := get_put_self s.manager sub'
    rw [standing_of_get (s := s.setManager (s.manager.put j sub')) hget, standing_of_get h]
    refine ⟨congrArg some hphase, rfl, rfl, fun h => h, hsignalled, ?_⟩
    show decide _ = true → decide _ = true
    rw [decide_eq_true_iff, decide_eq_true_iff, ← clones_eq h]
    intro hheld
    rcases hhandles with hclones | hle
    · exact hclones
    · rw [clones_eq h]
      exact Nat.lt_of_lt_of_le hheld (Nat.sub_le_sub_right hle _)
  · exact .of_eq (standing_put_of_ne sub' hj)

theorem fades_release (s : Handles R) (id j : Uuid) :
    Fades (s.standing j) ((s.setManager (s.manager.release id)).standing j) := by
  unfold Lifecycle.release
  split
  · rename_i sub hsub
    split
    · exact fades_put { sub with signalled := true } hsub rfl (.inr le_rfl) (fun _ => rfl) j
    · exact .refl _
  · exact .refl _

theorem fades_abort (s : Handles R) (id j : Uuid) :
    Fades (s.standing j) ((s.setManager (s.manager.abort id)).standing j) := by
  unfold Lifecycle.abort
  split
  · rename_i sub hsub
    exact fades_put { sub with aborted := true } hsub rfl (.inr le_rfl) (fun h => h) j
  · exact .refl _

/-- The worker is through with an id. -/
theorem fades_waiting (s : Handles R) (j : Uuid) :
    Fades (s.standing j) ((s.setManager { s.manager with worker := .waiting }).standing j) where
  phase := rfl
  stored := rfl
  registered := rfl
  asked h := by
    have hrequested : s.manager.unsubRx.contains j = true := by
      simpa [standing, setManager, AutoWorker.id] using h
    simp only [standing, hrequested, Bool.true_or]
  signalled h := h
  held h := h

/-! ## The steps of the manager, for every id -/

variable {m : Lifecycle R} {C : Prop}

/-- Two states of the manager that say the same of an id. -/
theorem standing_of_same {j : Uuid} (hsub : m.subscribers[j]? = s.manager.subscribers[j]?)
    (hstored : j ∈ m.subscriptions ↔ j ∈ s.manager.subscriptions)
    (hregistered : indexed m.registry j = indexed s.manager.registry j)
    (hasked : (m.unsubRx.contains j || decide (m.worker.id = some j))
      = (s.manager.unsubRx.contains j || decide (s.manager.worker.id = some j))) :
    (s.setManager m).standing j = s.standing j :=
  (standing_congr (t := s.setManager m) hsub rfl).trans
    (Standing.ext rfl (decide_eq_decide.mpr hstored) hregistered hasked rfl rfl)

/-- The handler task ends and asks to be removed. -/
theorem step_finishTask {sub : Subscriber} (h : s.manager.subscribers[id]? = some sub)
    (hask : sub.signalled = true ∨ (id ∉ s.manager.subscriptions ∧ sub.phase ≠ .spawned))
    (j : Uuid) :
    Step C (s.standing j) ((s.setManager (s.manager.finishTask id sub)).standing j) := by
  by_cases hj : j = id
  · subst hj
    have hget : (s.manager.finishTask j sub).subscribers[j]? = some { sub with ended := true } :=
      get_put_self s.manager _
    have hafter : (s.setManager (s.manager.finishTask j sub)).standing j
        = { s.standing j with asked := true } := by
      rw [standing_of_get (s := s.setManager (s.manager.finishTask j sub)) hget, standing_of_get h]
      exact Standing.ext rfl rfl rfl (by simp [standing, setManager, Lifecycle.finishTask]) rfl rfl
    rw [hafter]
    refine .ask _ ?_
    rcases hask with hsignalled | ⟨hgone, hphase⟩
    · exact .inl (by simp [standing, h, hsignalled])
    · refine .inr ⟨decide_eq_false hgone, ?_⟩
      cases hp : sub.phase with
      | spawned => exact absurd hp hphase
      | stored => exact .inl (by simp [standing, h, hp])
      | returned => exact .inr (by simp [standing, h, hp])
  · refine .fade (.of_eq (standing_of_same ?_ Iff.rfl rfl ?_))
    · exact (getElem?_put s.manager id _ j).trans (if_neg (Ne.symm hj))
    · have hrequests : (s.manager.unsubRx ++ [id]).contains j = s.manager.unsubRx.contains j := by
        simp [hj]
      exact congrArg (· || _) hrequests

/-- `subscribe_typed` begins. -/
theorem step_subscribe {eventType : TypeId} {typeName name : String} {topic : Option String}
    {filter : Option (EventEnvelope → Bool)}
    (h : s.manager.subscribe id eventType typeName name topic filter = some m) (j : Uuid) :
    Step C (s.standing j) ((s.setManager m).standing j) := by
  unfold Lifecycle.subscribe at h
  split at h
  · cases h
  · rename_i hnone
    cases h
    set sub : Subscriber :=
      ⟨eventType, typeName, name, topic, filter, .spawned, 0, false, false, false⟩
    by_cases hj : j = id
    · subst hj
      -- nobody has a handle of a new id, before the step and after it
      have hbefore : s.standing j = { s.standing j with
          phase := none, signalled := false, held := false } := by
        refine Standing.ext ?_ rfl rfl rfl ?_ ?_
        · simp [standing, hnone]
        · simp [standing, hnone]
        · simp [standing, clones_of_none hnone]
      rw [standing_of_get (s := s.setManager (s.manager.put j sub)) (get_put_self s.manager sub)]
      have hheld : decide (0 < sub.handles - s.detached[j]?.getD 0) = false := by simp [sub]
      have hstep : Step C { s.standing j with phase := none, signalled := false, held := false }
          { s.standing j with phase := some .spawned, signalled := false, held := false } :=
        .subscribe _ rfl
      rw [← hbefore] at hstep
      exact hheld ▸ hstep
    · exact .fade (.of_eq (standing_put_of_ne _ hj))

/-- It stores its subscription. -/
theorem step_store (h : s.manager.store id = some m) (j : Uuid) :
    Step C (s.standing j) ((s.setManager m).standing j) := by
  obtain ⟨sub, hsub, hstep⟩ := withSubscriber_eq_some.mp h
  split at hstep
  · rename_i hphase
    cases hstep
    set sub' : Subscriber := { sub with phase := .stored }
    by_cases hj : j = id
    · subst hj
      have hafter : (s.setManager { s.manager.put j sub' with
          subscriptions := insert j s.manager.subscriptions }).standing j
          = { s.standing j with phase := some .stored, stored := true } := by
        rw [standing_of_get (s := s.setManager { s.manager.put j sub' with
          subscriptions := insert j s.manager.subscriptions }) (get_put_self s.manager sub'),
          standing_of_get hsub]
        exact Standing.ext rfl (by simp [standing, setManager]) rfl rfl rfl rfl
      rw [hafter]
      exact .store _ (by simp [standing, hsub, hphase])
    · refine .fade (.of_eq (standing_of_same ?_ ?_ rfl rfl))
      · exact (getElem?_put s.manager id sub' j).trans (if_neg (Ne.symm hj))
      · simp [hj]
  · cases hstep

/-- It registers its id and returns a handle. -/
theorem step_register (hC : C → id ∈ s.manager.subscriptions)
    (h : s.manager.register id = some m) (j : Uuid) :
    Step C (s.standing j) ((s.setManager m).standing j) := by
  obtain ⟨sub, hsub, hstep⟩ := withSubscriber_eq_some.mp h
  split at hstep
  · rename_i hphase
    have hindexed : indexed (EventRegistry.register s.manager.registry sub.eventType sub.typeName
        (sub.entry id)).2 j = (decide (id = j) || indexed s.manager.registry j) :=
      indexed_register _ _ _ _ j
    have hok :=
      DashMapBacked.register_ok s.manager.registry sub.eventType sub.typeName (sub.entry id)
    split at hstep
    · rename_i registry hregister
      rw [hregister] at hindexed
      cases hstep
      set sub' : Subscriber := { sub with phase := .returned, handles := 1 }
      by_cases hj : j = id
      · subst hj
        have hafter : (s.setManager { s.manager.put j sub' with registry := registry }).standing j
            = { s.standing j with
                phase := some .returned
                registered := true
                held := decide (0 < 1 - s.detached[j]?.getD 0)
                signalled := sub.signalled } := by
          rw [standing_of_get (s := s.setManager { s.manager.put j sub' with registry := registry })
            (get_put_self s.manager sub')]
          exact Standing.ext rfl rfl (hindexed.trans (by simp)) rfl rfl rfl
        rw [hafter]
        refine .register _ _ _ ?_ (fun h => decide_eq_true (hC h)) ?_
        · simp [standing, hsub, hphase]
        · simp [standing, hsub]
      · refine .fade (.of_eq (standing_of_same ?_ Iff.rfl ?_ rfl))
        · exact (getElem?_put s.manager id sub' j).trans (if_neg (Ne.symm hj))
        · exact hindexed.trans (by simp [Ne.symm hj])
    · rename_i e registry hregister
      rw [hregister] at hok
      cases hok
  · cases hstep

/-- The map lets go of an id. -/
theorem standing_erase (t : Handles R) (id j : Uuid) :
    (t.setManager { t.manager with
      subscriptions := t.manager.subscriptions.erase id }).standing j
      = if j = id then { t.standing j with stored := false } else t.standing j := by
  by_cases hj : j = id
  · subst hj
    rw [if_pos rfl]
    exact Standing.ext rfl (by simp [standing, setManager]) rfl rfl rfl rfl
  · rw [if_neg hj]
    exact Standing.ext rfl (by simp [standing, setManager, hj]) rfl rfl rfl rfl

/-- The registry lets go of an id. -/
theorem standing_unregister (t : Handles R) (id j : Uuid) :
    (t.setManager { t.manager with
      registry := (EventRegistry.unregister t.manager.registry id).2 }).standing j
      = if j = id then { t.standing j with registered := false } else t.standing j := by
  have hindexed := indexed_unregister t.manager.registry id j
  by_cases hj : j = id
  · subst hj
    rw [if_pos rfl]
    exact Standing.ext rfl rfl (hindexed.trans (by simp)) rfl rfl rfl
  · rw [if_neg hj]
    exact Standing.ext rfl rfl (hindexed.trans (by simp [Ne.symm hj]; rfl)) rfl rfl rfl

/-- A call takes an id out of the map. -/
theorem step_erase (t : Handles R) (hC : C → t.live id = false) (j : Uuid) :
    Step C (t.standing j) ((t.setManager { t.manager with
      subscriptions := t.manager.subscriptions.erase id }).standing j) := by
  rw [standing_erase]
  split
  · rename_i hj
    subst hj
    exact .remove _ fun h => (live_standing t j).trans (hC h)
  · exact .fade (.refl _)

/-- A call takes an id out of the registry. -/
theorem step_unregister (t : Handles R) (hC : C → t.live id = false) (j : Uuid) :
    Step C (t.standing j) ((t.setManager { t.manager with
      registry := (EventRegistry.unregister t.manager.registry id).2 }).standing j) := by
  rw [standing_unregister]
  split
  · rename_i hj
    subst hj
    exact .unregister _ fun h => (live_standing t j).trans (hC h)
  · exact .fade (.refl _)

/-- A step of an `unsubscribe` call. -/
theorem step_advanceCall {index : Nat} (h : s.manager.advance index = some m) (j : Uuid) :
    Step (s.Spares (.life (.advance index))) (s.standing j) ((s.setManager m).standing j) := by
  unfold Lifecycle.advance at h
  split at h
  case h_1 id hcall =>
    have hC : s.Spares (.life (.advance index)) → s.live id = false := fun hspares =>
      hspares.handles id (by simp [takes, hcall, UnsubscribeCall.takes])
    have hunregister := step_unregister s hC j
    split at h
    · rename_i registry heq
      cases h
      rw [heq] at hunregister
      exact hunregister
    · rename_i e registry heq
      cases h
      -- the registry does not know the id, and the call returns
      have hindexed := Lifecycle.indexed_unregister_error (by rw [heq]) j
      rw [heq] at hindexed
      have hsame : (s.setManager { s.manager with registry := registry }).standing j
          = s.standing j :=
        standing_of_same rfl Iff.rfl hindexed rfl
      rw [← hsame]
      exact .fade (fades_release (s.setManager
        ({ s.manager with registry := registry }.setPhase index id (.returned (.error e)))) id j)
  case h_2 id hcall =>
    have hC : s.Spares (.life (.advance index)) → s.live id = false := fun hspares =>
      hspares.handles id (by simp [takes, hcall, UnsubscribeCall.takes])
    split at h
    · cases h
      exact step_erase s hC j
    · cases h
      exact .fade (fades_release (s.setManager (s.manager.setPhase index id _)) id j)
  case h_3 id hcall =>
    cases h
    exact .fade ((fades_abort s id j).trans
      (fades_release (s.setManager ((s.manager.abort id).setPhase index id (.returned (.ok ()))))
        id j))
  case h_4 => cases h

/-- A step of the auto-unsubscribe worker. -/
theorem step_auto (h : s.manager.auto = some m) (j : Uuid) :
    Step C (s.standing j) ((s.setManager m).standing j) := by
  unfold Lifecycle.auto at h
  split at h
  case h_1 hworker =>
    split at h
    · rename_i id rest hrequests
      cases h
      -- the id goes from the channel to the worker
      refine .fade (.of_eq (standing_of_same rfl Iff.rfl rfl ?_))
      simp only [hworker, hrequests, AutoWorker.id, List.contains_cons, Option.some.injEq]
      grind
    · cases h
  case h_2 id hworker =>
    have hasked : (s.standing id).asked = true := by simp [standing, hworker, AutoWorker.id]
    split at h
    · cases h
      have hsame : (s.setManager { s.manager with
            subscriptions := s.manager.subscriptions.erase id
            worker := .unregistering id }).standing j
          = (s.setManager { s.manager with
            subscriptions := s.manager.subscriptions.erase id }).standing j :=
        Standing.ext rfl rfl rfl (by simp [standing, setManager, hworker, AutoWorker.id]) rfl rfl
      rw [hsame, standing_erase]
      split
      · rename_i hj
        exact .take _ (hj ▸ hasked)
      · exact .fade (.refl _)
    · cases h
      exact .fade (fades_waiting s j)
  case h_3 id hworker =>
    have hasked : (s.standing id).asked = true := by simp [standing, hworker, AutoWorker.id]
    cases h
    have hsame : (s.setManager { s.manager with
          registry := (EventRegistry.unregister s.manager.registry id).2
          worker := .aborting id }).standing j
        = (s.setManager { s.manager with
          registry := (EventRegistry.unregister s.manager.registry id).2 }).standing j :=
      Standing.ext rfl rfl rfl (by simp [standing, setManager, hworker, AutoWorker.id]) rfl rfl
    rw [hsame, standing_unregister]
    split
    · rename_i hj
      exact .forget _ (hj ▸ hasked)
    · exact .fade (.refl _)
  case h_4 id hworker =>
    cases h
    exact .fade ((fades_abort s id j).trans (fades_waiting (s.setManager (s.manager.abort id)) j))

/-- A step of the life of a subscription. -/
theorem step_life {a : LifecycleAction} (hpermits : s.permits a = true)
    (h : s.manager.step a = some m) (j : Uuid) :
    Step (s.Spares (.life a)) (s.standing j) ((s.setManager m).standing j) := by
  have hclones : ∀ id, a.handle = some id → 0 < s.clones id := by
    intro id hid
    unfold permits at hpermits
    rw [hid] at hpermits
    exact of_decide_eq_true hpermits
  cases a with
  | subscribe id eventType typeName name topic filter => exact step_subscribe h j
  | store id => exact step_store h j
  | register id => exact step_register (fun hspares => hspares.entries id rfl) h j
  | advance index => exact step_advanceCall h j
  | auto => exact step_auto h j
  | clone id =>
    obtain ⟨sub, hsub, hstep⟩ := withSubscriber_eq_some.mp h
    split at hstep <;> cases hstep
    exact .fade (fades_put { sub with handles := sub.handles + 1 } hsub rfl
      (.inl (hclones id rfl)) (fun h => h) j)
  | drop id =>
    obtain ⟨sub, hsub, hstep⟩ := withSubscriber_eq_some.mp h
    split at hstep <;> cases hstep
    -- the sender goes with the last clone
    have hput := fades_put { sub with handles := sub.handles - 1 } hsub rfl
      (.inl (hclones id rfl)) (fun h => h) j
    exact .fade (hput.trans (fades_release (s.setManager (s.manager.put id _)) id j))
  | signal id =>
    obtain ⟨sub, hsub, hstep⟩ := withSubscriber_eq_some.mp h
    split at hstep <;> cases hstep
    exact .fade (fades_put { sub with handles := sub.handles - 1, signalled := true } hsub rfl
      (.inl (hclones id rfl)) (fun _ => rfl) j)
  | unsubscribe id =>
    obtain ⟨sub, hsub, hstep⟩ := withSubscriber_eq_some.mp h
    split at hstep <;> cases hstep
    exact .fade (fades_put { sub with handles := sub.handles - 1 } hsub rfl
      (.inl (hclones id rfl)) (fun h => h) j)
  | processed id =>
    cases h
    exact .fade (.of_eq (standing_of_same rfl Iff.rfl
      (indexed_incrementProcessed s.manager.registry id j) rfl))
  | shutdown id =>
    obtain ⟨sub, hsub, hstep⟩ := withSubscriber_eq_some.mp h
    split at hstep
    · rename_i hready
      cases hstep
      rw [Bool.and_eq_true] at hready
      exact step_finishTask hsub (.inl hready.1) j
    · cases hstep
  | closed id =>
    obtain ⟨sub, hsub, hstep⟩ := withSubscriber_eq_some.mp h
    split at hstep
    · rename_i hclosed
      cases hstep
      exact step_finishTask hsub (.inr ⟨hclosed.2.1, hclosed.1⟩) j
    · cases hstep
  | panic id =>
    obtain ⟨sub, hsub, hstep⟩ := withSubscriber_eq_some.mp h
    split at hstep <;> cases hstep
    exact .fade (fades_put { sub with ended := true } hsub rfl (.inr le_rfl) (fun h => h) j)
  | cancelled id =>
    obtain ⟨sub, hsub, hstep⟩ := withSubscriber_eq_some.mp h
    split at hstep <;> cases hstep
    exact .fade (fades_put { sub with ended := true } hsub rfl (.inr le_rfl) (fun h => h) j)

/-! ## Shutdowns and detached clones, for every id -/

theorem indexed_clear (r : R) (j : Uuid) : indexed (EventRegistry.clear r) j = false := by
  have hclear : DashMapBacked.dashMap (EventRegistry.clear r)
      = (DashMapBacked.dashMap r).clear := DashMapBacked.dashMap_apply r .clear
  unfold indexed
  rw [hclear]
  simp [DashMapRegistry.clear]

theorem fades_abortAll (s : Handles R) (j : Uuid) :
    Fades (s.standing j) ((s.setManager (abortAll s.manager)).standing j) := by
  have hget : (abortAll s.manager).subscribers[j]?
      = s.manager.subscribers[j]?.map fun sub =>
        if j ∈ s.manager.subscriptions then { sub with aborted := true } else sub := by
    simp [abortAll, Std.ExtTreeMap.getElem?_map]
  cases hsub : s.manager.subscribers[j]? with
  | none =>
    rw [hsub] at hget
    exact .of_eq (standing_of_same (hget.trans hsub.symm) Iff.rfl rfl rfl)
  | some sub =>
    rw [hsub, Option.map_some] at hget
    rw [standing_of_get (s := s.setManager (abortAll s.manager)) hget, standing_of_get hsub]
    refine .of_eq (Standing.ext ?_ rfl rfl rfl ?_ ?_)
    all_goals
      dsimp only
      split <;> rfl

/-- A step of a shutdown. -/
theorem step_advance {index : Nat} (h : s.advance index = some s') (j : Uuid) :
    Step (s.Spares (.advance index)) (s.standing j) (s'.standing j) := by
  unfold advance at h
  split at h
  case h_1 hcall =>
    cases h
    -- `registry.clear()` takes every id
    have hC : s.Spares (.advance index) → s.live j = false := fun hspares =>
      hspares.handles j (by simp [takes, hcall, ManagerShutdown.takes])
    have hafter : (s.setManager { s.manager with
          registry := EventRegistry.clear s.manager.registry }).standing j
        = { s.standing j with registered := false } :=
      Standing.ext rfl rfl (indexed_clear _ j) rfl rfl rfl
    show Step _ _ ((s.setManager { s.manager with
      registry := EventRegistry.clear s.manager.registry }).standing j)
    rw [hafter]
    exact .unregister _ fun h => (live_standing s j).trans (hC h)
  case h_2 hcall =>
    cases h
    exact .fade (fades_abortAll s j)
  case h_3 hcall =>
    cases h
    have hC : s.Spares (.advance index) → s.live j = false := fun hspares =>
      hspares.handles j (by simp [takes, hcall, ManagerShutdown.takes])
    have hafter : (s.setManager { s.manager with subscriptions := ∅ }).standing j
        = { s.standing j with stored := false } :=
      Standing.ext rfl (by simp [standing, setManager]) rfl rfl rfl rfl
    show Step _ _ ((s.setManager { s.manager with subscriptions := ∅ }).standing j)
    rw [hafter]
    exact .remove _ fun h => (live_standing s j).trans (hC h)
  case h_4 id ids handles hcall =>
    split at h
    · cases h
      refine step_erase s (fun hspares => hspares.handles id ?_) j
      simp [takes, hcall, ManagerShutdown.takes]
    · cases h
      exact .fade (.refl _)
  case h_5 id ids handles hcall =>
    cases h
    refine step_unregister s (fun hspares => hspares.handles id ?_) j
    simp [takes, hcall, ManagerShutdown.takes]
  case h_6 =>
    cases h
    exact .fade (.refl _)
  case h_7 =>
    split at h
    · cases h
      exact .fade (.refl _)
    · cases h
  case h_8 =>
    cases h
    exact .fade (.refl _)
  case h_9 => cases h

/-- A clone is detached. -/
theorem fades_detach (h : s.detach id = some s') (j : Uuid) :
    Fades (s.standing j) (s'.standing j) := by
  unfold detach at h
  split at h
  · cases h
    refine ⟨rfl, rfl, rfl, fun h => h, fun h => h, fun hheld => ?_⟩
    -- the sender stays, with one clone less to ask
    set t : Handles R := { s with
      detached := s.detached.insert id (s.detached[id]?.getD 0 + 1) }
    have hmore : s.detached[j]?.getD 0 ≤ t.detached[j]?.getD 0 := by
      show _ ≤ (s.detached.insert id (s.detached[id]?.getD 0 + 1))[j]?.getD 0
      rw [Std.ExtTreeMap.getElem?_insert]
      split
      · rename_i heq
        obtain rfl := Std.LawfulEqCmp.eq_of_compare heq
        exact Nat.le_succ _
      · exact le_rfl
    have hfewer : t.clones j ≤ s.clones j := by
      cases hsub : s.manager.subscribers[j]? with
      | none => exact (clones_of_none (s := t) hsub).le.trans (Nat.zero_le _)
      | some sub =>
        rw [clones_eq (s := t) hsub, clones_eq hsub]
        exact Nat.sub_le_sub_left hmore _
    exact decide_eq_true (Nat.lt_of_lt_of_le (of_decide_eq_true hheld) hfewer)
  · cases h

/-- **One step** of the system is a step for each id. -/
theorem standing_step {a : HandlesAction} (h : s.step a = some s') (j : Uuid) :
    Step (s.Spares a) (s.standing j) (s'.standing j) := by
  cases a with
  | life a =>
    simp only [step] at h
    split at h
    · rename_i hpermits
      obtain ⟨m, hm, rfl⟩ := Option.map_eq_some_iff.mp h
      exact step_life hpermits hm j
    · cases h
  | detach id => exact .fade (fades_detach h j)
  | shutdown =>
    cases h
    exact .fade (.refl _)
  | shutdownGracefully ids =>
    simp only [step, shutdownGracefully] at h
    split at h <;> cases h
    exact .fade (.refl _)
  | advance index => exact step_advance h j
  | drop index =>
    simp only [step, dropShutdown] at h
    split at h <;> cases h
    exact .fade (.refl _)

/-! ## Runs -/

/-- The invariant: every id is sound, and the lists of the registry agree with its index. -/
structure Inv (s : Handles R) : Prop where
  sound : ∀ j, (s.standing j).Sound
  refined : s.manager.Refined

theorem inv_new {registry : R} (hnew : DashMapBacked.dashMap registry = .new) :
    (new registry).Inv := by
  have hindexed : ∀ j, indexed registry j = false := by simp [indexed, hnew, DashMapRegistry.new]
  refine ⟨fun j => ⟨fun hasked => ?_, fun hregistered => ?_⟩, [], ?_⟩
  · simp [standing, new, Lifecycle.new, AutoWorker.id] at hasked
  · cases (hindexed j).symm.trans hregistered
  · show (DashMapBacked.dashMap registry).Refines []
    rw [hnew]
    exact DashMapRegistry.refines_new

theorem truthful_iff (h : s.Inv) : s.Truthful ↔ ∀ j, (s.standing j).Truthful := by
  refine forall_congr' fun j => ?_
  unfold Standing.Truthful
  rw [live_standing, h.refined.registered_iff j]
  exact imp_congr_right fun _ => and_congr_left' decide_eq_true_iff.symm

/-- A shutdown keeps the lists and the index together. -/
theorem refined_advance {index : Nat} (hs : s.manager.Refined) (h : s.advance index = some s') :
    s'.manager.Refined := by
  unfold advance at h
  split at h
  case h_1 =>
    cases h
    have hclear : DashMapBacked.dashMap (EventRegistry.clear s.manager.registry)
        = (DashMapBacked.dashMap s.manager.registry).clear :=
      DashMapBacked.dashMap_apply s.manager.registry .clear
    refine ⟨[], ?_⟩
    show (DashMapBacked.dashMap (EventRegistry.clear s.manager.registry)).Refines []
    rw [hclear]
    exact DashMapRegistry.refines_clear _
  case h_5 id ids handles hcall =>
    cases h
    obtain ⟨live, hlive⟩ := hs
    show ∃ live, (DashMapBacked.dashMap (EventRegistry.unregister s.manager.registry id).2).Refines
      live
    rw [dashMap_unregister]
    exact ⟨_, hlive.unregister id⟩
  case h_4 =>
    split at h <;> (cases h; exact hs)
  case h_7 =>
    split at h <;> cases h
    exact hs
  case h_9 => cases h
  all_goals
    cases h
    exact hs

theorem Inv.step {a : HandlesAction} (hs : s.Inv) (h : s.step a = some s') : s'.Inv := by
  refine ⟨fun j => (hs.sound j).step (standing_step h j), ?_⟩
  cases a with
  | life a =>
    simp only [Handles.step] at h
    split at h
    · obtain ⟨m, hm, rfl⟩ := Option.map_eq_some_iff.mp h
      refine hs.refined.step (fun id sub hsub hphase => ?_) hm
      -- an id is registered when `subscribe_typed` has returned, and not before
      cases hindexed : indexed s.manager.registry id with
      | false => rfl
      | true =>
        have hreturned := (hs.sound id).registered hindexed
        simp [standing, hsub, hphase] at hreturned
    · cases h
  | detach id =>
    simp only [Handles.step, detach] at h
    split at h <;> cases h
    exact hs.refined
  | shutdown =>
    cases h
    exact hs.refined
  | shutdownGracefully ids =>
    simp only [Handles.step, shutdownGracefully] at h
    split at h <;> cases h
    exact hs.refined
  | advance index => exact refined_advance hs.refined h
  | drop index =>
    simp only [Handles.step, dropShutdown] at h
    split at h <;> cases h
    exact hs.refined

theorem Truthful.step {a : HandlesAction} (hs : s.Truthful) (hinv : s.Inv) (hspares : s.Spares a)
    (h : s.step a = some s') : s'.Truthful := by
  rw [truthful_iff (hinv.step h)]
  rw [truthful_iff hinv] at hs
  exact fun j => (hs j).step (hinv.sound j) hspares (standing_step h j)

/-- **A live handle tells the truth** in every state of a run, whatever the handles, the
    handler tasks and the auto-unsubscribe worker do, if no step of
    `SubscriptionManager::unsubscribe`, `shutdown` or `shutdown_gracefully` takes the
    subscription of a live handle out of the registry or out of the map. -/
theorem truthful_throughout {registry : R} (hnew : DashMapBacked.dashMap registry = .new)
    {as : List HandlesAction} (hspares : Transition.Along step Spares (new registry) as) :
    Transition.Throughout step Truthful (new registry) as := by
  have hfirst : (new registry).Truthful := by
    intro id hlive
    simp [live, clones, new, Lifecycle.new] at hlive
  exact Transition.throughout_along (I := fun s : Handles R => s.Inv ∧ s.Truthful)
    (fun _ _ _ hs hC hstep => ⟨hs.1.step hstep, hs.2.step hs.1 hC hstep⟩) (fun _ hs => hs.2)
    ⟨inv_new hnew, hfirst⟩ hspares

/-- A subscription to `OrderEvent`. -/
def subscribeOrders (id : Uuid) : List HandlesAction :=
  [.life (.subscribe id 1 "OrderEvent" "Handler<OrderEvent>" none none), .life (.store id),
    .life (.register id)]

/-- Two subscriptions with two clones each.  One is given up through its own handle, and its
    other clone is then handed to the manager; the other loses one clone and is kept by the
    second. -/
def givenUp : List HandlesAction :=
  subscribeOrders 1 ++ subscribeOrders 2 ++
    [.life (.clone 1), .life (.clone 2), .life (.signal 1), .life (.unsubscribe 1),
      .life (.advance 0), .life (.advance 0), .life (.advance 0), .life (.shutdown 1), .life .auto,
      .life .auto, .life (.drop 2)]

theorem truthful_throughout_givenUp :
    ∃ s : Handles DashMapRegistry, (new .new).exec givenUp = some s ∧ s.live 2 = true ∧
      2 ∈ s.manager.subscriptions ∧ Lifecycle.Registered s.manager.registry 2 := by
  obtain ⟨s, hexec⟩ : ∃ s, (new (.new : DashMapRegistry)).exec givenUp = some s :=
    Option.isSome_iff_exists.mp (by decide +kernel)
  have hlive : ((new (.new : DashMapRegistry)).exec givenUp).map (fun s => s.live 2)
      = some true := by
    decide +kernel
  rw [hexec, Option.map_some, Option.some.injEq] at hlive
  have hspares : Transition.Along step Spares (new (.new : DashMapRegistry)) givenUp := by
    decide +kernel
  exact ⟨s, hexec, hlive, (truthful_throughout rfl hspares).last hexec 2 hlive⟩

/-! ## What the code does otherwise -/

/-- Of two clones one is handed to `EventBus::unsubscribe`. -/
def unsubscribedOnce : List HandlesAction :=
  subscribeOrders 1 ++ [.life (.clone 1), .life (.unsubscribe 1), .life (.advance 0),
    .life (.advance 0), .life (.advance 0)]

/-- The manager is shut down. -/
def shutDown : List HandlesAction :=
  subscribeOrders 1 ++ [.shutdown, .advance 0, .advance 0, .advance 0]

/-- It is shut down gracefully: the handler task ends, and the worker ignores its request. -/
def shutDownGracefully : List HandlesAction :=
  subscribeOrders 1 ++ [.shutdownGracefully [1], .advance 0, .advance 0, .advance 0,
    .life (.closed 1), .advance 0, .advance 0, .life .auto, .life .auto]

/-- `subscribe_typed` is overtaken by a shutdown: its entry is gone when it registers the id. -/
def overtaken : List HandlesAction :=
  [.life (.subscribe 1 1 "OrderEvent" "Handler<OrderEvent>" none none), .life (.store 1),
    .shutdown, .advance 0, .advance 0, .advance 0, .life (.register 1)]

/-- When everything is over, a clone remains that says the subscription is active, and the
    subscription is gone. -/
def LeavesLie (as : List HandlesAction) : Prop :=
  ∃ s : Handles DashMapRegistry, (new .new).exec as = some s ∧ s.Quiet ∧ s.live 1 = true ∧
    1 ∉ s.manager.subscriptions ∧ ¬ s.Truthful

theorem leavesLie_of_any {as : List HandlesAction}
    (h : ((new (.new : DashMapRegistry)).exec as).any (fun s =>
      decide s.Quiet && s.live 1 && !decide (1 ∈ s.manager.subscriptions)) = true) :
    LeavesLie as := by
  obtain ⟨s, hexec, hs⟩ := (Option.any_eq_true _ _).mp h
  simp only [Bool.and_eq_true, decide_eq_true_eq, Bool.not_eq_true', decide_eq_false_iff_not]
    at hs
  obtain ⟨⟨hquiet, hlive⟩, hgone⟩ := hs
  exact ⟨s, hexec, hquiet, hlive, hgone, fun htrue => hgone (htrue 1 hlive).1⟩

/-- Each of the three calls leaves a clone behind that goes on saying so, and a shutdown leaves
    the handle of a subscription that it overtakes. -/
theorem leavesLie_unsubscribe_shutdown :
    LeavesLie unsubscribedOnce ∧ LeavesLie shutDown ∧ LeavesLie shutDownGracefully ∧
      LeavesLie overtaken := by
  refine ⟨leavesLie_of_any ?_, leavesLie_of_any ?_, leavesLie_of_any ?_, leavesLie_of_any ?_⟩
  · decide +kernel
  · decide +kernel
  · decide +kernel
  · decide +kernel

end Handles
end TokioEvents
