/-
  TokioEvents.Subscription.Cleanup

  What becomes of a subscription that nobody can unsubscribe any more.  The calls in
  progress, the handler tasks and the auto-unsubscribe worker cannot go on for ever by
  themselves; and where they have come to rest, a subscription whose last handle was
  dropped, or one of whose handles was unsubscribed, is neither in the map of the manager
  nor in the registry, and its handler task has ended.

  Only a handler that panics leaves something behind: its task ends without a request to
  the worker.
-/

import TokioEvents.Lib.Settling
import TokioEvents.Lib.Weight
import TokioEvents.Subscription.Agreement

namespace TokioEvents

/-! ## The measure -/

/-- The steps a subscription can still cause. -/
def Subscriber.work (sub : Subscriber) : Nat :=
  (match sub.phase with
    | .spawned => 2
    | .stored => 1
    | .returned => 0) + if sub.ended then 0 else 5

/-- The steps of a call of `unsubscribe`. -/
def UnsubscribeCall.work (call : UnsubscribeCall) : Nat :=
  match call.phase with
  | .started => 3
  | .unregistered => 2
  | .removed => 1
  | .returned _ => 0

/-- The steps of the worker, until it waits again. -/
def AutoWorker.work : AutoWorker → Nat
  | .waiting => 0
  | .received _ => 3
  | .unregistering _ => 2
  | .aborting _ => 1

/-- The step is asked for from outside: a call, a handle that comes or goes, an event that
    is handled, or a panic. -/
def LifecycleAction.asked : LifecycleAction → Bool
  | .store _ => false
  | .register _ => false
  | .advance _ => false
  | .shutdown _ => false
  | .closed _ => false
  | .cancelled _ => false
  | .auto => false
  | _ => true

namespace Lifecycle

variable {R : Type} {s s' : Lifecycle R} {id : Uuid}

/-- All that is left to do. -/
def work (s : Lifecycle R) : Nat :=
  Weight.total Subscriber.work s.subscribers + (s.unsubscribes.map UnsubscribeCall.work).sum +
    4 * s.unsubRx.length + s.worker.work

/-- The record of a subscription is replaced. -/
theorem work_put {sub : Subscriber} (sub' : Subscriber) (h : s.subscribers[id]? = some sub) :
    (s.put id sub').work + sub.work = s.work + sub'.work := by
  have htotal := Weight.total_insert_of_some Subscriber.work sub' h
  simp only [work, put]
  omega

theorem work_release (s : Lifecycle R) (id : Uuid) : (s.release id).work = s.work := by
  unfold release
  split
  · rename_i sub hsub
    split
    · have hput := work_put { sub with signalled := true } hsub
      exact Nat.add_right_cancel hput
    · rfl
  · rfl

theorem work_abort (s : Lifecycle R) (id : Uuid) : (s.abort id).work = s.work := by
  unfold abort
  split
  · rename_i sub hsub
    have hput := work_put { sub with aborted := true } hsub
    exact Nat.add_right_cancel hput
  · rfl

/-- A task that ends leaves a request behind, and nothing else to do. -/
theorem work_finishTask {sub : Subscriber} (h : s.subscribers[id]? = some sub)
    (hended : sub.ended = false) : (s.finishTask id sub).work < s.work := by
  have hput := work_put { sub with ended := true } h
  have hfinish : (s.finishTask id sub).work = (s.put id { sub with ended := true }).work + 4 := by
    simp only [work, finishTask, put, List.length_append, List.length_singleton]
    omega
  simp only [Subscriber.work, hended, if_true, Bool.false_eq_true, if_false] at hput
  omega

/-- A call of `unsubscribe` goes on. -/
theorem work_setPhase {t : Lifecycle R} {index : Nat} {id : Uuid} {before : UnsubscribePhase}
    (after : UnsubscribePhase) (h : s.unsubscribes[index]? = some ⟨id, before⟩)
    (hcalls : t.unsubscribes = s.unsubscribes) (hwork : t.work = s.work) :
    (t.setPhase index id after).work + UnsubscribeCall.work ⟨id, before⟩
      = s.work + UnsubscribeCall.work ⟨id, after⟩ := by
  rw [← hcalls] at h
  have hsum := Weight.sum_set UnsubscribeCall.work ⟨id, after⟩ h
  rw [← hwork]
  simp only [work, setPhase]
  omega

variable [EventRegistry R]

/-- **Every step that nobody asks for leaves less to do.** -/
theorem work_lt {a : LifecycleAction} (hasked : a.asked = false) (h : s.step a = some s') :
    s'.work < s.work := by
  cases a with
  | store id =>
    obtain ⟨sub, hsub, hstep⟩ := withSubscriber_eq_some.mp h
    split at hstep
    · rename_i hphase
      cases hstep
      have hput := work_put { sub with phase := .stored } hsub
      simp only [Subscriber.work, hphase] at hput
      simp only [work, put] at hput ⊢
      omega
    · cases hstep
  | register id =>
    obtain ⟨sub, hsub, hstep⟩ := withSubscriber_eq_some.mp h
    split at hstep
    · rename_i hphase
      split at hstep
      · cases hstep
        have hput := work_put { sub with phase := .returned, handles := 1 } hsub
        simp only [Subscriber.work, hphase] at hput
        simp only [work, put] at hput ⊢
        omega
      · cases hstep
        have hput := work_put { sub with phase := .returned, signalled := true } hsub
        simp only [Subscriber.work, hphase] at hput
        simp only [work, put] at hput ⊢
        omega
    · cases hstep
  | advance index =>
    simp only [step, advance] at h
    split at h
    · rename_i id hcall
      split at h
      · rename_i registry hregistry
        cases h
        have hwork := work_setPhase (t := { s with registry := registry }) .unregistered hcall
          rfl rfl
        simp only [UnsubscribeCall.work] at hwork
        omega
      · rename_i e registry hregistry
        cases h
        have hwork := work_setPhase (t := { s with registry := registry }) (.returned (.error e))
          hcall rfl rfl
        rw [finishCall, work_release]
        simp only [UnsubscribeCall.work] at hwork
        omega
    · rename_i id hcall
      split at h
      · cases h
        have hwork := work_setPhase (t := { s with subscriptions := s.subscriptions.erase id })
          .removed hcall rfl rfl
        simp only [UnsubscribeCall.work] at hwork
        omega
      · cases h
        have hwork := work_setPhase (.returned (.error (.subscriptionNotFound id))) hcall rfl rfl
        rw [finishCall, work_release]
        simp only [UnsubscribeCall.work] at hwork
        omega
    · rename_i id hcall
      have hcalls : (s.abort id).unsubscribes = s.unsubscribes := by
        unfold abort
        split <;> rfl
      have hwork := work_setPhase (.returned (.ok ())) hcall hcalls (work_abort s id)
      cases h
      rw [finishCall, work_release]
      simp only [UnsubscribeCall.work] at hwork
      omega
    · cases h
  | shutdown id =>
    obtain ⟨sub, hsub, hstep⟩ := withSubscriber_eq_some.mp h
    split at hstep
    · rename_i hready
      cases hstep
      exact work_finishTask hsub (by simpa using (Bool.and_eq_true_iff.mp hready).2)
    · cases hstep
  | closed id =>
    obtain ⟨sub, hsub, hstep⟩ := withSubscriber_eq_some.mp h
    split at hstep
    · rename_i hready
      cases hstep
      exact work_finishTask hsub hready.2.2
    · cases hstep
  | cancelled id =>
    obtain ⟨sub, hsub, hstep⟩ := withSubscriber_eq_some.mp h
    split at hstep
    · rename_i hready
      cases hstep
      have hended : sub.ended = false := by simpa using (Bool.and_eq_true_iff.mp hready).2
      have hput := work_put { sub with ended := true } hsub
      simp only [Subscriber.work, hended, if_true, Bool.false_eq_true, if_false] at hput
      omega
    · cases hstep
  | auto =>
    simp only [step, auto] at h
    split at h
    · rename_i hworker
      split at h
      · rename_i id rest hrequests
        cases h
        simp only [work, hworker, hrequests, AutoWorker.work, List.length_cons]
        omega
      · cases h
    · rename_i id hworker
      split at h <;> cases h <;> simp only [work, hworker, AutoWorker.work] <;> omega
    · rename_i id hworker
      cases h
      simp only [work, hworker, AutoWorker.work]
      omega
    · rename_i id hworker
      cases h
      have hwork := work_abort s id
      have hkept : (s.abort id).worker = s.worker := by
        unfold abort
        split <;> rfl
      simp only [work, hkept, hworker, AutoWorker.work] at hwork ⊢
      omega
  | _ => cases hasked

end Lifecycle

/-! ## Who takes care of an id -/

namespace Life

/-- The id was in the map, and is not any more. -/
def Out (l : Life) : Prop :=
  l.stored = false ∧ (l.phase = some .stored ∨ l.phase = some .returned)

/-- It does not come back. -/
theorem Step.out {l l' : Life} (h : Step l l') (hl : l.Out) : l'.Out := by
  obtain ⟨hstored, hphase⟩ := hl
  cases h with
  | subscribe h => simp [h] at hphase
  | store h => simp [h] at hphase
  | register shared h => exact ⟨hstored, .inr rfl⟩
  | take hshared h => exact ⟨rfl, hphase⟩
  | remove removing shared h => exact ⟨rfl, hphase⟩
  | _ => exact ⟨hstored, hphase⟩

end Life

namespace Lifecycle

variable {R : Type} [EventRegistry R] [DashMapBacked R] {s s' : Lifecycle R} {id i : Uuid}

/-- The worker has been asked to remove the id, and has not looked yet. -/
def Requested (s : Lifecycle R) (id : Uuid) : Prop := id ∈ s.unsubRx ∨ s.worker = .received id

/-- The flag is set in the record of the subscription. -/
def flagged (s : Lifecycle R) (flag : Subscriber → Bool) (id : Uuid) : Bool :=
  s.subscribers[id]?.any flag

/-- Who aborts the handler task of an id has taken it out of the map, and when the task has
    ended somebody has, or the worker has been asked to. -/
structure Tended (s : Lifecycle R) (id : Uuid) : Prop where
  worker : s.worker = .unregistering id ∨ s.worker = .aborting id → (s.life id).Out
  calls : ⟨id, .removed⟩ ∈ s.unsubscribes → (s.life id).Out
  aborted : s.flagged Subscriber.aborted id = true → (s.life id).Out
  ended : s.flagged Subscriber.ended id = true → s.Requested id ∨ (s.life id).Out

omit [EventRegistry R] [DashMapBacked R] in
theorem flagged_put (flag : Subscriber → Bool) (i : Uuid) (sub' : Subscriber) (id : Uuid) :
    (s.put i sub').flagged flag id = if i = id then flag sub' else s.flagged flag id := by
  unfold flagged
  rw [getElem?_put]
  split <;> rfl

omit [EventRegistry R] [DashMapBacked R] in
/-- The record is replaced by one with the same flag. -/
theorem flagged_put_of_eq {flag : Subscriber → Bool} {sub : Subscriber} (sub' : Subscriber)
    (h : s.subscribers[i]? = some sub) (hflag : flag sub' = flag sub) (id : Uuid) :
    (s.put i sub').flagged flag id = s.flagged flag id := by
  rw [flagged_put]
  split
  · rename_i heq
    subst heq
    rw [hflag, flagged, h]
    rfl
  · rfl

omit [EventRegistry R] [DashMapBacked R] in
/-- Whoever lets go of a handle sets neither of the two flags. -/
theorem flagged_release {flag : Subscriber → Bool}
    (hflag : ∀ sub, flag { sub with signalled := true } = flag sub) (i id : Uuid) :
    (s.release i).flagged flag id = s.flagged flag id := by
  unfold release
  split
  · rename_i sub hsub
    split
    · exact flagged_put_of_eq _ hsub (hflag sub) id
    · rfl
  · rfl

omit [EventRegistry R] [DashMapBacked R] in
/-- What the steps on the records leave alone. -/
theorem release_frame (s : Lifecycle R) (i : Uuid) :
    (s.release i).worker = s.worker ∧ (s.release i).unsubRx = s.unsubRx ∧
      (s.release i).unsubscribes = s.unsubscribes := by
  unfold release
  repeat' split
  all_goals exact ⟨rfl, rfl, rfl⟩

omit [EventRegistry R] [DashMapBacked R] in
theorem abort_frame (s : Lifecycle R) (i : Uuid) :
    (s.abort i).worker = s.worker ∧ (s.abort i).unsubRx = s.unsubRx ∧
      (s.abort i).unsubscribes = s.unsubscribes := by
  unfold abort
  split <;> exact ⟨rfl, rfl, rfl⟩

/-- A step that sets neither flag of the id, and asks nothing less of the worker. -/
theorem Tended.keep (hI : s.Tended id) (hout : (s.life id).Out → (s'.life id).Out)
    (hworker : s'.worker = s.worker) (hrequests : ∀ j ∈ s.unsubRx, j ∈ s'.unsubRx)
    (hcalls : ⟨id, .removed⟩ ∈ s'.unsubscribes → ⟨id, .removed⟩ ∈ s.unsubscribes)
    (haborted : s'.flagged Subscriber.aborted id = s.flagged Subscriber.aborted id)
    (hended : s'.flagged Subscriber.ended id = true →
      s.flagged Subscriber.ended id = true ∨ s'.Requested id ∨ (s'.life id).Out) :
    s'.Tended id where
  worker h := hout (hI.worker (hworker ▸ h))
  calls h := hout (hI.calls (hcalls h))
  aborted h := hout (hI.aborted (haborted ▸ h))
  ended h := by
    rcases hended h with h | h
    · rcases hI.ended h with (hmem | hreceived) | hgone
      · exact .inl (.inl (hrequests id hmem))
      · exact .inl (.inr (hworker.trans hreceived))
      · exact .inr (hout hgone)
    · exact h

/-- A step that replaces a record by one with the same flags. -/
theorem Tended.record (hI : s.Tended id) {sub sub' : Subscriber}
    (h : s.subscribers[i]? = some sub) (hrecord : s'.subscribers = s.subscribers.insert i sub')
    (haborted : sub'.aborted = sub.aborted) (hended : sub'.ended = sub.ended)
    (hout : (s.life id).Out → (s'.life id).Out) (hworker : s'.worker = s.worker)
    (hrequests : s'.unsubRx = s.unsubRx)
    (hcalls : ⟨id, .removed⟩ ∈ s'.unsubscribes → ⟨id, .removed⟩ ∈ s.unsubscribes) :
    s'.Tended id := by
  have hflagged : ∀ flag : Subscriber → Bool, flag sub' = flag sub →
      s'.flagged flag id = s.flagged flag id := by
    intro flag hflag
    rw [flagged, hrecord]
    exact flagged_put_of_eq sub' h hflag id
  refine hI.keep hout hworker (fun _ hj => hrequests ▸ hj) hcalls (hflagged _ haborted)
    fun hflag => .inl ?_
  rwa [hflagged _ hended] at hflag

/-- A handler task ends and asks to be removed. -/
theorem Tended.finishTask (hI : s.Tended id) {sub : Subscriber}
    (h : s.subscribers[i]? = some sub)
    (hout : (s.life id).Out → ((s.finishTask i sub).life id).Out) :
    (s.finishTask i sub).Tended id := by
  refine hI.keep hout rfl (fun _ hj => List.mem_append_left _ hj) (fun hcall => hcall) ?_
    fun hflag => ?_
  · have hput : (s.put i { sub with ended := true }).flagged Subscriber.aborted id
        = s.flagged Subscriber.aborted id :=
      flagged_put_of_eq { sub with ended := true } h rfl id
    exact hput
  · have hput : (s.put i { sub with ended := true }).flagged Subscriber.ended id = true := hflag
    rw [flagged_put] at hput
    split at hput
    · rename_i heq
      exact .inr (.inl (.inl (by simp [Lifecycle.finishTask, heq])))
    · exact .inl hput

/-- The handler task of an id that is out of the map is aborted. -/
theorem Tended.abort (hI : s.Tended id) (hgone : i = id → (s.life id).Out) :
    (s.abort i).Tended id := by
  obtain ⟨hworker, hrequests, hcalls⟩ := abort_frame s i
  refine ⟨?_, ?_, ?_, ?_⟩
  · rw [hworker, life_abort]
    exact hI.worker
  · rw [hcalls, life_abort]
    exact hI.calls
  · rw [life_abort]
    unfold Lifecycle.abort
    split
    · rw [flagged_put]
      split
      · rename_i heq
        exact fun _ => hgone heq
      · exact hI.aborted
    · exact hI.aborted
  · rw [life_abort, Requested, hrequests, hworker]
    unfold Lifecycle.abort
    split
    · rename_i sub hsub
      have hput : (s.put i { sub with aborted := true }).flagged Subscriber.ended id
          = s.flagged Subscriber.ended id :=
        flagged_put_of_eq { sub with aborted := true } hsub rfl id
      rw [hput]
      exact hI.ended
    · exact hI.ended

/-- A handle is let go of. -/
theorem Tended.release (hI : s.Tended id) (i : Uuid) : (s.release i).Tended id := by
  obtain ⟨hworker, hrequests, hcalls⟩ := release_frame s i
  refine hI.keep (fun hout => ?_) hworker (fun _ hj => hrequests ▸ hj) (fun h => hcalls ▸ h)
    (flagged_release (fun _ => rfl) i id) fun h => .inl ?_
  · -- only who knows the id has changed
    by_cases hid : id = i
    · subst hid
      rw [(sharesOnly_release s id).own]
      exact hout
    · rw [(sharesOnly_release s i).others id hid]
      exact hout
  · rwa [flagged_release fun _ => rfl] at h

/-- A call of `unsubscribe` goes on. -/
theorem Tended.setPhase (hI : s.Tended id) {index : Nat} {phase : UnsubscribePhase}
    (hout : (s.life id).Out → ((s.setPhase index i phase).life id).Out)
    (hphase : phase = .removed → i = id → (s.life id).Out) :
    (s.setPhase index i phase).Tended id := by
  refine ⟨fun h => hout (hI.worker h), fun h => ?_, fun h => hout (hI.aborted h),
    fun h => (hI.ended h).imp_right hout⟩
  rcases List.mem_or_eq_of_mem_set h with hmem | heq
  · exact hout (hI.calls hmem)
  · cases heq
    exact hout (hphase rfl rfl)

theorem Tended.finishCall (hI : s.Tended id) (index : Nat) (i : Uuid)
    (result : Except Error Unit) : (s.finishCall index i result).Tended id := by
  have hreturned : (s.setPhase index i (.returned result)).Tended id :=
    hI.setPhase (fun hout => hout) nofun
  exact hreturned.release i

theorem Tended.advance {index : Nat} (hI : s.Tended id) (hlife : (s.life id).Coherent)
    (h : s.advance index = some s') : s'.Tended id := by
  have hgone : ∀ {call : UnsubscribeCall}, s.unsubscribes[index]? = some call → call.id = id →
      id ∉ s.subscriptions → (s.life id).Out := by
    rintro call hcall rfl hnot
    exact ⟨by simp [life, hnot], .inr (hlife.returned_of_shared (shared_of_call hcall))⟩
  unfold Lifecycle.advance at h
  split at h
  · rename_i i hcall
    have hregistry : ∀ registry : R, ({ s with registry := registry } : Lifecycle R).Tended id :=
      fun _ => ⟨hI.worker, hI.calls, hI.aborted, hI.ended⟩
    split at h
    · cases h
      exact (hregistry _).setPhase (fun hout => hout) fun heq => by cases heq
    · cases h
      exact (hregistry _).finishCall index i _
  · rename_i i hcall
    split at h
    · cases h
      -- the call has taken the id out of the map
      have herase : (s.life id).Out →
          (({ s with subscriptions := s.subscriptions.erase i } : Lifecycle R).life id).Out := by
        rintro ⟨hstored, hphase⟩
        have hnot : id ∉ s.subscriptions := of_decide_eq_false hstored
        exact ⟨decide_eq_false fun hmem => hnot (Finset.mem_of_mem_erase hmem), hphase⟩
      have htended : ({ s with subscriptions := s.subscriptions.erase i } : Lifecycle R).Tended id :=
        ⟨fun h => herase (hI.worker h), fun h => herase (hI.calls h),
          fun h => herase (hI.aborted h), fun h => (hI.ended h).imp_right herase⟩
      refine htended.setPhase (fun hout => hout) fun _ heq => ?_
      subst heq
      exact ⟨decide_eq_false (Finset.notMem_erase i _),
        .inr (hlife.returned_of_shared (shared_of_call hcall))⟩
    · cases h
      exact hI.finishCall index i _
  · rename_i i hcall
    cases h
    have habort : (s.abort i).Tended id := by
      refine hI.abort ?_
      rintro rfl
      exact hI.calls (List.mem_of_getElem? hcall)
    exact habort.finishCall index i _
  · cases h

theorem Tended.auto (hI : s.Tended id) (hlife : (s.life id).Coherent) (h : s.auto = some s') :
    s'.Tended id := by
  have hphase : s.worker.id = some id → (s.life id).phase = some .returned :=
    fun hid => hlife.returned_of_shared (shared_of_worker hid)
  unfold Lifecycle.auto at h
  split at h
  · rename_i hworker
    split at h
    · rename_i i rest hrequests
      cases h
      refine ⟨by simp, hI.calls, hI.aborted, fun hended => ?_⟩
      rcases hI.ended hended with (hmem | hreceived) | hout
      · rw [hrequests] at hmem
        rcases List.mem_cons.mp hmem with rfl | hrest
        · exact .inl (.inr rfl)
        · exact .inl (.inl hrest)
      · cases hworker.symm.trans hreceived
      · exact .inr hout
    · cases h
  · rename_i i hworker
    split at h
    · cases h
      have herase : (s.life id).Out → (({ s with
          subscriptions := s.subscriptions.erase i, worker := .unregistering i } :
          Lifecycle R).life id).Out := by
        rintro ⟨hstored, hphase⟩
        have hnot : id ∉ s.subscriptions := of_decide_eq_false hstored
        exact ⟨decide_eq_false fun hmem => hnot (Finset.mem_of_mem_erase hmem), hphase⟩
      have hown : i = id → (({ s with
          subscriptions := s.subscriptions.erase i, worker := .unregistering i } :
          Lifecycle R).life id).Out := by
        rintro rfl
        exact ⟨decide_eq_false (Finset.notMem_erase i _),
          .inr (hphase (by rw [hworker]; rfl))⟩
      refine ⟨fun h => ?_, fun h => herase (hI.calls h), fun h => herase (hI.aborted h),
        fun h => ?_⟩
      · rcases h with h | h
        · exact hown (AutoWorker.unregistering.inj h)
        · cases h
      · rcases hI.ended h with (hmem | hreceived) | hout
        · exact .inl (.inl hmem)
        · exact .inr (hown (AutoWorker.received.inj (hworker.symm.trans hreceived)))
        · exact .inr (herase hout)
    · rename_i hnot
      cases h
      refine ⟨by simp, hI.calls, hI.aborted, fun h => ?_⟩
      rcases hI.ended h with (hmem | hreceived) | hout
      · exact .inl (.inl hmem)
      · -- somebody else has taken it out
        obtain rfl := AutoWorker.received.inj (hworker.symm.trans hreceived)
        exact .inr ⟨decide_eq_false hnot, .inr (hphase (by rw [hworker]; rfl))⟩
      · exact .inr hout
  · rename_i i hworker
    cases h
    refine ⟨fun h => ?_, hI.calls, hI.aborted, fun h => ?_⟩
    · rcases h with h | h
      · cases h
      · cases AutoWorker.aborting.inj h
        exact hI.worker (.inl hworker)
    · rcases hI.ended h with (hmem | hreceived) | hout
      · exact .inl (.inl hmem)
      · cases hworker.symm.trans hreceived
      · exact .inr hout
  · rename_i i hworker
    cases h
    have habort : (s.abort i).Tended id := hI.abort fun heq => hI.worker (.inr (heq ▸ hworker))
    refine ⟨by simp, habort.calls, habort.aborted, fun h => ?_⟩
    rcases habort.ended h with (hmem | hreceived) | hout
    · exact .inl (.inl hmem)
    · rw [(abort_frame s i).1] at hreceived
      cases hworker.symm.trans hreceived
    · exact .inr hout

/-- **Every step** but a panic of its handler keeps the id tended. -/
theorem Tended.step {a : LifecycleAction} (hI : s.Tended id) (hlife : (s.life id).Coherent)
    (ha : a ≠ .panic id) (h : s.step a = some s') : s'.Tended id := by
  have hout : (s.life id).Out → (s'.life id).Out := (life_step h id).out
  cases a with
  | subscribe i eventType typeName name topic filter =>
    simp only [Lifecycle.step, Lifecycle.subscribe] at h
    split at h
    · cases h
    · rename_i hnone
      cases h
      have hflag : ∀ (flag : Subscriber → Bool) (sub' : Subscriber), flag sub' = false →
          (s.put i sub').flagged flag id = s.flagged flag id := by
        intro flag sub' hfalse
        rw [flagged_put]
        split
        · rename_i heq
          subst heq
          rw [hfalse, flagged, hnone]
          rfl
        · rfl
      refine hI.keep hout rfl (fun _ hj => hj) (fun hcall => hcall) (hflag _ _ rfl) fun h => ?_
      rw [hflag _ _ rfl] at h
      exact .inl h
  | store i =>
    obtain ⟨sub, hsub, hstep⟩ := withSubscriber_eq_some.mp h
    split at hstep <;> cases hstep
    exact hI.record hsub rfl rfl rfl hout rfl rfl fun hcall => hcall
  | register i =>
    obtain ⟨sub, hsub, hstep⟩ := withSubscriber_eq_some.mp h
    split at hstep
    · split at hstep
      · cases hstep
        exact hI.record hsub rfl rfl rfl hout rfl rfl fun hcall => hcall
      · cases hstep
        exact hI.record hsub rfl rfl rfl hout rfl rfl fun hcall => hcall
    · cases hstep
  | clone i =>
    obtain ⟨sub, hsub, hstep⟩ := withSubscriber_eq_some.mp h
    split at hstep <;> cases hstep
    exact hI.record hsub rfl rfl rfl hout rfl rfl fun hcall => hcall
  | drop i =>
    obtain ⟨sub, hsub, hstep⟩ := withSubscriber_eq_some.mp h
    split at hstep
    · rename_i hpos
      cases hstep
      have hput : (s.put i { sub with handles := sub.handles - 1 }).Tended id := by
        refine hI.record hsub rfl rfl rfl (fun hgone => ?_) rfl rfl fun hcall => hcall
        have honly := sharesOnly_put { sub with handles := sub.handles - 1 } hsub rfl
        exact (honly.step (.inl (shared_of_handle hsub (.inl hpos))) id).out hgone
      exact hput.release i
    · cases hstep
  | signal i =>
    obtain ⟨sub, hsub, hstep⟩ := withSubscriber_eq_some.mp h
    split at hstep <;> cases hstep
    exact hI.record hsub rfl rfl rfl hout rfl rfl fun hcall => hcall
  | unsubscribe i =>
    obtain ⟨sub, hsub, hstep⟩ := withSubscriber_eq_some.mp h
    split at hstep <;> cases hstep
    refine hI.record hsub rfl rfl rfl hout rfl rfl fun hcall => ?_
    rcases List.mem_append.mp hcall with hmem | hnew
    · exact hmem
    · cases List.mem_singleton.mp hnew
  | advance index => exact hI.advance hlife h
  | processed i =>
    cases h
    exact ⟨hI.worker, hI.calls, hI.aborted, hI.ended⟩
  | shutdown i =>
    obtain ⟨sub, hsub, hstep⟩ := withSubscriber_eq_some.mp h
    split at hstep <;> cases hstep
    exact hI.finishTask hsub hout
  | closed i =>
    obtain ⟨sub, hsub, hstep⟩ := withSubscriber_eq_some.mp h
    split at hstep <;> cases hstep
    exact hI.finishTask hsub hout
  | panic i =>
    have hne : i ≠ id := fun heq => ha (heq ▸ rfl)
    obtain ⟨sub, hsub, hstep⟩ := withSubscriber_eq_some.mp h
    split at hstep <;> cases hstep
    refine hI.keep hout rfl (fun _ hj => hj) (fun hcall => hcall) ?_ fun hflag => .inl ?_
    · rw [flagged_put, if_neg hne]
    · rwa [flagged_put, if_neg hne] at hflag
  | cancelled i =>
    obtain ⟨sub, hsub, hstep⟩ := withSubscriber_eq_some.mp h
    split at hstep
    · rename_i hready
      cases hstep
      have hput : (s.put i { sub with ended := true }).flagged Subscriber.aborted id
          = s.flagged Subscriber.aborted id :=
        flagged_put_of_eq { sub with ended := true } hsub rfl id
      refine hI.keep hout rfl (fun _ hj => hj) (fun hcall => hcall) hput fun hflag => ?_
      rw [flagged_put] at hflag
      split at hflag
      · -- who aborted the task has taken the id out of the map
        rename_i heq
        subst heq
        have haborted : s.flagged Subscriber.aborted i = true := by
          rw [flagged, hsub]
          exact (Bool.and_eq_true_iff.mp hready).1
        exact .inr (.inr (hout (hI.aborted haborted)))
      · exact .inl hflag
    · cases hstep
  | auto => exact hI.auto hlife h

theorem tended_new (registry : R) (id : Uuid) : (new registry).Tended id where
  worker := by simp [new]
  calls := by simp [new]
  aborted := by simp [new, flagged]
  ended := by simp [new, flagged]

end Lifecycle

/-! ## Who is told -/

namespace Lifecycle

variable {R : Type} {s s' : Lifecycle R} {id i : Uuid}

/-- A subscription that nobody has a handle of has been signalled. -/
def Told (s : Lifecycle R) (id : Uuid) : Prop :=
  ∀ sub, s.subscribers[id]? = some sub → sub.phase = .returned → sub.handles = 0 →
    s.holding id = false → sub.signalled = true

/-- A step that replaces one record. -/
theorem Told.record (hI : s.Told id) {sub' : Subscriber}
    (hrecord : s'.subscribers = s.subscribers.insert i sub')
    (hholding : s'.holding id = false → s.holding id = false)
    (hown : i = id → sub'.phase = .returned → sub'.handles = 0 → s'.holding id = false →
      sub'.signalled = true) : s'.Told id := by
  intro sub hsub hphase hhandles hfree
  have hget := getElem?_put s i sub' id
  rw [put, ← hrecord, hsub] at hget
  split at hget
  · rename_i heq
    cases hget
    exact hown heq hphase hhandles hfree
  · exact hI sub hget.symm hphase hhandles (hholding hfree)

/-- A step that keeps what matters of a record. -/
theorem Told.same (hI : s.Told id) {sub sub' : Subscriber} (h : s.subscribers[i]? = some sub)
    (hrecord : s'.subscribers = s.subscribers.insert i sub')
    (hcalls : s'.unsubscribes = s.unsubscribes) (hphase : sub'.phase = sub.phase)
    (hhandles : sub'.handles = sub.handles) (hsignalled : sub'.signalled = sub.signalled) :
    s'.Told id := by
  have hholding : s'.holding id = s.holding id := by rw [holding, hcalls, holding]
  refine hI.record hrecord (fun hfree => hholding ▸ hfree) ?_
  rintro rfl hreturned hnone hfree
  rw [hsignalled]
  exact hI sub h (hphase ▸ hreturned) (hhandles ▸ hnone) (hholding ▸ hfree)

/-- The last handle tells the task when it is let go of. -/
theorem Told.release (hI : i ≠ id → s.Told id) : (s.release i).Told id := by
  have hcalls := (release_frame s i).2.2
  have hholding : (s.release i).holding id = s.holding id := by rw [holding, hcalls, holding]
  intro sub hsub hphase hhandles hfree
  rw [hholding] at hfree
  unfold Lifecycle.release at hsub
  split at hsub
  · rename_i old hold
    split at hsub
    · rw [getElem?_put] at hsub
      split at hsub
      · cases hsub
        rfl
      · rename_i hne
        exact hI hne sub hsub hphase hhandles hfree
    · rename_i hkept
      by_cases heq : i = id
      · subst heq
        cases hold.symm.trans hsub
        exact absurd ⟨hhandles, hfree⟩ hkept
      · exact hI heq sub hsub hphase hhandles hfree
  · rename_i hnone
    by_cases heq : i = id
    · subst heq
      cases hnone.symm.trans hsub
    · exact hI heq sub hsub hphase hhandles hfree

/-- A call that goes on holds on to its handle. -/
theorem Told.setPhase (hI : s.Told id) {index : Nat} {call : UnsubscribeCall}
    {phase : UnsubscribePhase} (h : s.unsubscribes[index]? = some call)
    (hkept : i = id → (UnsubscribeCall.mk call.id phase).hasReturned = call.hasReturned)
    (hi : call.id = i) : (s.setPhase index call.id phase).Told id := by
  have hholding : (s.setPhase index call.id phase).holding id = s.holding id := by
    refine Calls.any_set h ?_
    by_cases heq : i = id
    · rw [hkept heq]
    · have hne : (call.id == id) = false := by simpa [hi] using heq
      simp [hne]
  intro sub hsub hphase hhandles hfree
  exact hI sub hsub hphase hhandles (hholding ▸ hfree)

theorem Told.finishCall (hI : s.Told id) {index : Nat} {phase : UnsubscribePhase}
    (h : s.unsubscribes[index]? = some ⟨i, phase⟩) (result : Except Error Unit) :
    (s.finishCall index i result).Told id := by
  refine Told.release fun hne => ?_
  exact hI.setPhase (i := i) h (fun heq => absurd heq hne) rfl

theorem Told.abort (hI : s.Told id) (i : Uuid) : (s.abort i).Told id := by
  unfold Lifecycle.abort
  split
  · rename_i sub hsub
    exact hI.same hsub rfl rfl rfl rfl rfl
  · exact hI

variable [EventRegistry R]

theorem Told.advance {index : Nat} (hI : s.Told id) (h : s.advance index = some s') :
    s'.Told id := by
  have hsame : ∀ (registry : R) (subscriptions : Finset Uuid),
      ({ s with registry := registry, subscriptions := subscriptions } : Lifecycle R).Told id :=
    fun _ _ => hI
  unfold Lifecycle.advance at h
  split at h
  · rename_i i hcall
    split at h
    · rename_i registry hregistry
      cases h
      have htold := hsame registry s.subscriptions
      exact htold.setPhase (i := i) hcall (fun _ => rfl) rfl
    · rename_i e registry hregistry
      cases h
      have htold := hsame registry s.subscriptions
      exact htold.finishCall hcall _
  · rename_i i hcall
    split at h
    · cases h
      have htold := hsame s.registry (s.subscriptions.erase i)
      exact htold.setPhase (i := i) hcall (fun _ => rfl) rfl
    · cases h
      exact hI.finishCall hcall _
  · rename_i i hcall
    cases h
    have hcalls := (abort_frame s i).2.2
    rw [← hcalls] at hcall
    exact (hI.abort i).finishCall hcall _
  · cases h

theorem Told.step {a : LifecycleAction} (hI : s.Told id) (h : s.step a = some s') :
    s'.Told id := by
  cases a with
  | subscribe i eventType typeName name topic filter =>
    simp only [Lifecycle.step, Lifecycle.subscribe] at h
    split at h <;> cases h
    exact hI.record rfl (fun hfree => hfree) fun _ hphase => by cases hphase
  | store i =>
    obtain ⟨sub, hsub, hstep⟩ := withSubscriber_eq_some.mp h
    split at hstep <;> cases hstep
    exact hI.record rfl (fun hfree => hfree) fun _ hphase => by cases hphase
  | register i =>
    obtain ⟨sub, hsub, hstep⟩ := withSubscriber_eq_some.mp h
    split at hstep
    · split at hstep
      · cases hstep
        exact hI.record rfl (fun hfree => hfree) fun _ _ hhandles => by cases hhandles
      · cases hstep
        exact hI.record rfl (fun hfree => hfree) fun _ _ _ _ => rfl
    · cases hstep
  | clone i =>
    obtain ⟨sub, hsub, hstep⟩ := withSubscriber_eq_some.mp h
    split at hstep <;> cases hstep
    exact hI.record rfl (fun hfree => hfree) fun _ _ hhandles => by cases hhandles
  | drop i =>
    obtain ⟨sub, hsub, hstep⟩ := withSubscriber_eq_some.mp h
    split at hstep <;> cases hstep
    refine Told.release fun hne => ?_
    exact hI.record rfl (fun hfree => hfree) fun heq => absurd heq hne
  | signal i =>
    obtain ⟨sub, hsub, hstep⟩ := withSubscriber_eq_some.mp h
    split at hstep <;> cases hstep
    exact hI.record rfl (fun hfree => hfree) fun _ _ _ _ => rfl
  | unsubscribe i =>
    obtain ⟨sub, hsub, hstep⟩ := withSubscriber_eq_some.mp h
    split at hstep <;> cases hstep
    refine hI.record rfl (fun hfree => ?_) fun heq _ _ hfree => ?_
    · rw [holding, List.any_append, Bool.or_eq_false_iff] at hfree
      exact hfree.1
    · -- the call has the handle now
      simp [holding, heq, UnsubscribeCall.hasReturned] at hfree
  | advance index => exact hI.advance h
  | processed i =>
    cases h
    exact hI
  | shutdown i =>
    obtain ⟨sub, hsub, hstep⟩ := withSubscriber_eq_some.mp h
    split at hstep <;> cases hstep
    exact hI.same hsub rfl rfl rfl rfl rfl
  | closed i =>
    obtain ⟨sub, hsub, hstep⟩ := withSubscriber_eq_some.mp h
    split at hstep <;> cases hstep
    exact hI.same hsub rfl rfl rfl rfl rfl
  | panic i =>
    obtain ⟨sub, hsub, hstep⟩ := withSubscriber_eq_some.mp h
    split at hstep <;> cases hstep
    exact hI.same hsub rfl rfl rfl rfl rfl
  | cancelled i =>
    obtain ⟨sub, hsub, hstep⟩ := withSubscriber_eq_some.mp h
    split at hstep <;> cases hstep
    exact hI.same hsub rfl rfl rfl rfl rfl
  | auto =>
    simp only [Lifecycle.step, Lifecycle.auto] at h
    split at h
    · split at h <;> cases h
      exact hI
    · split at h <;> cases h <;> exact hI
    · cases h
      exact hI
    · cases h
      exact hI.abort _

/-! ## Where everything has come to rest -/

/-- No step is left that nobody asks for. -/
def Settled (s : Lifecycle R) : Prop :=
  Transition.Settled step (fun a => LifecycleAction.asked a = false) s

/-- Every call has returned, and the worker waits for requests that are not there. -/
theorem quiet_of_settled (hsettled : s.Settled) : s.Quiet where
  subscribes i sub hsub := by
    cases hphase : sub.phase with
    | returned => rfl
    | spawned =>
      have hstore : s.store i = none := hsettled (.store i) rfl
      simp [store, withSubscriber, hsub, hphase] at hstore
    | stored =>
      have hregister : s.register i = none := hsettled (.register i) rfl
      simp only [register, withSubscriber, hsub, Option.bind_some, hphase, if_true] at hregister
      split at hregister <;> cases hregister
  unsubscribes := by
    rintro ⟨i, phase⟩ hmem
    obtain ⟨index, hcall⟩ := List.mem_iff_getElem?.mp hmem
    have hadvance : s.advance index = none := hsettled (.advance index) rfl
    cases phase with
    | returned result => rfl
    | started =>
      simp only [advance, hcall] at hadvance
      split at hadvance <;> cases hadvance
    | unregistered =>
      simp only [advance, hcall] at hadvance
      split at hadvance <;> cases hadvance
    | removed => simp [advance, hcall] at hadvance
  requests := by
    have hauto : s.auto = none := hsettled .auto rfl
    cases hworker : s.worker with
    | waiting =>
      cases hrequests : s.unsubRx with
      | nil => rfl
      | cons i rest => simp [auto, hworker, hrequests] at hauto
    | received i =>
      simp only [auto, hworker] at hauto
      split at hauto <;> cases hauto
    | unregistering i => simp [auto, hworker] at hauto
    | aborting i => simp [auto, hworker] at hauto
  worker := by
    have hauto : s.auto = none := hsettled .auto rfl
    cases hworker : s.worker with
    | waiting => rfl
    | received i =>
      simp only [auto, hworker] at hauto
      split at hauto <;> cases hauto
    | unregistering i => simp [auto, hworker] at hauto
    | aborting i => simp [auto, hworker] at hauto

/-- A handler task that was told to end has ended. -/
theorem ended_of_settled (hsettled : s.Settled) {sub : Subscriber}
    (hsub : s.subscribers[id]? = some sub) (hsignalled : sub.signalled = true) :
    sub.ended = true := by
  have hshutdown : s.shutdown id = none := hsettled (.shutdown id) rfl
  simpa [shutdown, withSubscriber, hsub, hsignalled] using hshutdown

variable [DashMapBacked R]

/-- The subscription cannot be unsubscribed any more, or was. -/
def Abandoned (s : Lifecycle R) (id : Uuid) : Prop :=
  ∃ sub, s.subscribers[id]? = some sub ∧ (sub.handles = 0 ∨ sub.signalled = true)

/-- Nothing is left of the subscription. -/
structure Gone (s : Lifecycle R) (id : Uuid) : Prop where
  stored : id ∉ s.subscriptions
  registered : ¬ Registered s.registry id
  ended : ∀ sub, s.subscribers[id]? = some sub → sub.ended = true

/-- **Where everything rests**, an abandoned subscription is gone. -/
theorem gone_of_settled (hsettled : s.Settled) (hlife : ∀ j, (s.life j).Coherent)
    (hrefined : s.Refined) (htended : s.Tended id) (htold : s.Told id) (hid : s.Abandoned id) :
    s.Gone id := by
  have hquiet := quiet_of_settled hsettled
  obtain ⟨sub, hsub, hover⟩ := hid
  have hsignalled : sub.signalled = true := by
    refine hover.elim (fun hhandles => ?_) fun h => h
    refine htold sub hsub (hquiet.subscribes id sub hsub) hhandles ?_
    rw [holding, List.any_eq_false]
    intro call hcall
    simp [hquiet.unsubscribes call hcall]
  have hended := ended_of_settled hsettled hsub hsignalled
  have hout : (s.life id).Out := by
    rcases htended.ended (by rw [flagged, hsub]; exact hended) with (hmem | hreceived) | hout
    · rw [hquiet.requests] at hmem
      cases hmem
    · cases hquiet.worker.symm.trans hreceived
    · exact hout
  have hstored : id ∉ s.subscriptions := of_decide_eq_false hout.1
  refine ⟨hstored, fun hregistered => hstored ?_, fun sub' hsub' => ?_⟩
  · exact (hquiet.agree hlife id).mpr ((hrefined.registered_iff id).mp hregistered)
  · cases hsub.symm.trans hsub'
    exact hended

/-! ## Every run -/

/-- What becomes of the subscriptions when nobody asks for anything more, but for those
    whose handler has panicked. -/
structure CleansUp (s : Lifecycle R) (panicked : Uuid → Prop) : Prop where
  /-- It cannot go on for ever. -/
  settles : Transition.Settles step (fun a => LifecycleAction.asked a = false) s
  /-- Where it stops. -/
  rests : s.Settled → s.Quiet ∧ ∀ id, ¬ panicked id → s.Abandoned id → s.Gone id
  reaches : ∃ as s', (∀ a ∈ as, LifecycleAction.asked a = false) ∧ s.exec as = some s' ∧
    s'.Quiet ∧ ∀ id, ¬ panicked id → s'.Abandoned id → s'.Gone id

/-- **No subscription leaks**, in any run from an empty registry: what is going on comes to an
    end by itself, and then every subscription whose last handle was dropped, or one of whose
    handles was unsubscribed, is neither in the map nor in the registry and has no task,
    unless its handler has panicked. -/
theorem cleansUp_exec {registry : R} (hnew : DashMapBacked.dashMap registry = .new)
    {as : List LifecycleAction} (hexec : (new registry).exec as = some s) :
    s.CleansUp fun id => .panic id ∈ as := by
  have hrefined₀ : (new registry).Refined := ⟨[], by
    show (DashMapBacked.dashMap registry).Refines []
    rw [hnew]
    exact DashMapRegistry.refines_new⟩
  have hrests : ∀ {as : List LifecycleAction} {s : Lifecycle R},
      (new registry).exec as = some s → s.Settled →
      s.Quiet ∧ ∀ id, .panic id ∉ as → s.Abandoned id → s.Gone id := by
    intro as s hexec hsettled
    refine ⟨quiet_of_settled hsettled, fun id hpanic => ?_⟩
    have halong : Transition.Along step (fun _ a => a ≠ .panic id) (new registry) as := by
      refine Transition.along_of_forall (fun a ha _ => ?_) _
      rintro rfl
      exact hpanic ha
    have htended : s.Tended id := by
      refine (Transition.invariant_along
        (I := fun s : Lifecycle R => s.Tended id ∧ ∀ j, (s.life j).Coherent)
        (C := fun _ a => a ≠ .panic id) (fun s a s' hI ha hstep => ?_)
        ⟨tended_new registry id, coherent_new hnew⟩ halong hexec).1
      exact ⟨hI.1.step (hI.2 id) ha hstep, fun j => (hI.2 j).step (life_step hstep j)⟩
    have htold : s.Told id :=
      Transition.invariant (I := fun s : Lifecycle R => s.Told id)
        (fun _ _ _ hI hstep => hI.step hstep) (by simp [Told, new]) hexec
    exact gone_of_settled hsettled (coherent_exec (coherent_new hnew) hexec)
      (refined_exec hrefined₀ (coherent_new hnew) hexec) htended htold
  refine ⟨?_, hrests hexec, ?_⟩
  · exact Transition.settles_of_measure (I := fun _ => True) work (fun _ _ _ _ _ _ => trivial)
      (fun _ _ _ _ hasked h => work_lt hasked h) trivial
  · have hless : ∀ (s : Lifecycle R) a s', True → LifecycleAction.asked a = false →
        s.step a = some s' → work s' < work s := fun _ _ _ _ hasked h => work_lt hasked h
    obtain ⟨bs, s', hown, hrun, hsettled⟩ :=
      Transition.exists_exec_settled work (fun _ _ _ _ _ _ => trivial) hless (s := s) trivial
    have hboth : (new registry).exec (as ++ bs) = some s' :=
      (Transition.exec_append_of_exec _ hexec).trans hrun
    obtain ⟨hquiet, hgone⟩ := hrests hboth hsettled
    refine ⟨bs, s', hown, hrun, hquiet, fun id hpanic => hgone id fun hmem => ?_⟩
    -- what happens by itself is no panic
    rcases List.mem_append.mp hmem with hmem | hmem
    · exact hpanic hmem
    · cases hown _ hmem

/-- Two subscriptions, each with a clone of its handle: of the first one handle is
    unsubscribed, of the second both are dropped. -/
def handlesLetGo : List LifecycleAction :=
  twoSubscriptions ++ [.clone 2, .signal 1, .drop 2, .drop 2]

theorem cleansUp_handlesLetGo : ∃ s : Lifecycle DashMapRegistry,
    (new .new).exec handlesLetGo = some s ∧ s.subscriptions = {1, 2} ∧
      s.CleansUp fun id => .panic id ∈ handlesLetGo := by
  obtain ⟨s, hs⟩ := Option.isSome_iff_exists.mp
    (by decide +kernel : ((new (.new : DashMapRegistry)).exec handlesLetGo).isSome = true)
  have hseen : ((new (.new : DashMapRegistry)).exec handlesLetGo).map (·.subscriptions)
      = some {1, 2} := by
    decide +kernel
  rw [hs] at hseen
  exact ⟨s, hs, Option.some.inj hseen, cleansUp_exec rfl hs⟩

end Lifecycle
end TokioEvents
