/-
  TokioEvents.Bus.PublishCalls

  One call of `publish_with_metadata`: what becomes of its event at the dispatcher, and
  that no other call has a hand in it.
-/

import TokioEvents.Bus.Invariant

namespace TokioEvents
namespace MemoryBus

variable {config : EventBusConfig} {s s' : MemoryBus} {n : Nat} {call : PublishCall}

/-! ## At the dispatcher -/

/-- The bus takes an event that is due, at once or when there is room: it is running, and
    a full queue is waited for. -/
structure Routable (config : EventBusConfig) (s : MemoryBus) : Prop where
  state : s.shutdownState = .running
  isRunning : s.isRunning = true
  dispatcher : ∃ dispatcher, s.dispatcher = some dispatcher ∧ dispatcher.sender = true
  room : config.dropOnFull = true → s.queue.Accepts

instance (config : EventBusConfig) (s : MemoryBus) : Decidable (Routable config s) :=
  decidable_of_iff (s.shutdownState = .running ∧ s.isRunning = true ∧
      (∃ dispatcher ∈ s.dispatcher, dispatcher.sender = true) ∧
      (config.dropOnFull = true → s.queue.Accepts))
    ⟨fun h => ⟨h.1, h.2.1, h.2.2.1, h.2.2.2⟩, fun h => ⟨h.1, h.2, h.3, h.4⟩⟩

/-- The dispatcher of a running bus drops an event that is due, since the queue is full. -/
structure DropsEvent (config : EventBusConfig) (s : MemoryBus) (envelope : EventEnvelope)
    (now : DateTime) : Prop where
  state : s.shutdownState = .running
  isRunning : s.isRunning = true
  dispatcher : ∃ dispatcher, s.dispatcher = some dispatcher ∧ dispatcher.sender = true
  due : envelope.isScheduled now = false
  dropOnFull : config.dropOnFull = true
  receiver : s.queue.receiver = true
  full : s.queue.capacity ≤ s.queue.buffer.length

instance (config : EventBusConfig) (s : MemoryBus) (envelope : EventEnvelope) (now : DateTime) :
    Decidable (DropsEvent config s envelope now) :=
  decidable_of_iff (s.shutdownState = .running ∧ s.isRunning = true ∧
      (∃ dispatcher ∈ s.dispatcher, dispatcher.sender = true) ∧
      envelope.isScheduled now = false ∧ config.dropOnFull = true ∧ s.queue.receiver = true ∧
      s.queue.capacity ≤ s.queue.buffer.length)
    ⟨fun h => ⟨h.1, h.2.1, h.2.2.1, h.2.2.2.1, h.2.2.2.2.1, h.2.2.2.2.2.1, h.2.2.2.2.2.2⟩,
      fun h => ⟨h.1, h.2, h.3, h.4, h.5, h.6, h.7⟩⟩

/-- What becomes of the event of a blocking call under the guard. -/
inductive Dispatched (config : EventBusConfig) (s : MemoryBus) (n : Nat) (call : PublishCall)
    (now : DateTime) : MemoryBus → Prop where
  | refused (e : Error) (h : call.envelope.isScheduled now = false → ¬ Routable config s)
      (hkeeps : ¬ DropsEvent config s call.envelope now) :
      Dispatched config s n call now (s.finish n call (.error e))
  | scheduled {dispatcher : ChannelDispatcher} (hdispatcher : s.dispatcher = some dispatcher)
      (hscheduled : call.envelope.isScheduled now = true) :
      Dispatched config s n call now
        ({ s with
          sleepers :=
            if dispatcher.sender then s.sleepers ++ [(⟨n, call.envelope⟩ : ArcEnvelope)]
            else s.sleepers }.finish n call (.ok call.envelope.eventId))
  | dropped (h : DropsEvent config s call.envelope now) :
      Dispatched config s n call now (s.finish n call (.ok call.envelope.eventId))
  | awaits (hroutable : Routable config s) :
      Dispatched config s n call now (s.setCall n call .sending)
  | entered (hroutable : Routable config s) :
      Dispatched config s n call now
        ((s.enqueue n (s.queue.push ⟨n, call.envelope⟩)).finish n call
          (.ok call.envelope.eventId))

theorem not_routable_of_full (hdrop : config.dropOnFull = true)
    (h : s.queue.capacity ≤ s.queue.buffer.length) : ¬ Routable config s :=
  fun hroutable => absurd (hroutable.room hdrop).2 (Nat.not_lt.mpr h)

theorem DropsEvent.not_routable {envelope : EventEnvelope} {now : DateTime}
    (h : DropsEvent config s envelope now) : ¬ Routable config s :=
  not_routable_of_full h.dropOnFull h.full

/-- A full channel with a receiver. -/
theorem full_of_trySend {α : Type} {c : Mpsc.Channel α} {a : α}
    (h : c.trySend a = .error .full) : c.receiver = true ∧ c.capacity ≤ c.buffer.length := by
  unfold Mpsc.Channel.trySend at h
  cases hreceiver : c.receiver with
  | false => simp [hreceiver] at h
  | true =>
    by_cases hroom : c.buffer.length < c.capacity
    · simp [hreceiver, hroom] at h
    · exact ⟨rfl, Nat.le_of_not_lt hroom⟩

/-- **`dispatch`** of a blocking call. -/
theorem dispatch_blocking {now : DateTime} (hcall : s.calls[n]? = some call)
    (hblocking : call.nonBlocking = false) (h : s.dispatch config n now = some s') :
    call.phase = .checking ∧ Dispatched config s n call now s' := by
  unfold dispatch at h
  simp only [hcall, hblocking] at h
  split at h
  · rename_i hphase
    refine ⟨hphase, ?_⟩
    split at h
    · rename_i dispatcher hdispatcher
      split at h
      · rename_i hstate
        cases h
        exact .refused _ (fun _ hroutable => hstate hroutable.state) fun hdrops =>
          hstate hdrops.state
      · rename_i hstate
        have hstate : s.shutdownState = .running := not_not.mp hstate
        simp only [Bool.false_eq_true, ↓reduceIte, Option.some.injEq] at h
        subst h
        unfold dispatcherDispatch
        dsimp only
        split
        · rename_i hrunning
          refine .refused _ (fun _ hroutable => ?_) fun hdrops => ?_
          · simp [hroutable.isRunning] at hrunning
          · simp [hdrops.isRunning] at hrunning
        rename_i hrunning
        split
        · exact .scheduled hdispatcher ‹_›
        rename_i hdue
        split
        · rename_i hsender
          have hnot : ¬ ∃ dispatcher, s.dispatcher = some dispatcher ∧
              dispatcher.sender = true := by
            rintro ⟨other, hother, hsome⟩
            cases hdispatcher.symm.trans hother
            simp [hsome] at hsender
          exact .refused _ (fun _ hroutable => hnot hroutable.dispatcher) fun hdrops =>
            hnot hdrops.dispatcher
        rename_i hsender
        have hroutable : (config.dropOnFull = true → s.queue.Accepts) → Routable config s :=
          fun hroom => ⟨hstate, by simpa using hrunning,
            ⟨dispatcher, hdispatcher, by simpa using hsender⟩, hroom⟩
        split
        · rename_i hdrop
          split
          · rename_i queue hsend
            obtain ⟨haccepts, rfl⟩ := Mpsc.Channel.trySend_eq_ok.mp hsend
            exact .entered (hroutable fun _ => haccepts)
          · rename_i hsend
            obtain ⟨hreceiver, hfull⟩ := full_of_trySend hsend
            exact .dropped ⟨hstate, by simpa using hrunning,
              ⟨dispatcher, hdispatcher, by simpa using hsender⟩, by simpa using hdue, hdrop,
              hreceiver, hfull⟩
          · rename_i hsend
            have hclosed : s.queue.receiver ≠ true := by
              simp [Mpsc.Channel.receiver_of_closed hsend]
            exact .refused _ (fun _ hroutable => hclosed (hroutable.room hdrop).1) fun hdrops =>
              hclosed hdrops.receiver
        · rename_i hdrop
          exact .awaits (hroutable fun h => absurd h hdrop)
    · rename_i hnone
      cases h
      have hnot : ¬ ∃ dispatcher, s.dispatcher = some dispatcher ∧ dispatcher.sender = true := by
        rintro ⟨other, hother, -⟩
        cases hnone.symm.trans hother
      exact .refused _ (fun _ hroutable => hnot hroutable.dispatcher) fun hdrops =>
        hnot hdrops.dispatcher
  · cases h

/-- **`sender.send(envelope)`** of a blocking call. -/
theorem send_blocking (hcall : s.calls[n]? = some call) (h : s.send n = some s') :
    call.phase = .sending ∧
    ((s.queue.Accepts ∧ s' = (s.enqueue n (s.queue.push ⟨n, call.envelope⟩)).finish n call
        (.ok call.envelope.eventId)) ∨
      (s.queue.receiver = false ∧ ∃ e, s' = s.finish n call (.error e))) := by
  unfold send at h
  simp only [hcall] at h
  split at h
  · rename_i hphase
    refine ⟨hphase, ?_⟩
    split at h
    · rename_i queue hsend
      obtain ⟨haccepts, rfl⟩ := Mpsc.Channel.trySend_eq_ok.mp hsend
      cases h
      exact .inl ⟨haccepts, rfl⟩
    · cases h
    · rename_i hsend
      cases h
      exact .inr ⟨Mpsc.Channel.receiver_of_closed hsend, _, rfl⟩
  · cases h

/-! ## The call of a step -/

/-- The call whose step it is. -/
def PublisherAction.target : PublisherAction → Option Nat
  | .acquire n => some n
  | .dispatch n _ => some n
  | .send n => some n
  | .cancel n => some n
  | .publish _ _ => none
  | .wake _ => none

/-- A step of a call moves that call on, and no other. -/
theorem calls_dispatch {now : DateTime} (h : s.dispatch config n now = some s') :
    ∃ call phase, s.calls[n]? = some call ∧
      s'.calls = s.calls.set n { call with phase := phase } := by
  unfold dispatch at h
  split at h
  · rename_i call hcall
    refine ⟨call, ?_⟩
    simp only [hcall, true_and]
    split at h
    · split at h
      · split at h
        · cases h
          exact ⟨_, rfl⟩
        split at h
        · cases h
          unfold tryDispatch
          repeat' split
          all_goals exact ⟨_, rfl⟩
        · cases h
          unfold dispatcherDispatch
          dsimp only
          repeat' split
          all_goals exact ⟨_, rfl⟩
      · cases h
        exact ⟨_, rfl⟩
    · cases h
  · cases h

theorem calls_send (h : s.send n = some s') :
    ∃ call phase, s.calls[n]? = some call ∧
      s'.calls = s.calls.set n { call with phase := phase } := by
  unfold send at h
  split at h
  · rename_i call hcall
    refine ⟨call, ?_⟩
    simp only [hcall, true_and]
    repeat' split at h
    all_goals cases h
    · exact ⟨_, rfl⟩
    · exact ⟨_, rfl⟩
  · cases h

theorem cancel_eq_some (h : s.cancel n = some s') :
    ∃ call, s.calls[n]? = some call ∧ (call.phase = .acquiring ∨ call.phase = .sending) ∧
      s' = s.setCall n call .cancelled := by
  unfold cancel at h
  split at h
  · rename_i call hcall
    split at h
    · cases h
      exact ⟨call, hcall, ‹_›, rfl⟩
    · cases h
  · cases h

theorem acquire_eq_some (h : s.acquire n = some s') :
    ∃ call, s.calls[n]? = some call ∧ call.phase = .acquiring ∧
      s' = s.setCall n call .checking := by
  unfold acquire at h
  split at h
  · rename_i call hcall
    split at h
    · rename_i hphase
      cases h
      exact ⟨call, hcall, hphase.1, rfl⟩
    · cases h
  · cases h

/-- **Nobody else** has a hand in a call. -/
theorem call_of_other {a : Action} (h : step config s a = some s')
    (hcall : s.calls[n]? = some call) (ha : ∀ b, a = .publisher b → b.target ≠ some n) :
    s'.calls[n]? = some call := by
  have hother : ∀ m (call' : PublishCall), m ≠ n → s'.calls = s.calls.set m call' →
      s'.calls[n]? = some call := by
    intro m call' hne hcalls
    rw [hcalls, List.getElem?_set_ne hne]
    exact hcall
  cases a with
  | publisher b =>
    have hne : ∀ m, b.target = some m → m ≠ n :=
      fun m hm heq => ha b rfl (hm.trans (congrArg some heq))
    cases b with
    | publish envelope nonBlocking =>
      cases h
      obtain ⟨hlt, -⟩ := List.getElem?_eq_some_iff.mp hcall
      exact (List.getElem?_append_left hlt).trans hcall
    | acquire m =>
      obtain ⟨call', -, -, rfl⟩ := acquire_eq_some h
      exact hother m _ (hne m rfl) rfl
    | dispatch m now =>
      obtain ⟨call', phase, -, hcalls⟩ := calls_dispatch h
      exact hother m _ (hne m rfl) hcalls
    | send m =>
      obtain ⟨call', phase, -, hcalls⟩ := calls_send h
      exact hother m _ (hne m rfl) hcalls
    | cancel m =>
      obtain ⟨call', -, -, rfl⟩ := cancel_eq_some h
      exact hother m _ (hne m rfl) rfl
    | wake index =>
      simp only [step, stepPublisher, wake] at h
      split at h
      · split at h <;> cases h
        · exact hcall
        · exact hcall
      · cases h
  | _ =>
    rw [(of_not_publisher h (by simp)).2.2]
    exact hcall

/-- **A call keeps its event**, whatever becomes of it. -/
theorem call_step {a : Action} (h : step config s a = some s') (hcall : s.calls[n]? = some call) :
    ∃ phase, s'.calls[n]? = some { call with phase := phase } := by
  have hset : ∀ (call' : PublishCall) phase, s.calls[n]? = some call' →
      s'.calls = s.calls.set n { call' with phase := phase } →
      ∃ phase, s'.calls[n]? = some { call with phase := phase } := by
    intro call' phase hcall' hcalls
    cases hcall.symm.trans hcall'
    refine ⟨phase, ?_⟩
    rw [hcalls]
    exact List.getElem?_set_self (List.getElem?_eq_some_iff.mp hcall).1
  by_cases htarget : ∃ b, a = .publisher b ∧ b.target = some n
  · obtain ⟨b, rfl, htarget⟩ := htarget
    cases b with
    | publish envelope nonBlocking => cases htarget
    | wake index => cases htarget
    | acquire m =>
      cases htarget
      obtain ⟨call', hcall', -, rfl⟩ := acquire_eq_some h
      exact hset call' _ hcall' rfl
    | cancel m =>
      cases htarget
      obtain ⟨call', hcall', -, rfl⟩ := cancel_eq_some h
      exact hset call' _ hcall' rfl
    | dispatch m now =>
      cases htarget
      obtain ⟨call', phase, hcall', hcalls⟩ := calls_dispatch h
      exact hset call' phase hcall' hcalls
    | send m =>
      cases htarget
      obtain ⟨call', phase, hcall', hcalls⟩ := calls_send h
      exact hset call' phase hcall' hcalls
  · exact ⟨call.phase, call_of_other h hcall fun b hb ht => htarget ⟨b, hb, ht⟩⟩

/-- A dispatcher in the slot is as it was built. -/
theorem dispatcher_step {a : Action} (h : step config s a = some s')
    {dispatcher : ChannelDispatcher} (hdispatcher : s'.dispatcher = some dispatcher) :
    s.dispatcher = some dispatcher := by
  cases a with
  | shutdown a =>
    have hkeep := hdispatcher
    cases stepShutdown_cases h with
    | takeDispatcher => cases hkeep
    | skipJoin => cases hkeep
    | _ => exact hkeep
  | _ =>
    rw [← (of_not_shutdown h (by simp)).2.2.2.1]
    exact hdispatcher

end MemoryBus
end TokioEvents
