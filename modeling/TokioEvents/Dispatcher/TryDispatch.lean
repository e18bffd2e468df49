/-
  TokioEvents.Dispatcher.TryDispatch

  What `try_dispatch` says about the queue.  `Backpressure` is to mean that the queue is
  full, so that a caller who waits and tries again gets through as soon as there is room.

  `RedbDispatcher` keeps to that.  `ChannelDispatcher` answers `Backpressure` to every event
  with a `deliver_at`, past or future, before it looks at the queue.
-/

import TokioEvents.Dispatcher.FrontEnd

namespace TokioEvents
namespace FrontEnd

variable {μ : Type} {s s' : FrontEnd μ}

/-! ## The helpers, field by field -/

section Fields

variable (s : FrontEnd μ) (n : Nat) (result : DispatchResult)

@[simp] theorem queue_updateMaxQueueSize : s.updateMaxQueueSize.queue = s.queue := by
  unfold updateMaxQueueSize
  split <;> rfl

@[simp] theorem deferred_updateMaxQueueSize : s.updateMaxQueueSize.deferred = s.deferred := by
  unfold updateMaxQueueSize
  split <;> rfl

@[simp] theorem queue_countErrors : (s.countErrors n).queue = s.queue := rfl

@[simp] theorem queue_countError : s.countError.queue = s.queue := rfl

@[simp] theorem queue_begin : s.begin.queue = s.queue := rfl

@[simp] theorem queue_finish : (s.finish n result).queue = s.queue := rfl

@[simp] theorem queue_enqueue (queue : Permits.Channel QueueSender μ) (message : μ) :
    (s.enqueue queue message).queue = queue := rfl

end Fields

/-! ## The queue never holds more than it may -/

theorem bounded_trySend (hs : s.queue.Bounded) (message : μ) :
    (s.trySend message).2.queue.Bounded := by
  unfold trySend
  dsimp only
  split
  · rename_i queue hsend
    exact Permits.Channel.bounded_of_trySend hsend
  · simpa using hs
  · simpa using hs

theorem bounded_tryCall
    {tryDispatch : FrontEnd μ → EventEnvelope → Except TryPublishError Unit × FrontEnd μ}
    (htry : ∀ s envelope, s.queue.Bounded → (tryDispatch s envelope).2.queue.Bounded)
    (hs : s.queue.Bounded) (envelope : EventEnvelope) :
    (tryCall tryDispatch s envelope).queue.Bounded := by
  have hbounded := htry s.begin envelope hs
  unfold tryCall
  dsimp only
  split <;> exact hbounded

theorem bounded_channelTryDispatch (s : FrontEnd EventEnvelope) (envelope : EventEnvelope)
    (hs : s.queue.Bounded) : (channelTryDispatch s envelope).2.queue.Bounded := by
  unfold channelTryDispatch
  repeat' split
  · exact hs
  · exact hs
  · exact hs
  · exact bounded_trySend hs envelope

theorem bounded_redbTryDispatch (s : FrontEnd RedbDispatcherMessage) (envelope : EventEnvelope)
    (hs : s.queue.Bounded) : (redbTryDispatch s envelope).2.queue.Bounded := by
  unfold redbTryDispatch
  repeat' split
  · exact hs
  · exact hs
  · exact bounded_trySend hs _

theorem bounded_channelDispatch (dropOnFull : Bool) {s : FrontEnd EventEnvelope}
    (hs : s.queue.Bounded) (envelope : EventEnvelope) (now : DateTime) :
    (channelDispatch dropOnFull s envelope now).queue.Bounded := by
  unfold channelDispatch
  dsimp only
  split
  · exact hs
  split
  · exact hs
  split
  · exact hs
  split
  · rename_i queue hsend
    exact Permits.Channel.bounded_of_trySend hsend
  · split
    · simpa using hs
    · simpa using hs.await _ _
  · simpa using hs

theorem queue_redbSent (waitForPersistence : Bool) (s : FrontEnd RedbDispatcherMessage) (n : Nat) :
    (redbSent waitForPersistence s n).queue = s.queue := by
  unfold redbSent
  split <;> rfl

theorem bounded_redbDispatch (dropOnFull waitForPersistence : Bool)
    {s : FrontEnd RedbDispatcherMessage} (hs : s.queue.Bounded) (envelope : EventEnvelope) :
    (redbDispatch dropOnFull waitForPersistence s envelope).queue.Bounded := by
  unfold redbDispatch
  dsimp only
  split
  · exact hs
  split
  · exact hs
  split
  · rename_i queue hsend
    rw [queue_redbSent]
    exact Permits.Channel.bounded_of_trySend hsend
  · split
    · simpa using hs
    · simpa using hs.await _ _
  · simpa using hs

theorem bounded_feed (hs : s.queue.Bounded) (message : μ) : (s.feed message).queue.Bounded := by
  unfold feed
  dsimp only
  split
  · rename_i queue hsend
    exact Permits.Channel.bounded_of_trySend hsend
  · exact hs.await _ _
  · exact hs

theorem bounded_stepQueue {sent : FrontEnd μ → Nat → FrontEnd μ} {closed : Error}
    {message : EventEnvelope → μ} {a : FrontEndAction}
    (hsent : ∀ s n, (sent s n).queue = s.queue) (hs : s.queue.Bounded)
    (h : stepQueue sent closed message s a = some s') : s'.queue.Bounded := by
  cases a with
  | resume sender =>
    simp only [stepQueue, resume] at h
    split at h
    · obtain ⟨⟨m, queue⟩, hcomplete, rfl⟩ := Option.map_eq_some_iff.mp h
      have hqueue := hs.complete hcomplete
      cases sender with
      | call n =>
        rw [hsent]
        exact hqueue
      | task n => exact hqueue
    · split at h
      · cases sender <;> cases h <;> exact hs.abandon _
      · cases h
  | cancel sender =>
    simp only [stepQueue, cancel] at h
    split at h
    · cases h
      exact hs.abandon sender
    · cases h
  | feed envelope =>
    cases h
    exact bounded_feed hs _
  | recv around => cases h
  | persist recorded faults => cases h
  | dispatched => cases h
  | workerEnds =>
    cases h
    exact hs.dropReceiver
  | stop =>
    cases h
    exact hs
  | closeSender =>
    cases h
    exact hs
  | dispatch envelope now => cases h
  | tryDispatch envelope => cases h
  | confirmed n => cases h
  | wake index => cases h

theorem bounded_recv {take : InHand μ → Taken μ → Option (InHand μ)} {around : Surroundings}
    (hs : s.queue.Bounded) (h : s.recv take around = some s') : s'.queue.Bounded := by
  obtain ⟨message, queue, inHand, hrecv, -, rfl⟩ := recv_cases h
  exact hs.recv hrecv

theorem queue_dispatched {fails : Taken μ → Bool} (h : s.dispatched fails = some s') :
    s'.queue = s.queue := by
  obtain ⟨taken, rest, -, ⟨-, rfl⟩ | ⟨-, rfl⟩⟩ := dispatched_cases h <;> rfl

/-- **One step** of either dispatcher. -/
theorem bounded_channelStep {dropOnFull : Bool} {s s' : FrontEnd EventEnvelope}
    {a : FrontEndAction} (hs : s.queue.Bounded) (h : channelStep dropOnFull s a = some s') :
    s'.queue.Bounded := by
  unfold channelStep at h
  split at h
  · cases h
    exact bounded_channelDispatch dropOnFull hs _ _
  · cases h
    exact bounded_tryCall bounded_channelTryDispatch hs _
  · obtain ⟨message, -, rfl⟩ := Option.map_eq_some_iff.mp h
    refine bounded_feed ?_ message
    exact hs
  · exact bounded_recv hs h
  · rw [queue_dispatched h]
    exact hs
  · exact bounded_stepQueue (fun s n => queue_finish s n .ok) hs h

theorem bounded_redbStep {json : SerdeJson} {dropOnFull waitForPersistence : Bool}
    {s s' : FrontEnd RedbDispatcherMessage} {a : FrontEndAction} (hs : s.queue.Bounded)
    (h : redbStep json dropOnFull waitForPersistence s a = some s') : s'.queue.Bounded := by
  unfold redbStep at h
  split at h
  · cases h
    exact bounded_redbDispatch dropOnFull waitForPersistence hs _
  · cases h
    exact bounded_tryCall bounded_redbTryDispatch hs _
  · unfold confirmed at h
    split at h
    · cases h
      exact hs
    · cases h
  · exact bounded_recv hs h
  · obtain ⟨batch, valid, -, -, ⟨-, rfl⟩ | ⟨-, rfl⟩⟩ := persist_cases h <;> exact hs
  · rw [queue_dispatched h]
    exact hs
  · exact bounded_stepQueue (queue_redbSent waitForPersistence) hs h

/-! ## The contract -/

/-- The message has got into the queue once, or to the scheduled ones. -/
def TakenOnce (s s' : FrontEnd μ) (message : μ) : Prop :=
  (s'.queue = { s.queue with buffer := s.queue.buffer ++ [message] } ∧
      s'.deferred = s.deferred) ∨
    (s'.queue = s.queue ∧ s'.deferred = s.deferred ++ [message])

/-- What `try_dispatch` is to do: `Backpressure` is said of a full queue and of no other,
    `Ok` means that the event is taken once, an error that the queue is what it was, and
    while there is room there is no error. -/
structure Honest (s : FrontEnd μ) (message : μ)
    (r : Except TryPublishError Unit × FrontEnd μ) : Prop where
  backpressure : r.1 = .error .backpressure ↔ s.queue.AtCapacity
  taken : r.1 = .ok () → TakenOnce s r.2 message
  refused : ∀ e, r.1 = .error e → r.2.queue = s.queue ∧ r.2.deferred = s.deferred
  room : s.queue.receiver = true → ¬ s.queue.AtCapacity → r.1 = .ok ()

/-- **The common part keeps to it.** -/
theorem honest_trySend (hs : s.queue.Bounded) (message : μ) :
    Honest s message (s.trySend message) := by
  have hcapacity : s.queue.AtCapacity ↔ s.queue.receiver = true ∧ s.queue.available = 0 := by
    unfold Permits.Channel.AtCapacity
    rw [hs.available_eq_zero]
  unfold trySend
  simp only [queue_updateMaxQueueSize]
  cases hsend : s.queue.trySend message with
  | ok queue =>
    obtain ⟨hreceiver, havailable, rfl⟩ := Permits.Channel.trySend_eq_ok.mp hsend
    refine ⟨?_, fun _ => .inl ⟨rfl, ?_⟩, (fun e h => by cases h), fun _ _ => rfl⟩
    · rw [hcapacity]
      simp [havailable]
    · exact deferred_updateMaxQueueSize s
  | error e =>
    cases e with
    | full =>
      have hfull := hcapacity.mpr (Permits.Channel.trySend_eq_full.mp hsend)
      refine ⟨iff_of_true rfl hfull, (fun h => by cases h), fun e _ => ⟨?_, ?_⟩,
        fun _ hroom => absurd hfull hroom⟩
      · exact queue_updateMaxQueueSize s
      · exact deferred_updateMaxQueueSize s
    | closed =>
      have hreceiver := Permits.Channel.trySend_eq_closed.mp hsend
      refine ⟨?_, (fun h => by cases h), fun e _ => ⟨?_, ?_⟩, ?_⟩
      · rw [hcapacity, hreceiver]
        simp
      · exact queue_updateMaxQueueSize s
      · exact deferred_updateMaxQueueSize s
      · intro hopen
        rw [hreceiver] at hopen
        cases hopen

/-- **`ChannelDispatcher::try_dispatch`** keeps to it for the events without a schedule,
    and while the queue is full. -/
theorem honest_channelTryDispatch_iff {s : FrontEnd EventEnvelope} (hs : s.queue.Bounded)
    (hrunning : s.isRunning = true) (hsender : s.sender = true) (envelope : EventEnvelope) :
    Honest s envelope (channelTryDispatch s envelope)
      ↔ envelope.metadata.deliverAt = none ∨ s.queue.AtCapacity := by
  cases hschedule : envelope.metadata.deliverAt with
  | none =>
    have hcommon : channelTryDispatch s envelope = s.trySend envelope := by
      simp [channelTryDispatch, hrunning, hsender, hschedule]
    rw [hcommon]
    exact iff_of_true (honest_trySend hs envelope) (.inl rfl)
  | some deliverAt =>
    have hearly : channelTryDispatch s envelope = (.error .backpressure, s) := by
      simp [channelTryDispatch, hrunning, hschedule]
    rw [hearly]
    constructor
    · intro h
      exact .inr (h.backpressure.mp rfl)
    · rintro (h | hfull)
      · cases h
      · exact ⟨iff_of_true rfl hfull, (fun h => by cases h), fun _ _ => ⟨rfl, rfl⟩,
          fun _ hroom => absurd hfull hroom⟩

theorem honest_redbTryDispatch {s : FrontEnd RedbDispatcherMessage} (hs : s.queue.Bounded)
    (hrunning : s.isRunning = true) (hsender : s.sender = true) (envelope : EventEnvelope) :
    Honest s ⟨envelope, none⟩ (redbTryDispatch s envelope) := by
  have hcommon : redbTryDispatch s envelope = s.trySend ⟨envelope, none⟩ := by
    simp [redbTryDispatch, hrunning, hsender]
  rw [hcommon]
  exact honest_trySend hs _

/-- **Backpressure means a full queue**, in every state that a running dispatcher can reach:
    always with `RedbDispatcher`, and with `ChannelDispatcher` exactly for an event without
    a `deliver_at`, or while the queue is full. -/
theorem tryDispatch_honest_iff (json : SerdeJson) (dropOnFull waitForPersistence : Bool)
    (capacity : Nat) (as : List FrontEndAction) (envelope : EventEnvelope) :
    (∀ s, channelRun dropOnFull capacity as = some s → s.isRunning = true → s.sender = true →
      (Honest s envelope (channelTryDispatch s envelope)
        ↔ envelope.metadata.deliverAt = none ∨ s.queue.AtCapacity)) ∧
    ∀ s, redbRun json dropOnFull waitForPersistence capacity as = some s → s.isRunning = true →
      s.sender = true → Honest s ⟨envelope, none⟩ (redbTryDispatch s envelope) := by
  constructor
  · intro s hrun hrunning hsender
    have hbounded : s.queue.Bounded :=
      Transition.invariant (I := fun s => s.queue.Bounded) (fun _ _ _ => bounded_channelStep)
        (Permits.Channel.bounded_new capacity) hrun
    exact honest_channelTryDispatch_iff hbounded hrunning hsender envelope
  · intro s hrun hrunning hsender
    have hbounded : s.queue.Bounded :=
      Transition.invariant (I := fun s => s.queue.Bounded) (fun _ _ _ => bounded_redbStep)
        (Permits.Channel.bounded_new capacity) hrun
    exact honest_redbTryDispatch hbounded hrunning hsender envelope

/-- A codec that knows no event. -/
def noOrdersJson : SerdeJson := .ofList []

/-- A queue with room for one event, and a second call in line. -/
def crowdedQueue : List FrontEndAction :=
  [.dispatch (.fromSerialized 1 "OrderPlaced" { eventId := 1, timestamp := 0 } .normal []) 0,
    .dispatch (.fromSerialized 1 "OrderPlaced" { eventId := 2, timestamp := 0 } .normal []) 0,
    .recv ⟨1, 0, 0, false⟩]

/-- An event that was to be delivered long ago. -/
def overdueOrder : EventEnvelope :=
  .fromSerialized 1 "OrderPlaced" { eventId := 3, timestamp := 0, deliverAt := some 0 } .normal []

/-- The permit of the message that was taken belongs to the call in line. -/
theorem tryDispatch_honest_iff_crowdedQueue :
    (∃ s, channelRun false 1 crowdedQueue = some s ∧
      (Honest s overdueOrder (channelTryDispatch s overdueOrder)
        ↔ overdueOrder.metadata.deliverAt = none ∨ s.queue.AtCapacity)) ∧
    ∃ s, redbRun noOrdersJson false false 1 crowdedQueue = some s ∧
      Honest s ⟨overdueOrder, none⟩ (redbTryDispatch s overdueOrder) := by
  have hchannel : ((channelRun false 1 crowdedQueue).map fun s => (s.isRunning, s.sender))
      = some (true, true) := by decide +kernel
  have hredb : ((redbRun noOrdersJson false false 1 crowdedQueue).map fun s => (s.isRunning, s.sender))
      = some (true, true) := by decide +kernel
  obtain ⟨s, hs, hflags⟩ := Option.map_eq_some_iff.mp hchannel
  obtain ⟨r, hr, hflags'⟩ := Option.map_eq_some_iff.mp hredb
  obtain ⟨hrunning, hsender⟩ := Prod.mk.inj hflags
  obtain ⟨hrunning', hsender'⟩ := Prod.mk.inj hflags'
  obtain ⟨hchannelHonest, hredbHonest⟩ :=
    tryDispatch_honest_iff noOrdersJson false false 1 crowdedQueue overdueOrder
  exact ⟨⟨s, hs, hchannelHonest s hs hrunning hsender⟩,
    r, hr, hredbHonest r hr hrunning' hsender'⟩

/-- The queue is empty, and an overdue event meets backpressure. -/
theorem not_honest_overdueOrder :
    (channelTryDispatch (started 4) overdueOrder).1 = .error .backpressure ∧
      ¬ Honest (started 4) overdueOrder (channelTryDispatch (started 4) overdueOrder) := by
  have hrefused : (channelTryDispatch (started 4) overdueOrder).1 = .error .backpressure := rfl
  refine ⟨hrefused, fun h => ?_⟩
  have hempty : ¬ (started 4 : FrontEnd EventEnvelope).queue.AtCapacity := by decide
  exact hempty (h.backpressure.mp hrefused)

end FrontEnd
end TokioEvents
