/-
  TokioEvents.Dispatcher.SameInterface

  The two dispatchers side by side: the same calls, and the same consumption of the queue.
  Their queues hold the same events at any time (`Mirrors`); what they tell their callers
  differs in two ways.  With `drop_on_full` and a full queue, `dispatch` of
  `ChannelDispatcher` returns `Ok` and counts an error, and `dispatch` of `RedbDispatcher`
  returns an error and counts nothing.  And the worker of `RedbDispatcher` counts errors of
  its own: an event that it cannot serialize, and every event of a batch whose write panics.
-/

import TokioEvents.Dispatcher.TryDispatch

namespace TokioEvents

/-- The result without the text of its error. -/
def DispatchResult.kind : DispatchResult → DispatchResult
  | .error (.internal _) => .error (.internal "")
  | .error (.serializationError _) => .error (.serializationError "")
  | result => result

/-- An unscheduled event without an idempotency key. -/
def EventEnvelope.Plain (envelope : EventEnvelope) : Prop :=
  envelope.metadata.deliverAt = none ∧ envelope.metadata.idempotencyKey = none

instance (envelope : EventEnvelope) : Decidable envelope.Plain :=
  inferInstanceAs (Decidable (_ ∧ _))

namespace FrontEndAction

/-- Calls with plain events, and what the worker does. -/
def Plain : FrontEndAction → Prop
  | .dispatch envelope _ => envelope.Plain
  | .tryDispatch envelope => envelope.Plain
  | .resume _ => True
  | .cancel _ => True
  | .recv _ => True
  | .persist _ _ => True
  | .dispatched => True
  | .workerEnds => True
  | _ => False

instance : (a : FrontEndAction) → Decidable a.Plain
  | .dispatch envelope _ | .tryDispatch envelope => inferInstanceAs (Decidable envelope.Plain)
  | .resume _ | .cancel _ | .recv _ | .persist _ _ | .dispatched | .workerEnds => isTrue trivial
  | .confirmed _ | .wake _ | .feed _ | .stop | .closeSender => isFalse id

/-- The step is one of the calls or of the consumption of the queue, and not work on a message
    that is in hand already. -/
def shared : FrontEndAction → Bool
  | .persist _ _ => false
  | .dispatched => false
  | _ => true

end FrontEndAction

/-- What is in hand. -/
def InHand.messages {μ : Type} : InHand μ → List (Taken μ)
  | .gathered batch => batch
  | .dispatching rest => rest

/-- The errors that are going to be counted for it. -/
def InHand.failing {μ : Type} (inHand : InHand μ) : Nat := inHand.messages.countP (·.fails)

namespace FrontEnd

variable {μ : Type}

/-- What the calls have returned, in order. -/
def kinds (s : FrontEnd μ) : List (Nat × DispatchResult) := s.returned.map fun x => (x.1, x.2.kind)

/-- A `dispatch` call that meets a full queue. -/
def MeetsFull (s : FrontEnd μ) : FrontEndAction → Prop
  | .dispatch _ _ => s.queue.AtCapacity
  | _ => False

instance (s : FrontEnd μ) : (a : FrontEndAction) → Decidable (s.MeetsFull a)
  | .dispatch _ _ => inferInstanceAs (Decidable s.queue.AtCapacity)
  | .tryDispatch _ | .resume _ | .cancel _ | .confirmed _ | .wake _ | .feed _ | .recv _
  | .persist _ _ | .dispatched | .workerEnds | .stop | .closeSender => isFalse id

/-- The errors that a write step counts beside those of `dispatch`: the events that are not
    serialized and, if the write panics, those that `dispatch` would have delivered. -/
def ownErrors (json : SerdeJson) (r : FrontEnd RedbDispatcherMessage) : FrontEndAction → Nat
  | .persist recorded faults =>
    let batch := (DupCheck.run (fun taken : Taken RedbDispatcherMessage =>
      taken.message.idempotencyKey) recorded r.inHand.messages).valid
    batch.countP (unserialized json) +
      if batchOutcome json faults batch = .panicked then batch.countP fun taken => !taken.fails
      else 0
  | _ => 0

/-- The message of an event that nobody waits for. -/
def message (envelope : EventEnvelope) : RedbDispatcherMessage := ⟨envelope, none⟩

/-- The message as the other worker takes it. -/
def takenMessage (taken : Taken EventEnvelope) : Taken RedbDispatcherMessage :=
  ⟨taken.toSurroundings, message taken.message⟩

/-- **What publishers observe is the same**: the kind of each result, the events accepted in
    their order, and the errors counted. -/
structure Agree (s : FrontEnd EventEnvelope) (r : FrontEnd RedbDispatcherMessage) : Prop where
  kinds : s.kinds = r.kinds
  accepted : r.accepted.map (·.envelope) = s.accepted
  dispatchErrors : s.dispatchErrors = r.dispatchErrors

/-- **The simulation.** The queues hold the same events; and as long as the results have
    been of the same kinds, the one dispatcher has counted `own` errors more, the messages in
    hand left aside. -/
structure Mirrors (own : Nat) (s : FrontEnd EventEnvelope) (r : FrontEnd RedbDispatcherMessage) :
    Prop where
  running : s.isRunning = true ∧ r.isRunning = true
  sender : s.sender = true ∧ r.sender = true
  bounded : s.queue.Bounded
  plain : s.queue.Everywhere EventEnvelope.Plain
  inHand : ∀ taken ∈ r.inHand.messages, taken.message.envelope.Plain
  queue : r.queue = s.queue.map message
  accepted : r.accepted = s.accepted.map message
  calls : r.calls = s.calls
  returned : s.returned.length = r.returned.length
  counters : s.dispatchErrors < 2 ^ 64 ∧ r.dispatchErrors < 2 ^ 64
  dispatchErrors : s.kinds = r.kinds →
    (s.dispatchErrors + s.inHand.failing + own) % 2 ^ 64
      = (r.dispatchErrors + r.inHand.failing) % 2 ^ 64

theorem mirrors_started (capacity : Nat) : Mirrors 0 (started capacity) (started capacity) where
  running := ⟨rfl, rfl⟩
  sender := ⟨rfl, rfl⟩
  bounded := Permits.Channel.bounded_new capacity
  plain := Permits.Channel.everywhere_new capacity
  inHand _ h := absurd h List.not_mem_nil
  queue := rfl
  accepted := rfl
  calls := rfl
  returned := rfl
  counters := ⟨Nat.two_pow_pos 64, Nat.two_pow_pos 64⟩
  dispatchErrors _ := rfl

theorem countErrors_lt (s : FrontEnd μ) (n : Nat) : (s.countErrors n).dispatchErrors < 2 ^ 64 :=
  Nat.mod_lt _ (by decide)

section Helpers

variable {own : Nat} {s : FrontEnd EventEnvelope} {r : FrontEnd RedbDispatcherMessage}
  (h : Mirrors own s r)
include h

/-- With the same in hand, the errors differ by those of its own. -/
theorem Mirrors.agree_iff (hinHand : r.inHand.messages = s.inHand.messages.map takenMessage) :
    Agree s r ↔ s.kinds = r.kinds ∧ own % 2 ^ 64 = 0 := by
  have hfailing : r.inHand.failing = s.inHand.failing := by
    rw [InHand.failing, hinHand, List.countP_map]
    rfl
  obtain ⟨hcounter, hcounter'⟩ := h.counters
  constructor
  · intro hagree
    have := h.dispatchErrors hagree.kinds
    have := hagree.dispatchErrors
    exact ⟨hagree.kinds, by omega⟩
  · rintro ⟨hkinds, hown⟩
    have := h.dispatchErrors hkinds
    refine ⟨hkinds, ?_, by omega⟩
    rw [h.accepted, List.map_map]
    exact List.map_id s.accepted

/-- Both calls return. -/
theorem Mirrors.kinds_finish (n : Nat) (x y : DispatchResult) :
    (s.finish n x).kinds = (r.finish n y).kinds ↔ s.kinds = r.kinds ∧ x.kind = y.kind := by
  have hlength : s.kinds.length = r.kinds.length := by
    rw [kinds, kinds, List.length_map, List.length_map, h.returned]
  show (s.returned ++ [(n, x)]).map _ = (r.returned ++ [(n, y)]).map _ ↔ _
  rw [List.map_append, List.map_append]
  constructor
  · intro heq
    obtain ⟨hinit, hlast⟩ := List.append_inj heq hlength
    refine ⟨hinit, ?_⟩
    simpa using hlast
  · rintro ⟨hinit, hlast⟩
    show s.kinds ++ _ = r.kinds ++ _
    rw [hinit]
    simp [hlast]

theorem Mirrors.returned_finish (n : Nat) (x y : DispatchResult) :
    (s.finish n x).returned.length = (r.finish n y).returned.length := by
  show (s.returned ++ [(n, x)]).length = (r.returned ++ [(n, y)]).length
  rw [List.length_append, List.length_append, h.returned]
  rfl

/-- They return results of one kind. -/
theorem Mirrors.finish (n : Nat) (x y : DispatchResult) :
    Mirrors own (s.finish n x) (r.finish n y) :=
  { h with
    returned := h.returned_finish n x y
    dispatchErrors := fun heq => h.dispatchErrors ((h.kinds_finish n x y).mp heq).1 }

/-- One of them drops the event and counts it, the other one refuses it. -/
theorem Mirrors.drop (n : Nat) {x y : DispatchResult} (hkind : x.kind ≠ y.kind) :
    Mirrors own (s.countError.finish n x) (r.finish n y) :=
  { h with
    returned := h.returned_finish n x y
    counters := ⟨countErrors_lt s 1, h.counters.2⟩
    dispatchErrors := fun heq => absurd ((h.kinds_finish n x y).mp heq).2 hkind }

/-- The queue goes on, and a message may enter it. -/
theorem Mirrors.setQueue {queue : Permits.Channel QueueSender EventEnvelope}
    (hbounded : queue.Bounded) (hplain : queue.Everywhere EventEnvelope.Plain)
    (entered : List EventEnvelope) :
    Mirrors own { s with queue := queue, accepted := s.accepted ++ entered }
      { r with queue := queue.map message, accepted := r.accepted ++ entered.map message } :=
  { h with
    bounded := hbounded
    plain := hplain
    queue := rfl
    accepted := by
      show r.accepted ++ _ = (s.accepted ++ _).map message
      rw [h.accepted, List.map_append] }

theorem Mirrors.begin : Mirrors own s.begin r.begin :=
  { h with calls := congrArg (· + 1) h.calls }

/-- The statistics of the queue are no part of it. -/
theorem Mirrors.updateMaxQueueSize : Mirrors own s.updateMaxQueueSize r.updateMaxQueueSize := by
  unfold FrontEnd.updateMaxQueueSize
  split
  · split
    · exact { h with }
    · exact { h with }
  · split
    · exact { h with }
    · exact h

/-- Both count an error. -/
theorem Mirrors.countError : Mirrors own s.countError r.countError :=
  { h with
    counters := ⟨countErrors_lt s 1, countErrors_lt r 1⟩
    dispatchErrors := fun heq => by
      have := h.dispatchErrors heq
      simp only [FrontEnd.countError, FrontEnd.countErrors]
      omega }

end Helpers

/-! ## The workers -/

@[simp] theorem failing_cons (taken : Taken μ) (rest : List (Taken μ)) :
    (InHand.dispatching (taken :: rest)).failing
      = (InHand.dispatching rest).failing + if taken.fails = true then 1 else 0 := by
  simp [InHand.failing, InHand.messages, List.countP_cons]

theorem messages_channelTake {inHand inHand' : InHand μ} {taken : Taken μ}
    (h : channelTake inHand taken = some inHand') :
    inHand'.messages = inHand.messages ++ [taken] := by
  unfold channelTake at h
  split at h <;> cases h
  rfl

theorem messages_redbTake {inHand inHand' : InHand μ} {taken : Taken μ}
    (h : redbTake inHand taken = some inHand') :
    inHand'.messages = inHand.messages ++ [taken] := by
  unfold redbTake at h
  split at h
  · cases h
    rfl
  · split at h <;> cases h
    rfl
  · cases h

theorem failing_of_messages {inHand inHand' : InHand μ} {taken : Taken μ}
    (h : inHand'.messages = inHand.messages ++ [taken]) :
    inHand'.failing = inHand.failing + if taken.fails = true then 1 else 0 := by
  rw [InHand.failing, h, List.countP_append, List.countP_singleton]
  rfl

section Workers

variable {own : Nat} {s s' : FrontEnd EventEnvelope} {r r' : FrontEnd RedbDispatcherMessage}
  (h : Mirrors own s r)
include h

/-- The worker of the one dispatcher goes on. -/
theorem Mirrors.channelDispatched (hs : s.dispatched (·.fails) = some s') :
    Mirrors own s' r ∧ s'.kinds = s.kinds := by
  obtain ⟨taken, rest, hinHand, ⟨hfails, rfl⟩ | ⟨hfails, rfl⟩⟩ := dispatched_cases hs
  · refine ⟨{ h with counters := ⟨countErrors_lt s 1, h.counters.2⟩, dispatchErrors := ?_ }, rfl⟩
    intro heq
    have := h.dispatchErrors heq
    simp only [hinHand, failing_cons, hfails, if_true] at this
    simp only [FrontEnd.countError, FrontEnd.countErrors]
    omega
  · refine ⟨{ h with dispatchErrors := ?_ }, rfl⟩
    intro heq
    have := h.dispatchErrors heq
    simpa [hinHand, hfails] using this

/-- And the worker of the other one. -/
theorem Mirrors.redbDispatched (hr : r.dispatched redbFails = some r') :
    Mirrors own s r' ∧ r'.kinds = r.kinds := by
  obtain ⟨taken, rest, hinHand, hcounts⟩ := dispatched_cases hr
  have hall := h.inHand
  rw [hinHand] at hall
  obtain ⟨⟨hunscheduled, -⟩, hrest⟩ := List.forall_mem_cons.mp hall
  have hfails : redbFails taken = taken.fails := by
    simp [redbFails, EventEnvelope.isScheduled, hunscheduled]
  rw [hfails] at hcounts
  obtain ⟨hfails, rfl⟩ | ⟨hfails, rfl⟩ := hcounts
  · refine ⟨{ h with
      inHand := hrest, counters := ⟨h.counters.1, countErrors_lt r 1⟩, dispatchErrors := ?_ }, rfl⟩
    intro heq
    have := h.dispatchErrors heq
    simp only [hinHand, failing_cons, hfails, if_true] at this
    simp only [FrontEnd.countError, FrontEnd.countErrors]
    omega
  · refine ⟨{ h with inHand := hrest, dispatchErrors := ?_ }, rfl⟩
    intro heq
    have := h.dispatchErrors heq
    simpa [hinHand, hfails] using this

/-- **The write step** counts errors of its own. -/
theorem Mirrors.persist {json : SerdeJson} {recorded : String → Bool}
    {faults : RedbCall → Option Fault} (hr : r.persist json recorded faults = some r') :
    Mirrors (own + r.ownErrors json (.persist recorded faults)) s r' ∧ r'.kinds = r.kinds := by
  obtain ⟨batch, valid, hinHand, rfl, hcounts⟩ := persist_cases hr
  have hall : ∀ taken ∈ batch, taken.message.envelope.Plain := by
    have := h.inHand
    rwa [hinHand] at this
  have hvalid : (DupCheck.run (fun taken : Taken RedbDispatcherMessage =>
      taken.message.idempotencyKey) recorded batch).valid = batch :=
    DupCheck.valid_of_keyless _ _ fun taken htaken => (hall taken htaken).2
  rw [hvalid] at hcounts
  have hown : r.ownErrors json (.persist recorded faults) = batch.countP (unserialized json) +
      if batchOutcome json faults batch = .panicked then batch.countP fun taken => !taken.fails
      else 0 := by
    simp only [ownErrors, hinHand, InHand.messages, hvalid]
  have hfailing : r.inHand.failing = batch.countP (·.fails) := by rw [hinHand]; rfl
  obtain ⟨houtcome, rfl⟩ | ⟨houtcome, rfl⟩ := hcounts
  · -- the whole batch is counted, whatever `dispatch` would have made of it
    have hlength : batch.length
        = batch.countP (·.fails) + batch.countP fun taken => !taken.fails := by
      simpa using List.length_eq_countP_add_countP (fun taken => taken.fails) (l := batch)
    rw [if_pos houtcome] at hown
    refine ⟨{ h with
      inHand := fun _ hmem => absurd hmem List.not_mem_nil
      counters := ⟨h.counters.1, countErrors_lt _ _⟩
      dispatchErrors := ?_ }, rfl⟩
    intro heq
    have := h.dispatchErrors heq
    rw [hown]
    show _ = (((r.dispatchErrors + batch.countP (unserialized json)) % 2 ^ 64 + batch.length)
      % 2 ^ 64 + 0) % 2 ^ 64
    omega
  · rw [if_neg houtcome] at hown
    refine ⟨{ h with
      inHand := hall
      counters := ⟨h.counters.1, countErrors_lt _ _⟩
      dispatchErrors := ?_ }, rfl⟩
    intro heq
    have := h.dispatchErrors heq
    rw [hown]
    show _ = ((r.dispatchErrors + batch.countP (unserialized json)) % 2 ^ 64
      + batch.countP (·.fails)) % 2 ^ 64
    omega

end Workers

/-- One step of both: they go on as mirrors, and their results stay of the same kinds
    exactly if `C` holds. -/
structure StepsTogether (own : Nat) (s : FrontEnd EventEnvelope) (r : FrontEnd RedbDispatcherMessage)
    (s' : FrontEnd EventEnvelope) (r' : FrontEnd RedbDispatcherMessage) (C : Prop) : Prop where
  mirrors : Mirrors own s' r'
  kinds : s'.kinds = r'.kinds ↔ s.kinds = r.kinds ∧ C

@[simp] theorem kinds_updateMaxQueueSize (s : FrontEnd μ) :
    s.updateMaxQueueSize.kinds = s.kinds := by
  unfold updateMaxQueueSize
  split <;> rfl

section Steps

variable {own : Nat} {s s' : FrontEnd EventEnvelope} {r r' : FrontEnd RedbDispatcherMessage}
  {C : Prop}

/-- Neither returns. -/
theorem Mirrors.goOn (h : Mirrors own s' r') (hs : s'.kinds = s.kinds) (hr : r'.kinds = r.kinds)
    (hC : C) : StepsTogether own s r s' r' C := by
  refine ⟨h, ?_⟩
  rw [hs, hr]
  exact (and_iff_left hC).symm

/-- Both return the same. -/
theorem Mirrors.returns (h : Mirrors own s' r') (hs : s'.kinds = s.kinds) (hr : r'.kinds = r.kinds)
    (n : Nat) {x y : DispatchResult} (hkind : x.kind = y.kind) (hC : C) :
    StepsTogether own s r (s'.finish n x) (r'.finish n y) C := by
  refine ⟨h.finish n x y, ?_⟩
  rw [h.kinds_finish, hs, hr]
  exact and_congr_right fun _ => iff_of_true hkind hC

/-- **`try_dispatch`** is the same function of both queues. -/
theorem Mirrors.tryDispatch (h : Mirrors own s r) {envelope : EventEnvelope}
    (hplain : envelope.Plain) (hC : C) :
    StepsTogether own s r (tryCall channelTryDispatch s envelope) (tryCall redbTryDispatch r envelope)
      C := by
  have hs : channelTryDispatch s.begin envelope = s.begin.trySend envelope := by
    simp [channelTryDispatch, h.begin.running.1, h.begin.sender.1, hplain.1]
  have hr : redbTryDispatch r.begin envelope = r.begin.trySend (message envelope) := by
    simp [redbTryDispatch, h.begin.running.2, h.begin.sender.2, message]
  have hmirrors := h.begin.updateMaxQueueSize
  have hkinds : s.begin.updateMaxQueueSize.kinds = s.kinds := kinds_updateMaxQueueSize _
  have hkinds' : r.begin.updateMaxQueueSize.kinds = r.kinds := kinds_updateMaxQueueSize _
  unfold tryCall
  rw [hs, hr, h.calls]
  unfold FrontEnd.trySend
  simp only [queue_updateMaxQueueSize, queue_begin]
  rw [h.queue, Permits.Channel.trySend_map]
  cases hsend : s.queue.trySend envelope with
  | ok queue =>
    have hentered := hmirrors.setQueue (Permits.Channel.bounded_of_trySend hsend)
      (h.plain.trySend hplain hsend) [envelope]
    exact hentered.returns hkinds hkinds' s.calls rfl hC
  | error e =>
    cases e with
    | full => exact hmirrors.countError.returns hkinds hkinds' s.calls rfl hC
    | closed => exact hmirrors.returns hkinds hkinds' s.calls rfl hC

/-- **`dispatch`** is the same but for the event that is dropped. -/
theorem Mirrors.dispatch (h : Mirrors own s r) (dropOnFull : Bool) {envelope : EventEnvelope}
    (now : DateTime) (hplain : envelope.Plain) :
    StepsTogether own s r (channelDispatch dropOnFull s envelope now)
      (redbDispatch dropOnFull false r envelope) ¬ (dropOnFull = true ∧ s.queue.AtCapacity) := by
  have hcapacity : s.queue.AtCapacity ↔ s.queue.receiver = true ∧ s.queue.available = 0 := by
    unfold Permits.Channel.AtCapacity
    rw [h.bounded.available_eq_zero]
  have hnow : envelope.isScheduled now = false := by
    rw [EventEnvelope.isScheduled, hplain.1]
    rfl
  have hmirrors := h.begin.updateMaxQueueSize
  have hkinds : s.begin.updateMaxQueueSize.kinds = s.kinds := kinds_updateMaxQueueSize _
  have hkinds' : r.begin.updateMaxQueueSize.kinds = r.kinds := kinds_updateMaxQueueSize _
  unfold channelDispatch redbDispatch
  simp only [h.begin.running.1, h.begin.running.2, h.begin.sender.1, h.begin.sender.2, hnow,
    Bool.not_true, Bool.false_eq_true, if_false, queue_updateMaxQueueSize, queue_begin, h.calls]
  rw [h.queue, show (⟨envelope, none⟩ : RedbDispatcherMessage) = message envelope from rfl,
    Permits.Channel.trySend_map]
  cases hsend : s.queue.trySend envelope with
  | ok queue =>
    obtain ⟨-, havailable, -⟩ := Permits.Channel.trySend_eq_ok.mp hsend
    have hentered := hmirrors.setQueue (Permits.Channel.bounded_of_trySend hsend)
      (h.plain.trySend hplain hsend) [envelope]
    refine hentered.returns hkinds hkinds' s.calls rfl ?_
    rintro ⟨-, hfull⟩
    exact havailable (hcapacity.mp hfull).2
  | error e =>
    cases e with
    | full =>
      have hfull := hcapacity.mpr (Permits.Channel.trySend_eq_full.mp hsend)
      cases dropOnFull with
      | true =>
        -- the event is dropped: one call returns `Ok`, the other one an error
        have hkind : DispatchResult.ok.kind
            ≠ (DispatchResult.error (.internal "Channel full")).kind := by decide
        refine ⟨hmirrors.drop s.calls hkind, ?_⟩
        refine iff_of_false (fun heq => ?_) fun hnot => hnot.2 ⟨rfl, hfull⟩
        exact hkind ((hmirrors.kinds_finish s.calls _ _).mp heq).2
      | false =>
        have hwaits := hmirrors.setQueue (h.bounded.await (.call s.calls) envelope)
          (h.plain.await (.call s.calls) hplain) []
        simp only [List.append_nil, List.map_nil] at hwaits
        rw [← Permits.Channel.await_map] at hwaits
        refine hwaits.goOn hkinds hkinds' ?_
        rintro ⟨hdrop, -⟩
        cases hdrop
    | closed =>
      have hclosed := Permits.Channel.trySend_eq_closed.mp hsend
      refine hmirrors.returns hkinds hkinds' s.calls rfl ?_
      rintro ⟨-, hfull⟩
      rw [hclosed] at hcapacity
      cases (hcapacity.mp hfull).1

/-- **The ends of the waits, and the end of the worker,** are the same. -/
theorem Mirrors.stepQueue (h : Mirrors own s r) {a : FrontEndAction} (hplain : a.Plain) (hC : C)
    (hcalls : ∀ envelope now, a ≠ .dispatch envelope now)
    (htries : ∀ envelope, a ≠ .tryDispatch envelope) :
    Option.Rel (fun s' r' => StepsTogether own s r s' r' C)
      (s.stepQueue (fun s n => s.finish n .ok) (.internal "Event channel closed") id a)
      (r.stepQueue (redbSent false) (.internal "Channel closed") message a) := by
  -- a sender that gives up leaves both queues
  have habandon : ∀ sender, Mirrors own { s with queue := s.queue.abandon sender }
      { r with queue := (s.queue.abandon sender).map message } := by
    intro sender
    have hgone := h.setQueue (h.bounded.abandon sender) (h.plain.abandon sender) []
    simpa using hgone
  cases a with
  | resume sender =>
    simp only [FrontEnd.stepQueue, FrontEnd.resume]
    rw [h.queue, Permits.Channel.receiver_map, Permits.Channel.holds_map]
    split
    · rw [Permits.Channel.complete_map]
      cases hcomplete : s.queue.complete sender with
      | none => exact .none
      | some taken =>
        have hentered := h.setQueue (h.bounded.complete hcomplete) (h.plain.complete hcomplete).2
          [taken.1]
        cases sender with
        | call n =>
          exact .some (Mirrors.returns (s := s) (r := r) hentered rfl rfl n (x := .ok) (y := .ok)
            rfl hC)
        | task n => exact .some (hentered.goOn rfl rfl hC)
    · split
      · rw [Permits.Channel.abandon_map]
        cases sender with
        | call n =>
          refine .some (Mirrors.returns (s := s) (r := r) (habandon (.call n)) rfl rfl n ?_ hC)
          rfl
        | task n => exact .some ((habandon (.task n)).goOn rfl rfl hC)
      · exact .none
  | cancel sender =>
    simp only [FrontEnd.stepQueue, FrontEnd.cancel]
    rw [h.queue, Permits.Channel.holds_map]
    split
    · rw [Permits.Channel.abandon_map]
      exact .some ((habandon sender).goOn rfl rfl hC)
    · exact .none
  | workerEnds =>
    have hdropped := h.setQueue h.bounded.dropReceiver h.plain.dropReceiver []
    simp only [List.append_nil, List.map_nil] at hdropped
    simp only [FrontEnd.stepQueue]
    rw [h.queue, Permits.Channel.dropReceiver_map]
    exact .some (hdropped.goOn rfl rfl hC)
  | recv around => exact .none
  | persist recorded faults => exact .none
  | dispatched => exact .none
  | dispatch envelope now => exact absurd rfl (hcalls envelope now)
  | tryDispatch envelope => exact absurd rfl (htries envelope)
  | confirmed n => exact hplain.elim
  | wake index => exact hplain.elim
  | feed envelope => exact hplain.elim
  | stop => exact hplain.elim
  | closeSender => exact hplain.elim

/-- **The next message** is the same for both workers. -/
theorem Mirrors.recv (h : Mirrors own s r) {around : Surroundings} (hC : C)
    (hs : s.recv channelTake around = some s') (hr : r.recv redbTake around = some r') :
    StepsTogether own s r s' r' C := by
  obtain ⟨envelope, queue, inHand, hrecv, htake, rfl⟩ := recv_cases hs
  obtain ⟨msg, queue', inHand', hrecv', htake', rfl⟩ := recv_cases hr
  rw [h.queue, Permits.Channel.recv_map, hrecv] at hrecv'
  cases hrecv'
  obtain ⟨hplain, hrest⟩ := h.plain.recv hrecv
  have hmessages := messages_redbTake htake'
  have hleft := h.setQueue (h.bounded.recv hrecv) hrest []
  simp only [List.append_nil, List.map_nil] at hleft
  refine Mirrors.goOn { hleft with inHand := ?_, dispatchErrors := ?_ } rfl rfl hC
  · show ∀ taken ∈ inHand'.messages, _
    rw [hmessages]
    exact List.forall_mem_append.mpr ⟨h.inHand, List.forall_mem_singleton.mpr hplain⟩
  · intro heq
    have := h.dispatchErrors heq
    have hfailing := failing_of_messages (messages_channelTake htake)
    have hfailing' := failing_of_messages hmessages
    simp only at hfailing hfailing' ⊢
    omega

/-- **One shared step.** They answer alike but for an event that is dropped. -/
theorem Mirrors.step (h : Mirrors own s r) {a : FrontEndAction} (hplain : a.Plain)
    (hshared : a.shared = true) {json : SerdeJson} {dropOnFull : Bool}
    (hs : channelStep dropOnFull s a = some s') (hr : redbStep json dropOnFull false r a = some r') :
    StepsTogether own s r s' r' ¬ (dropOnFull = true ∧ s.MeetsFull a) := by
  have hqueue : ∀ {x : Option (FrontEnd EventEnvelope)} {y : Option (FrontEnd RedbDispatcherMessage)}
      {C : Prop}, Option.Rel (fun s' r' => StepsTogether own s r s' r' C) x y → x = some s' →
      y = some r' → StepsTogether own s r s' r' C := by
    rintro x y C hrel rfl rfl
    cases hrel
    assumption
  cases a with
  | dispatch envelope now =>
    cases hs
    cases hr
    exact h.dispatch dropOnFull now hplain
  | tryDispatch envelope =>
    cases hs
    cases hr
    exact h.tryDispatch hplain And.right
  | resume sender =>
    exact hqueue (h.stepQueue (a := .resume sender) trivial And.right (by simp) (by simp)) hs hr
  | cancel sender =>
    exact hqueue (h.stepQueue (a := .cancel sender) trivial And.right (by simp) (by simp)) hs hr
  | recv around => exact h.recv And.right hs hr
  | workerEnds =>
    exact hqueue (h.stepQueue (a := .workerEnds) trivial And.right (by simp) (by simp)) hs hr
  | persist recorded faults => cases hshared
  | dispatched => cases hshared
  | confirmed n => exact hplain.elim
  | wake index => exact hplain.elim
  | feed envelope => exact hplain.elim
  | stop => exact hplain.elim
  | closeSender => exact hplain.elim

/-- What one dispatcher lets a caller do, the other one does. -/
theorem Mirrors.isSome_step (h : Mirrors own s r) {a : FrontEndAction} (hplain : a.Plain)
    (hshared : a.shared = true) (hrecv : ∀ around, a ≠ .recv around) (json : SerdeJson)
    (dropOnFull : Bool) :
    (channelStep dropOnFull s a).isSome = (redbStep json dropOnFull false r a).isSome := by
  have hqueue : ∀ {x : Option (FrontEnd EventEnvelope)} {y : Option (FrontEnd RedbDispatcherMessage)},
      Option.Rel (fun s' r' => StepsTogether own s r s' r' True) x y → x.isSome = y.isSome := by
    rintro x y (hrel | -) <;> rfl
  cases a with
  | dispatch envelope now => rfl
  | tryDispatch envelope => rfl
  | resume sender =>
    exact hqueue (h.stepQueue (a := .resume sender) trivial trivial (by simp) (by simp))
  | cancel sender =>
    exact hqueue (h.stepQueue (a := .cancel sender) trivial trivial (by simp) (by simp))
  | recv around => exact absurd rfl (hrecv around)
  | workerEnds => rfl
  | persist recorded faults => cases hshared
  | dispatched => cases hshared
  | confirmed n => exact hplain.elim
  | wake index => exact hplain.elim
  | feed envelope => exact hplain.elim
  | stop => exact hplain.elim
  | closeSender => exact hplain.elim

end Steps

/-! ## Runs -/

theorem ownErrors_of_shared {json : SerdeJson} {r : FrontEnd RedbDispatcherMessage}
    {a : FrontEndAction} (h : a.shared = true) : r.ownErrors json a = 0 := by
  unfold ownErrors
  split
  · cases h
  · rfl

theorem not_meetsFull_of_not_shared {s : FrontEnd EventEnvelope} {a : FrontEndAction}
    (h : a.shared = false) : ¬ s.MeetsFull a := by
  unfold MeetsFull
  split
  · cases h
  · exact id

/-- **Every two runs** with the same calls and the same consumption of the queue. -/
theorem Mirrors.exec (json : SerdeJson) (dropOnFull : Bool) {as bs : List FrontEndAction}
    (hsame : as.filter (·.shared) = bs.filter (·.shared)) {own : Nat}
    {s s' : FrontEnd EventEnvelope} {r r' : FrontEnd RedbDispatcherMessage}
    (h : Mirrors own s r) (hplain : ∀ a ∈ as, a.Plain)
    (hs : Transition.exec (channelStep dropOnFull) s as = some s')
    (hr : Transition.exec (redbStep json dropOnFull false) r bs = some r') :
    StepsTogether
      (own + Transition.sumAlong (redbStep json dropOnFull false) (ownErrors json) r bs) s r s' r'
      (Transition.Along (channelStep dropOnFull)
        (fun s a => ¬ (dropOnFull = true ∧ s.MeetsFull a)) s as) := by
  revert own s r
  refine Transition.induction_shared (motive := fun as bs => (∀ a ∈ as, a.Plain) →
    ∀ {own : Nat} {s : FrontEnd EventEnvelope} {r : FrontEnd RedbDispatcherMessage},
      Mirrors own s r → Transition.exec (channelStep dropOnFull) s as = some s' →
      Transition.exec (redbStep json dropOnFull false) r bs = some r' →
      StepsTogether
        (own + Transition.sumAlong (redbStep json dropOnFull false) (ownErrors json) r bs) s r s' r'
        (Transition.Along (channelStep dropOnFull)
          (fun s a => ¬ (dropOnFull = true ∧ s.MeetsFull a)) s as)) ?_ ?_ ?_ ?_ hsame hplain
  · intro _ own s r h hs hr
    cases hs
    cases hr
    exact h.goOn rfl rfl trivial
  · -- the worker of the one dispatcher
    intro a as bs halone ih hplain own s r h hs hr
    obtain ⟨s₁, hstep, hs⟩ := (Transition.exec_cons_eq_some _).mp hs
    obtain ⟨hmirrors, hkinds⟩ : Mirrors own s₁ r ∧ s₁.kinds = s.kinds := by
      cases a with
      | dispatched => exact h.channelDispatched hstep
      | persist recorded faults => cases hstep
      | _ => cases halone
    have hrest := ih (fun b hb => hplain b (List.mem_cons_of_mem a hb)) hmirrors hs hr
    refine ⟨hrest.mirrors, ?_⟩
    rw [hrest.kinds, hkinds, Transition.along_cons_iff_of_step _ hstep,
      and_iff_right fun hfull => not_meetsFull_of_not_shared halone hfull.2]
  · -- the worker of the other one
    intro b as bs halone ih hplain own s r h hs hr
    obtain ⟨r₁, hstep, hr⟩ := (Transition.exec_cons_eq_some _).mp hr
    obtain ⟨hmirrors, hkinds⟩ : Mirrors (own + r.ownErrors json b) s r₁ ∧ r₁.kinds = r.kinds := by
      cases b with
      | dispatched => exact h.redbDispatched hstep
      | persist recorded faults => exact h.persist hstep
      | _ => cases halone
    have hrest := ih hplain hmirrors hs hr
    rw [Transition.sumAlong_cons_of_step _ _ hstep, ← Nat.add_assoc]
    refine ⟨hrest.mirrors, ?_⟩
    rw [hrest.kinds, hkinds]
  · -- both
    intro a as bs hshared ih hplain own s r h hs hr
    obtain ⟨s₁, hstep, hs⟩ := (Transition.exec_cons_eq_some _).mp hs
    obtain ⟨r₁, hstep', hr⟩ := (Transition.exec_cons_eq_some _).mp hr
    have hone := h.step (hplain a List.mem_cons_self) hshared hstep hstep'
    have hrest := ih (fun b hb => hplain b (List.mem_cons_of_mem a hb)) hone.mirrors hs hr
    rw [Transition.sumAlong_cons_of_step _ _ hstep', ownErrors_of_shared hshared, Nat.zero_add]
    refine ⟨hrest.mirrors, ?_⟩
    rw [hrest.kinds, hone.kinds, Transition.along_cons_iff_of_step _ hstep, and_assoc]

/-- **The two interfaces.** For every capacity and setting, and every sequence of plain calls
    with the same consumption of the queue, what one dispatcher lets its callers do the other
    one does; and where both workers are equally far, publishers observe the same exactly if
    `drop_on_full` is off or no `dispatch` call meets a full queue, and the worker of
    `RedbDispatcher` has counted no errors of its own (in the `u64` of the counter). -/
theorem interfaces_agree_iff (json : SerdeJson) (dropOnFull : Bool) (capacity : Nat)
    {as bs : List FrontEndAction} (hplain : ∀ a ∈ as, a.Plain)
    (hsame : as.filter (·.shared) = bs.filter (·.shared)) {s : FrontEnd EventEnvelope}
    {r : FrontEnd RedbDispatcherMessage} (hs : channelRun dropOnFull capacity as = some s)
    (hr : redbRun json dropOnFull false capacity bs = some r) :
    (∀ a : FrontEndAction, a.Plain → a.shared = true → (∀ around, a ≠ .recv around) →
      (channelStep dropOnFull s a).isSome = (redbStep json dropOnFull false r a).isSome) ∧
    (r.inHand.messages = s.inHand.messages.map takenMessage →
      (Agree s r ↔
        (dropOnFull = false ∨ Transition.Along (channelStep dropOnFull)
          (fun s a => ¬ s.MeetsFull a) (started capacity) as) ∧
        Transition.sumAlong (redbStep json dropOnFull false) (ownErrors json) (started capacity) bs
          % 2 ^ 64 = 0)) := by
  have htogether := (mirrors_started capacity).exec json dropOnFull hsame hplain hs hr
  refine ⟨fun a ha hshared hrecv => htogether.mirrors.isSome_step ha hshared hrecv json dropOnFull,
    fun hinHand => ?_⟩
  have hstarted : (started capacity : FrontEnd EventEnvelope).kinds
      = (started capacity : FrontEnd RedbDispatcherMessage).kinds := rfl
  rw [htogether.mirrors.agree_iff hinHand, htogether.kinds, and_iff_right hstarted, Nat.zero_add]
  refine and_congr_left fun _ => ?_
  cases dropOnFull with
  | false =>
    refine iff_of_true (Transition.along_of_forall (fun a _ s => ?_) _) (.inl rfl)
    rintro ⟨hdrop, -⟩
    cases hdrop
  | true => simp

/-- An order without a schedule. -/
def order (eventId : Uuid) : EventEnvelope :=
  .fromSerialized 1 "OrderPlaced" { eventId := eventId, timestamp := 0 } .normal []

/-- The bytes of the orders 1 and 3. -/
def placedJson : SerdeJson :=
  .ofList ([1, 3].map fun id => ⟨"OrderPlaced", { eventId := id, timestamp := 0 }, .normal, []⟩)

/-- A queue of one: `try_dispatch` is refused, a `dispatch` call meets room, and the handlers of
    the first order do not take it in time. -/
def triedOrders : List FrontEndAction :=
  [.dispatch (order 1) 0, .tryDispatch (order 2), .recv ⟨1, 0, 0, true⟩, .dispatch (order 3) 0,
    .dispatched, .recv ⟨1, 0, 0, false⟩, .dispatched]

/-- The same with a worker that takes both orders in one batch. -/
def triedOrdersBatch : List FrontEndAction :=
  [.dispatch (order 1) 0, .tryDispatch (order 2), .recv ⟨1, 0, 0, true⟩, .dispatch (order 3) 0,
    .recv ⟨1, 0, 0, false⟩, .persist (fun _ => false) noFaults, .dispatched, .dispatched]

theorem interfaces_agree_triedOrders :
    ∃ s r, channelRun true 1 triedOrders = some s ∧
      redbRun placedJson true false 1 triedOrdersBatch = some r ∧ Agree s r ∧
      s.dispatchErrors = 2 := by
  obtain ⟨s, hs, hseen⟩ := Option.map_eq_some_iff.mp
    (by decide +kernel : (channelRun true 1 triedOrders).map
      (fun s => (s.dispatchErrors, s.inHand.messages.isEmpty)) = some (2, true))
  obtain ⟨r, hr, hseen'⟩ := Option.map_eq_some_iff.mp
    (by decide +kernel : (redbRun placedJson true false 1 triedOrdersBatch).map
      (fun r => r.inHand.messages.isEmpty) = some true)
  obtain ⟨herrors, hempty⟩ := Prod.mk.inj hseen
  have hinHand : r.inHand.messages = s.inHand.messages.map takenMessage := by
    rw [List.isEmpty_iff.mp hempty, List.isEmpty_iff.mp hseen', List.map_nil]
  have hplain : ∀ a ∈ triedOrders, a.Plain := by decide +kernel
  have hsame : triedOrders.filter (·.shared) = triedOrdersBatch.filter (·.shared) := rfl
  obtain ⟨-, hiff⟩ := interfaces_agree_iff placedJson true 1 hplain hsame hs hr
  exact ⟨s, r, hs, hr, (hiff hinHand).mpr ⟨.inr (by decide +kernel), by decide +kernel⟩, herrors⟩

/-- Two orders for a queue of one. -/
def twoOrders : List FrontEndAction := [.dispatch (order 1) 0, .dispatch (order 2) 0]

/-- The second one is dropped: `Ok` and an error counted by one dispatcher, an error and
    nothing counted by the other.  And an order that cannot be serialized is an error for
    one of the workers only. -/
theorem not_interfaces_agree_twoOrders :
    (((channelRun true 1 twoOrders).map fun s => (s.returned, s.dispatchErrors))
        = some ([(0, .ok), (1, .ok)], 1) ∧
      ((redbRun placedJson true false 1 twoOrders).map fun r => (r.returned, r.dispatchErrors))
        = some ([(0, .ok), (1, .error (.internal "Channel full"))], 0) ∧
      ¬ ∀ s r, channelRun true 1 twoOrders = some s →
        redbRun placedJson true false 1 twoOrders = some r → Agree s r) ∧
    (channelRun false 1 [.dispatch (order 2) 0, .recv ⟨1, 0, 0, false⟩, .dispatched]).map
        (·.dispatchErrors) = some 0 ∧
      (redbRun placedJson false false 1 [.dispatch (order 2) 0, .recv ⟨1, 0, 0, false⟩,
        .persist (fun _ => false) noFaults, .dispatched]).map (·.dispatchErrors) = some 1 := by
  have hchannel : ((channelRun true 1 twoOrders).map fun s => (s.returned, s.dispatchErrors))
      = some ([(0, .ok), (1, .ok)], 1) := by decide +kernel
  have hredb : ((redbRun placedJson true false 1 twoOrders).map fun r =>
      (r.returned, r.dispatchErrors))
      = some ([(0, .ok), (1, .error (.internal "Channel full"))], 0) := by decide +kernel
  refine ⟨⟨hchannel, hredb, fun h => ?_⟩, by decide +kernel, by decide +kernel⟩
  obtain ⟨s, hs, hcounted⟩ := Option.map_eq_some_iff.mp hchannel
  obtain ⟨r, hr, hcounted'⟩ := Option.map_eq_some_iff.mp hredb
  have herrors := (h s r hs hr).dispatchErrors
  rw [(Prod.mk.inj hcounted).2, (Prod.mk.inj hcounted').2] at herrors
  cases herrors

end FrontEnd
end TokioEvents
