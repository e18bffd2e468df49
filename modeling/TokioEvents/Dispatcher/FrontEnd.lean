/-
  TokioEvents.Dispatcher.FrontEnd

  The front ends of the two dispatchers: `dispatch` and `try_dispatch` of
  `ChannelDispatcher` (`src/dispatcher/channel.rs`) and of `RedbDispatcher`
  (`src/persistence/redb.rs`), with everything that takes part in their queue: the
  worker at the other end, the calls that wait for room, and the tasks that hold a
  clone of the sender.

  The two differ in the messages they queue, in the two functions and in their workers; the
  rest is shared.
  `accepted` and `returned` are not state of the program: they record what has entered the
  queue and what the calls have returned, in order.
-/

import TokioEvents.Lib.Permits
import TokioEvents.Lib.Transition
import TokioEvents.Persistence.ProcessEvents

namespace TokioEvents

/-- Who sends to the queue. -/
inductive QueueSender where
  /-- A `dispatch` call. -/
  | call (n : Nat)
  /-- A task with a clone of the sender. -/
  | task (n : Nat)
  deriving DecidableEq, Repr

/-- What a call returns: `dispatch` an `Error`, `try_dispatch` a `TryPublishError`. -/
inductive DispatchResult where
  | ok
  | error (e : Error)
  | tryError (e : TryPublishError)
  deriving DecidableEq, Repr

/-- What the worker reads from outside while it handles a message. -/
structure Surroundings where
  /-- `sub_count` -/
  subCount : Nat
  /-- `Utc::now()` when the row is prepared -/
  persistNow : DateTime
  /-- `Utc::now()` when the dispatch loop reaches the message -/
  dispatchNow : DateTime
  /-- `dispatch_result` is an error, as it is when the timeout strikes. -/
  fails : Bool
  deriving DecidableEq, Repr

/-- A message that the worker has taken. -/
structure Taken (μ : Type) extends Surroundings where
  message : μ

/-- What the worker has in hand. -/
inductive InHand (μ : Type) where
  /-- `batch`, while it is drained from the channel. -/
  | gathered (batch : List (Taken μ))
  /-- What is left to dispatch. -/
  | dispatching (rest : List (Taken μ))

/-- A dispatcher that has been started, seen from its callers. -/
structure FrontEnd (μ : Type) where
  isRunning : Bool
  /-- `sender` is `Some`. -/
  sender : Bool
  queue : Permits.Channel QueueSender μ
  /-- Scheduled events asleep in their tasks. -/
  deferred : List μ
  /-- The calls that wait for the confirmation of the disk. -/
  awaiting : List Nat
  inHand : InHand μ
  maxQueueSize : Nat
  /-- A `u64`. -/
  dispatchErrors : Nat
  /-- The calls and the sends of tasks so far. -/
  calls : Nat
  accepted : List μ
  returned : List (Nat × DispatchResult)

/-- The steps. -/
inductive FrontEndAction where
  /-- `dispatch` is called; `now` is the clock. -/
  | dispatch (envelope : EventEnvelope) (now : DateTime)
  | tryDispatch (envelope : EventEnvelope)
  /-- A `send` that has waited in line ends. -/
  | resume (sender : QueueSender)
  /-- The future of a waiting `send` is dropped. -/
  | cancel (sender : QueueSender)
  /-- `rx.await` is over. -/
  | confirmed (call : Nat)
  /-- A scheduled event is due. -/
  | wake (index : Nat)
  /-- A task with a clone of the sender calls `send`. -/
  | feed (envelope : EventEnvelope)
  /-- The worker takes the next message. -/
  | recv (around : Surroundings)
  /-- The worker of a `RedbDispatcher` has its batch, and writes it; `recorded` tells which
      keys the table has. -/
  | persist (recorded : String → Bool) (faults : RedbCall → Option Fault)
  /-- The worker is done with the next message. -/
  | dispatched
  /-- The worker returns or panics. -/
  | workerEnds
  /-- `stop`, up to its wait. -/
  | stop
  /-- `shutdown_gracefully`, up to its wait. -/
  | closeSender

namespace FrontEnd

variable {μ : Type}

/-- A dispatcher that has just been started. -/
def started (capacity : Nat) : FrontEnd μ where
  isRunning := true
  sender := true
  queue := .new capacity
  deferred := []
  awaiting := []
  inHand := .dispatching []
  maxQueueSize := 0
  dispatchErrors := 0
  calls := 0
  accepted := []
  returned := []

/-- `sender.max_capacity().saturating_sub(sender.capacity())`. -/
def currentSize (s : FrontEnd μ) : Nat := s.queue.capacity - s.queue.available

/-- Update max queue size. -/
def updateMaxQueueSize (s : FrontEnd μ) : FrontEnd μ :=
  if s.maxQueueSize < s.currentSize then { s with maxQueueSize := s.currentSize } else s

/-- `dispatch_errors.fetch_add(n)`. -/
def countErrors (s : FrontEnd μ) (n : Nat) : FrontEnd μ :=
  { s with dispatchErrors := (s.dispatchErrors + n) % 2 ^ 64 }

/-- `dispatch_errors.fetch_add(1)`. -/
def countError (s : FrontEnd μ) : FrontEnd μ := s.countErrors 1

/-- The message is in the queue. -/
def enqueue (s : FrontEnd μ) (queue : Permits.Channel QueueSender μ) (message : μ) : FrontEnd μ :=
  { s with queue := queue, accepted := s.accepted ++ [message] }

/-- A call has a number. -/
def begin (s : FrontEnd μ) : FrontEnd μ := { s with calls := s.calls + 1 }

/-- A call returns. -/
def finish (s : FrontEnd μ) (n : Nat) (result : DispatchResult) : FrontEnd μ :=
  { s with returned := s.returned ++ [(n, result)] }

/-! ## `try_dispatch` -/

/-- What both functions do with the message when they have got the sender. -/
def trySend (s : FrontEnd μ) (message : μ) : Except TryPublishError Unit × FrontEnd μ :=
  let s := s.updateMaxQueueSize
  match s.queue.trySend message with
  | .ok queue => (.ok (), s.enqueue queue message)
  | .error .full => (.error .backpressure, s.countError)
  | .error .closed => (.error .shuttingDown, s)

/-- `ChannelDispatcher::try_dispatch`. -/
def channelTryDispatch (s : FrontEnd EventEnvelope) (envelope : EventEnvelope) :
    Except TryPublishError Unit × FrontEnd EventEnvelope :=
  if !s.isRunning then (.error .notRunning, s)
  -- For scheduled events, we need to use the regular path
  else if envelope.metadata.deliverAt.isSome then (.error .backpressure, s)
  else if !s.sender then (.error .shuttingDown, s)
  else s.trySend envelope

/-- `RedbDispatcher::try_dispatch`: it does not wait for persistence. -/
def redbTryDispatch (s : FrontEnd RedbDispatcherMessage) (envelope : EventEnvelope) :
    Except TryPublishError Unit × FrontEnd RedbDispatcherMessage :=
  if !s.isRunning then (.error .notRunning, s)
  else if !s.sender then (.error .notRunning, s)
  else s.trySend ⟨envelope, none⟩

/-- The call and its result. -/
def tryCall (tryDispatch : FrontEnd μ → EventEnvelope → Except TryPublishError Unit × FrontEnd μ)
    (s : FrontEnd μ) (envelope : EventEnvelope) : FrontEnd μ :=
  let r := tryDispatch s.begin envelope
  match r.1 with
  | .ok _ => r.2.finish s.calls .ok
  | .error e => r.2.finish s.calls (.tryError e)

/-! ## `dispatch` -/

/-- `ChannelDispatcher::dispatch`, up to its result or to the wait for room. -/
def channelDispatch (dropOnFull : Bool) (s : FrontEnd EventEnvelope) (envelope : EventEnvelope)
    (now : DateTime) : FrontEnd EventEnvelope :=
  let n := s.calls
  let s := s.begin
  if !s.isRunning then s.finish n (.error (.internal "Dispatcher not running"))
  else if envelope.isScheduled now then
    -- the spawned task sends only if there was a sender to clone
    let deferred := if s.sender then s.deferred ++ [envelope] else s.deferred
    { s with deferred := deferred }.finish n .ok
  else if !s.sender then s.finish n (.error .shuttingDown)
  else
    let s := s.updateMaxQueueSize
    match s.queue.trySend envelope with
    | .ok queue => (s.enqueue queue envelope).finish n .ok
    | .error .full =>
      -- Event queue full, dropping event
      if dropOnFull then s.countError.finish n .ok
      else { s with queue := s.queue.await (.call n) envelope }
    | .error .closed => s.finish n (.error (.internal "Event channel closed"))

/-- The message of a `RedbDispatcher::dispatch` is in the queue: wait for the disk. -/
def redbSent (waitForPersistence : Bool) (s : FrontEnd RedbDispatcherMessage) (n : Nat) :
    FrontEnd RedbDispatcherMessage :=
  if waitForPersistence then { s with awaiting := s.awaiting ++ [n] } else s.finish n .ok

/-- `RedbDispatcher::dispatch`, up to its result or to its wait. -/
def redbDispatch (dropOnFull waitForPersistence : Bool) (s : FrontEnd RedbDispatcherMessage)
    (envelope : EventEnvelope) : FrontEnd RedbDispatcherMessage :=
  let n := s.calls
  let s := s.begin
  if !s.isRunning then s.finish n (.error (.internal "Dispatcher is not running"))
  else if !s.sender then s.finish n (.error (.internal "Dispatcher not initialized"))
  else
    let s := s.updateMaxQueueSize
    let message : RedbDispatcherMessage := ⟨envelope, if waitForPersistence then some n else none⟩
    match s.queue.trySend message with
    | .ok queue => redbSent waitForPersistence (s.enqueue queue message) n
    | .error .full =>
      if dropOnFull then s.finish n (.error (.internal "Channel full"))
      else { s with queue := s.queue.await (.call n) message }
    | .error .closed =>
      s.finish n (.error (.internal (if dropOnFull then "Channel full" else "Channel closed")))

/-! ## What else happens at the queue -/

/-- A `send` that has waited in line ends: it has a permit, or the channel is closed. -/
def resume (sent : FrontEnd μ → Nat → FrontEnd μ) (closed : Error) (s : FrontEnd μ)
    (sender : QueueSender) : Option (FrontEnd μ) :=
  if s.queue.receiver then
    (s.queue.complete sender).map fun r =>
      let s := s.enqueue r.2 r.1
      match sender with
      | .call n => sent s n
      | .task _ => s
  else if s.queue.holds sender then
    let s := { s with queue := s.queue.abandon sender }
    match sender with
    | .call n => some (s.finish n (.error closed))
    | .task _ => some s
  else none

/-- The future of a waiting `send` is dropped. -/
def cancel (s : FrontEnd μ) (sender : QueueSender) : Option (FrontEnd μ) :=
  if s.queue.holds sender then some { s with queue := s.queue.abandon sender } else none

/-- A task sends a message. -/
def feed (s : FrontEnd μ) (message : μ) : FrontEnd μ :=
  let n := s.calls
  let s := s.begin
  match s.queue.trySend message with
  | .ok queue => s.enqueue queue message
  | .error .full => { s with queue := s.queue.await (.task n) message }
  | .error .closed => s

/-- The task of a scheduled event wakes up. -/
def wake (s : FrontEnd μ) (index : Nat) : Option (FrontEnd μ) :=
  (s.deferred[index]?).map fun message =>
    { s with deferred := s.deferred.eraseIdx index }.feed message

/-- `let _ = rx.await; Ok(())`: the worker has got the message, or dropped it. -/
def confirmed (s : FrontEnd RedbDispatcherMessage) (n : Nat) :
    Option (FrontEnd RedbDispatcherMessage) :=
  if n ∈ s.awaiting ∧ ∀ message ∈ s.queue.buffer, message.ackTx ≠ some n then
    some ({ s with awaiting := s.awaiting.filter (· != n) }.finish n .ok)
  else none

/-! ## The workers -/

/-- A message is taken, if the worker is ready for one. -/
def recv (take : InHand μ → Taken μ → Option (InHand μ)) (s : FrontEnd μ) (around : Surroundings) :
    Option (FrontEnd μ) :=
  s.queue.recv.bind fun r =>
    (take s.inHand ⟨around, r.1⟩).map fun inHand => { s with queue := r.2, inHand := inHand }

/-- `ChannelDispatcher::process_events`: one message after the other. -/
def channelTake : InHand μ → Taken μ → Option (InHand μ)
  | .dispatching [], taken => some (.dispatching [taken])
  | _, _ => none

/-- `RedbDispatcher::process_events`: up to 1000 messages. -/
def redbTake : InHand μ → Taken μ → Option (InHand μ)
  | .dispatching [], taken => some (.gathered [taken])
  | .gathered batch, taken =>
    if batch.length < 1000 then some (.gathered (batch ++ [taken])) else none
  | .dispatching (_ :: _), _ => none

/-- The row of a message for `db_inserts`. -/
def row (json : SerdeJson) (taken : Taken RedbDispatcherMessage) : Option DbInsert :=
  prepare json taken.message.envelope taken.subCount taken.persistNow

/-- Failed to serialize event for persistence. -/
def unserialized (json : SerdeJson) (taken : Taken RedbDispatcherMessage) : Bool :=
  decide (0 < taken.subCount) && !(taken.message.envelope.persistedBytes json).isOk

/-- How the write step of a batch ends; without rows there is no transaction. -/
def batchOutcome (json : SerdeJson) (faults : RedbCall → Option Fault)
    (batch : List (Taken RedbDispatcherMessage)) : WriteOutcome :=
  let dbInserts := batch.filterMap (row json)
  if dbInserts.isEmpty then .committed else writeOutcome faults dbInserts

/-- The batch is checked for duplicates and written. -/
def persist (json : SerdeJson) (s : FrontEnd RedbDispatcherMessage) (recorded : String → Bool)
    (faults : RedbCall → Option Fault) : Option (FrontEnd RedbDispatcherMessage) :=
  match s.inHand with
  | .gathered batch =>
    if s.queue.receiver then
      let batch := (DupCheck.run (·.message.idempotencyKey) recorded batch).valid
      let s := s.countErrors (batch.countP (unserialized json))
      match batchOutcome json faults batch with
      | .panicked =>
        -- Failed to persist batch to redb
        some { s.countErrors batch.length with inHand := .dispatching [] }
      | _ => some { s with inHand := .dispatching batch }
    else none
  | .dispatching _ => none

/-- The turn of the dispatch loop for the next message is over; `fails` tells whether it counts
    an error. -/
def dispatched (fails : Taken μ → Bool) (s : FrontEnd μ) : Option (FrontEnd μ) :=
  match s.inHand with
  | .dispatching (taken :: rest) =>
    if s.queue.receiver then
      some { (if fails taken then s.countError else s) with inHand := .dispatching rest }
    else none
  | _ => none

/-- A scheduled event is not dispatched. -/
def redbFails (taken : Taken RedbDispatcherMessage) : Bool :=
  !taken.message.envelope.isScheduled taken.dispatchNow && taken.fails

/-- The steps that are the same for both dispatchers. -/
def stepQueue (sent : FrontEnd μ → Nat → FrontEnd μ) (closed : Error)
    (message : EventEnvelope → μ) (s : FrontEnd μ) : FrontEndAction → Option (FrontEnd μ)
  | .resume sender => resume sent closed s sender
  | .cancel sender => s.cancel sender
  | .feed envelope => some (s.feed (message envelope))
  | .workerEnds => some { s with queue := s.queue.dropReceiver }
  | .stop => some { s with isRunning := false, sender := false }
  | .closeSender => some { s with sender := false }
  | _ => none

/-- A step of the front end of a `ChannelDispatcher`. -/
def channelStep (dropOnFull : Bool) (s : FrontEnd EventEnvelope) :
    FrontEndAction → Option (FrontEnd EventEnvelope)
  | .dispatch envelope now => some (channelDispatch dropOnFull s envelope now)
  | .tryDispatch envelope => some (tryCall channelTryDispatch s envelope)
  | .wake index => s.wake index
  | .recv around => s.recv channelTake around
  | .dispatched => s.dispatched (·.fails)
  | a => s.stepQueue (fun s n => s.finish n .ok) (.internal "Event channel closed") id a

/-- A step of the front end of a `RedbDispatcher`. -/
def redbStep (json : SerdeJson) (dropOnFull waitForPersistence : Bool)
    (s : FrontEnd RedbDispatcherMessage) :
    FrontEndAction → Option (FrontEnd RedbDispatcherMessage)
  | .dispatch envelope _ => some (redbDispatch dropOnFull waitForPersistence s envelope)
  | .tryDispatch envelope => some (tryCall redbTryDispatch s envelope)
  | .confirmed n => s.confirmed n
  | .recv around => s.recv redbTake around
  | .persist recorded faults => s.persist json recorded faults
  | .dispatched => s.dispatched redbFails
  | a => s.stepQueue (redbSent waitForPersistence) (.internal "Channel closed")
      (fun envelope => ⟨envelope, none⟩) a

/-- A run of a dispatcher that has just been started. -/
def channelRun (dropOnFull : Bool) (capacity : Nat) (as : List FrontEndAction) :
    Option (FrontEnd EventEnvelope) :=
  Transition.exec (channelStep dropOnFull) (started capacity) as

def redbRun (json : SerdeJson) (dropOnFull waitForPersistence : Bool) (capacity : Nat)
    (as : List FrontEndAction) : Option (FrontEnd RedbDispatcherMessage) :=
  Transition.exec (redbStep json dropOnFull waitForPersistence) (started capacity) as

/-! ## What the workers do -/

theorem recv_cases {take : InHand μ → Taken μ → Option (InHand μ)} {s s' : FrontEnd μ}
    {around : Surroundings} (h : s.recv take around = some s') :
    ∃ message queue inHand, s.queue.recv = some (message, queue) ∧
      take s.inHand ⟨around, message⟩ = some inHand ∧
      s' = { s with queue := queue, inHand := inHand } := by
  obtain ⟨⟨message, queue⟩, hrecv, hmap⟩ := Option.bind_eq_some_iff.mp h
  obtain ⟨inHand, htake, rfl⟩ := Option.map_eq_some_iff.mp hmap
  exact ⟨message, queue, inHand, hrecv, htake, rfl⟩

theorem dispatched_cases {fails : Taken μ → Bool} {s s' : FrontEnd μ}
    (h : s.dispatched fails = some s') :
    ∃ taken rest, s.inHand = .dispatching (taken :: rest) ∧
      ((fails taken = true ∧ s' = { s.countError with inHand := .dispatching rest }) ∨
        (fails taken = false ∧ s' = { s with inHand := .dispatching rest })) := by
  unfold dispatched at h
  split at h
  · rename_i taken rest hphase
    refine ⟨taken, rest, hphase, ?_⟩
    split at h
    · cases h
      cases fails taken with
      | true => exact .inl ⟨rfl, rfl⟩
      | false => exact .inr ⟨rfl, rfl⟩
    · cases h
  · cases h

theorem persist_cases {json : SerdeJson} {s s' : FrontEnd RedbDispatcherMessage}
    {recorded : String → Bool} {faults : RedbCall → Option Fault}
    (h : s.persist json recorded faults = some s') :
    ∃ batch valid, s.inHand = .gathered batch ∧
      valid = (DupCheck.run (fun taken : Taken RedbDispatcherMessage =>
        taken.message.idempotencyKey) recorded batch).valid ∧
      ((batchOutcome json faults valid = .panicked ∧
          s' = { (s.countErrors (valid.countP (unserialized json))).countErrors valid.length with
            inHand := .dispatching [] }) ∨
        (batchOutcome json faults valid ≠ .panicked ∧
          s' = { s.countErrors (valid.countP (unserialized json)) with
            inHand := .dispatching valid })) := by
  unfold persist at h
  split at h
  · rename_i batch hphase
    refine ⟨batch, _, hphase, rfl, ?_⟩
    split at h
    · dsimp only at h
      split at h
      · rename_i hpanicked
        cases h
        exact .inl ⟨hpanicked, rfl⟩
      · rename_i hother
        cases h
        exact .inr ⟨hother, rfl⟩
    · cases h
  · cases h

end FrontEnd
end TokioEvents
