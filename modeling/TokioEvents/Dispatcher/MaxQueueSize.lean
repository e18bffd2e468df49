/-
  TokioEvents.Dispatcher.MaxQueueSize

  `max_queue_size` of the two dispatchers (`src/dispatcher/channel.rs`,
  `src/persistence/redb.rs`), with the update of `dispatch` and `try_dispatch` in its four
  steps: the size of the queue, the load of the maximum, the comparison and the store, and
  then the message.  Callers are on different threads, so the steps of different calls
  come in any order.

  The maximum is stored without a look at what others have stored since the load.  So it
  goes down when a call stores after another one that has found a longer queue.
-/

import TokioEvents.Dispatcher.FrontEnd
import TokioEvents.Lib.Calls

namespace TokioEvents

/-- The two functions. -/
inductive MeteredVia where
  | dispatch
  | tryDispatch
  deriving DecidableEq, Repr

/-- What the two functions of a dispatcher do before and after the update. -/
structure DispatchParts (μ : Type) where
  /-- The checks: the state after an early return of the call with this number. -/
  enter : FrontEnd μ → Nat → MeteredVia → EventEnvelope → DateTime → Option (FrontEnd μ)
  /-- The message is sent. -/
  send : FrontEnd μ → Nat → MeteredVia → EventEnvelope → FrontEnd μ
  /-- The other steps of the front end. -/
  step : FrontEnd μ → FrontEndAction → Option (FrontEnd μ)

/-- How far a call is. -/
inductive UpdatePhase where
  /-- The checks are passed. -/
  | admitted
  /-- `current_size` is known. -/
  | observed (currentSize : Nat)
  /-- And `max_size`. -/
  | loaded (currentSize maxSize : Nat)
  /-- The comparison and the store are over. -/
  | updated (currentSize : Nat)
  /-- The message is sent, or the call has returned early. -/
  | sent (currentSize : Option Nat)
  deriving DecidableEq, Repr

/-- A call. -/
structure MeteredCall where
  number : Nat
  via : MeteredVia
  envelope : EventEnvelope
  phase : UpdatePhase

/-- A dispatcher and the calls on it. -/
structure Metered (μ : Type) where
  front : FrontEnd μ
  calls : List MeteredCall

/-- The steps.  Calls are named by their places. -/
inductive MeteredAction where
  /-- A function is called; `now` is the clock. -/
  | call (via : MeteredVia) (envelope : EventEnvelope) (now : DateTime)
  | observe (call : Nat)
  | load (call : Nat)
  | store (call : Nat)
  | send (call : Nat)
  /-- A step of the front end that is no call. -/
  | other (a : FrontEndAction)

namespace FrontEnd

variable {μ : Type}

/-- A `try_send` of `try_dispatch`. -/
def tryDispatchSend (s : FrontEnd μ) (n : Nat) (message : μ) : FrontEnd μ :=
  match s.queue.trySend message with
  | .ok queue => (s.enqueue queue message).finish n .ok
  | .error .full => s.countError.finish n (.tryError .backpressure)
  | .error .closed => s.finish n (.tryError .shuttingDown)

/-- The checks of the functions of a `ChannelDispatcher`. -/
def channelEnter (s : FrontEnd EventEnvelope) (n : Nat) (via : MeteredVia)
    (envelope : EventEnvelope) (now : DateTime) : Option (FrontEnd EventEnvelope) :=
  match via with
  | .dispatch =>
    if !s.isRunning then some (s.finish n (.error (.internal "Dispatcher not running")))
    else if envelope.isScheduled now then
      let deferred := if s.sender then s.deferred ++ [envelope] else s.deferred
      some ({ s with deferred := deferred }.finish n .ok)
    else if !s.sender then some (s.finish n (.error .shuttingDown))
    else none
  | .tryDispatch =>
    if !s.isRunning then some (s.finish n (.tryError .notRunning))
    else if envelope.metadata.deliverAt.isSome then some (s.finish n (.tryError .backpressure))
    else if !s.sender then some (s.finish n (.tryError .shuttingDown))
    else none

/-- What they do after the update. -/
def channelSend (dropOnFull : Bool) (s : FrontEnd EventEnvelope) (n : Nat) (via : MeteredVia)
    (envelope : EventEnvelope) : FrontEnd EventEnvelope :=
  match via with
  | .dispatch =>
    match s.queue.trySend envelope with
    | .ok queue => (s.enqueue queue envelope).finish n .ok
    | .error .full =>
      if dropOnFull then s.countError.finish n .ok
      else { s with queue := s.queue.await (.call n) envelope }
    | .error .closed => s.finish n (.error (.internal "Event channel closed"))
  | .tryDispatch => s.tryDispatchSend n envelope

/-- The checks of the functions of a `RedbDispatcher`. -/
def redbEnter (s : FrontEnd RedbDispatcherMessage) (n : Nat) (via : MeteredVia)
    (_ : EventEnvelope) (_ : DateTime) : Option (FrontEnd RedbDispatcherMessage) :=
  match via with
  | .dispatch =>
    if !s.isRunning then some (s.finish n (.error (.internal "Dispatcher is not running")))
    else if !s.sender then some (s.finish n (.error (.internal "Dispatcher not initialized")))
    else none
  | .tryDispatch =>
    if !s.isRunning then some (s.finish n (.tryError .notRunning))
    else if !s.sender then some (s.finish n (.tryError .notRunning))
    else none

/-- What they do after the update. -/
def redbSend (dropOnFull waitForPersistence : Bool) (s : FrontEnd RedbDispatcherMessage) (n : Nat)
    (via : MeteredVia) (envelope : EventEnvelope) : FrontEnd RedbDispatcherMessage :=
  match via with
  | .dispatch =>
    let message : RedbDispatcherMessage := ⟨envelope, if waitForPersistence then some n else none⟩
    match s.queue.trySend message with
    | .ok queue => redbSent waitForPersistence (s.enqueue queue message) n
    | .error .full =>
      if dropOnFull then s.finish n (.error (.internal "Channel full"))
      else { s with queue := s.queue.await (.call n) message }
    | .error .closed =>
      s.finish n (.error (.internal (if dropOnFull then "Channel full" else "Channel closed")))
  | .tryDispatch => s.tryDispatchSend n ⟨envelope, none⟩

/-- The functions of a `ChannelDispatcher`. -/
def channelParts (dropOnFull : Bool) : DispatchParts EventEnvelope where
  enter := channelEnter
  send := channelSend dropOnFull
  step := channelStep dropOnFull

/-- The functions of a `RedbDispatcher`. -/
def redbParts (json : SerdeJson) (dropOnFull waitForPersistence : Bool) :
    DispatchParts RedbDispatcherMessage where
  enter := redbEnter
  send := redbSend dropOnFull waitForPersistence
  step := redbStep json dropOnFull waitForPersistence

end FrontEnd

/-- The dispatchers. -/
inductive DispatcherKind where
  | channel (dropOnFull : Bool)
  | redb (json : SerdeJson) (dropOnFull waitForPersistence : Bool)

namespace DispatcherKind

/-- What is in the queue. -/
def Message : DispatcherKind → Type
  | .channel _ => EventEnvelope
  | .redb _ _ _ => RedbDispatcherMessage

/-- What the functions do. -/
def parts : (kind : DispatcherKind) → DispatchParts kind.Message
  | .channel dropOnFull => FrontEnd.channelParts dropOnFull
  | .redb json dropOnFull waitForPersistence =>
    FrontEnd.redbParts json dropOnFull waitForPersistence

end DispatcherKind

/-! ## One call at a time

With nobody between its steps, a call is the one of the front end. -/

/-- The steps of a call in a row. -/
def DispatchParts.call {μ : Type} (parts : DispatchParts μ) (s : FrontEnd μ) (via : MeteredVia)
    (envelope : EventEnvelope) (now : DateTime) : FrontEnd μ :=
  let n := s.calls
  match parts.enter s.begin n via envelope now with
  | some s => s
  | none => parts.send s.begin.updateMaxQueueSize n via envelope

namespace FrontEnd

theorem call_channelDispatch (dropOnFull : Bool) (s : FrontEnd EventEnvelope)
    (envelope : EventEnvelope) (now : DateTime) :
    (channelParts dropOnFull).call s .dispatch envelope now
      = channelDispatch dropOnFull s envelope now := by
  simp only [DispatchParts.call, channelParts, channelEnter, channelSend, channelDispatch]
  split_ifs <;> rfl

theorem call_channelTryDispatch (dropOnFull : Bool) (s : FrontEnd EventEnvelope)
    (envelope : EventEnvelope) (now : DateTime) :
    (channelParts dropOnFull).call s .tryDispatch envelope now
      = tryCall channelTryDispatch s envelope := by
  simp only [DispatchParts.call, channelParts, channelEnter, channelSend, tryCall,
    channelTryDispatch, trySend, tryDispatchSend]
  split_ifs
  · rfl
  · rfl
  · rfl
  · cases s.begin.updateMaxQueueSize.queue.trySend envelope with
    | ok queue => rfl
    | error e => cases e <;> rfl

theorem call_redbDispatch (json : SerdeJson) (dropOnFull waitForPersistence : Bool)
    (s : FrontEnd RedbDispatcherMessage) (envelope : EventEnvelope) (now : DateTime) :
    (redbParts json dropOnFull waitForPersistence).call s .dispatch envelope now
      = redbDispatch dropOnFull waitForPersistence s envelope := by
  simp only [DispatchParts.call, redbParts, redbEnter, redbSend, redbDispatch]
  split_ifs <;> rfl

theorem call_redbTryDispatch (json : SerdeJson) (dropOnFull waitForPersistence : Bool)
    (s : FrontEnd RedbDispatcherMessage) (envelope : EventEnvelope) (now : DateTime) :
    (redbParts json dropOnFull waitForPersistence).call s .tryDispatch envelope now
      = tryCall redbTryDispatch s envelope := by
  simp only [DispatchParts.call, redbParts, redbEnter, redbSend, tryCall, redbTryDispatch, trySend,
    tryDispatchSend]
  split_ifs
  · rfl
  · rfl
  · cases s.begin.updateMaxQueueSize.queue.trySend ⟨envelope, none⟩ with
    | ok queue => rfl
    | error e => cases e <;> rfl

end FrontEnd

/-! ## Calls on different threads -/

/-- The step is a call of one of the two functions. -/
def FrontEndAction.isCall : FrontEndAction → Bool
  | .dispatch _ _ | .tryDispatch _ => true
  | _ => false

/-- The step is of `stop` or `shutdown_gracefully`, which borrow the dispatcher mutably. -/
def FrontEndAction.isExclusive : FrontEndAction → Bool
  | .stop | .closeSender => true
  | _ => false

/-- The call has sent its message, or has returned. -/
def UpdatePhase.isSent : UpdatePhase → Bool
  | .sent _ => true
  | _ => false

namespace Metered

variable {μ : Type}

/-- A dispatcher that has just been started. -/
def started (capacity : Nat) : Metered μ := ⟨.started capacity, []⟩

/-- No call is on its way to its message. -/
def Quiet (s : Metered μ) : Prop := ∀ call ∈ s.calls, call.phase.isSent = true

instance (s : Metered μ) : Decidable s.Quiet := inferInstanceAs (Decidable (∀ _ ∈ _, _))

/-- A call takes its next step. -/
def advance (s : Metered μ) (i : Nat)
    (next : MeteredCall → Option (FrontEnd μ × UpdatePhase)) : Option (Metered μ) :=
  s.calls[i]?.bind fun call =>
    (next call).map fun r => ⟨r.1, s.calls.set i { call with phase := r.2 }⟩

/-- `sender.max_capacity().saturating_sub(sender.capacity())`. -/
def observe (s : Metered μ) (i : Nat) : Option (Metered μ) :=
  s.advance i fun call =>
    match call.phase with
    | .admitted => some (s.front, .observed s.front.currentSize)
    | _ => none

/-- `self.max_queue_size.load(Ordering::Relaxed)`. -/
def load (s : Metered μ) (i : Nat) : Option (Metered μ) :=
  s.advance i fun call =>
    match call.phase with
    | .observed currentSize => some (s.front, .loaded currentSize s.front.maxQueueSize)
    | _ => none

/-- What is stored, if the comparison says so. -/
def stored (front : FrontEnd μ) (currentSize maxSize : Nat) : FrontEnd μ :=
  if maxSize < currentSize then { front with maxQueueSize := currentSize } else front

/-- `self.max_queue_size.store(current_size as u64, Ordering::Relaxed)`. -/
def store (s : Metered μ) (i : Nat) : Option (Metered μ) :=
  s.advance i fun call =>
    match call.phase with
    | .loaded currentSize maxSize =>
      some (stored s.front currentSize maxSize, .updated currentSize)
    | _ => none

section Parts

variable (parts : DispatchParts μ)

/-- A function is called, up to its checks. -/
def call (s : Metered μ) (via : MeteredVia) (envelope : EventEnvelope) (now : DateTime) :
    Metered μ :=
  let n := s.front.calls
  match parts.enter s.front.begin n via envelope now with
  | some front => ⟨front, s.calls ++ [⟨n, via, envelope, .sent none⟩]⟩
  | none => ⟨s.front.begin, s.calls ++ [⟨n, via, envelope, .admitted⟩]⟩

/-- The message is sent. -/
def send (s : Metered μ) (i : Nat) : Option (Metered μ) :=
  s.advance i fun call =>
    match call.phase with
    | .updated currentSize =>
      some (parts.send s.front call.number call.via call.envelope, .sent (some currentSize))
    | _ => none

/-- The rest of the dispatcher. -/
def other (s : Metered μ) (a : FrontEndAction) : Option (Metered μ) :=
  if a.isCall ∨ (a.isExclusive ∧ ¬ s.Quiet) then none
  else (parts.step s.front a).map fun front => { s with front := front }

/-- A step. -/
def step (s : Metered μ) : MeteredAction → Option (Metered μ)
  | .call via envelope now => some (s.call parts via envelope now)
  | .observe i => s.observe i
  | .load i => s.load i
  | .store i => s.store i
  | .send i => s.send parts i
  | .other a => s.other parts a

end Parts

theorem advance_eq_some {s s' : Metered μ} {i : Nat}
    {next : MeteredCall → Option (FrontEnd μ × UpdatePhase)} :
    s.advance i next = some s' ↔ ∃ call r, s.calls[i]? = some call ∧ next call = some r ∧
      s' = ⟨r.1, s.calls.set i { call with phase := r.2 }⟩ := by
  unfold advance
  simp only [Option.bind_eq_some_iff, Option.map_eq_some_iff]
  constructor
  · rintro ⟨call, hcall, r, hr, rfl⟩
    exact ⟨call, r, hcall, hr, rfl⟩
  · rintro ⟨call, r, hcall, hr, rfl⟩
    exact ⟨call, hcall, r, hr, rfl⟩

/-- The last call takes a step. -/
theorem advance_last {front : FrontEnd μ} {calls : List MeteredCall} {call : MeteredCall}
    {next : MeteredCall → Option (FrontEnd μ × UpdatePhase)} {r : FrontEnd μ × UpdatePhase}
    (hnext : next call = some r) :
    (⟨front, calls ++ [call]⟩ : Metered μ).advance calls.length next
      = some ⟨r.1, calls ++ [{ call with phase := r.2 }]⟩ := by
  refine advance_eq_some.mpr ⟨call, r, ?_, hnext, ?_⟩
  · rw [List.getElem?_append_right (Nat.le_refl _), Nat.sub_self]
    rfl
  · rw [List.set_append_right _ _ (Nat.le_refl _), Nat.sub_self]
    rfl

/-- **A call on its own** takes its steps in a row, and is the call of the front end. -/
theorem exec_call_alone (parts : DispatchParts μ) (s : Metered μ) (via : MeteredVia)
    (envelope : EventEnvelope) (now : DateTime)
    (henter : parts.enter s.front.begin s.front.calls via envelope now = none) :
    ∃ s', Transition.exec (step parts) s
        [.call via envelope now, .observe s.calls.length, .load s.calls.length,
          .store s.calls.length, .send s.calls.length] = some s' ∧
      s'.front = parts.call s.front via envelope now := by
  have hcall : s.call parts via envelope now
      = ⟨s.front.begin, s.calls ++ [⟨s.front.calls, via, envelope, .admitted⟩]⟩ := by
    simp only [Metered.call, henter]
  have hparts : parts.call s.front via envelope now
      = parts.send s.front.begin.updateMaxQueueSize s.front.calls via envelope := by
    simp only [DispatchParts.call, henter]
  rw [Transition.exec_cons_of_step _ (congrArg some hcall),
    Transition.exec_cons_of_step _ (advance_last rfl),
    Transition.exec_cons_of_step _ (advance_last rfl),
    Transition.exec_cons_of_step _ (advance_last rfl),
    Transition.exec_cons_of_step _ (advance_last rfl), hparts]
  exact ⟨_, rfl, rfl⟩

end Metered

/-! ## The rest leaves the maximum alone -/

/-- The parts beside the update do not write the maximum. -/
structure DispatchParts.Frames {μ : Type} (parts : DispatchParts μ) : Prop where
  enter : ∀ s n via envelope now s', parts.enter s n via envelope now = some s' →
    s'.maxQueueSize = s.maxQueueSize
  send : ∀ s n via envelope, (parts.send s n via envelope).maxQueueSize = s.maxQueueSize
  step : ∀ s a s', a.isCall = false → parts.step s a = some s' → s'.maxQueueSize = s.maxQueueSize

namespace FrontEnd

section Frame

variable {μ : Type} {s s' : FrontEnd μ}

theorem maxQueueSize_tryDispatchSend (s : FrontEnd μ) (n : Nat) (message : μ) :
    (s.tryDispatchSend n message).maxQueueSize = s.maxQueueSize := by
  unfold tryDispatchSend
  split <;> rfl

theorem maxQueueSize_feed (s : FrontEnd μ) (message : μ) :
    (s.feed message).maxQueueSize = s.maxQueueSize := by
  unfold feed
  dsimp only
  split <;> rfl

theorem maxQueueSize_redbSent (waitForPersistence : Bool) (s : FrontEnd RedbDispatcherMessage)
    (n : Nat) : (redbSent waitForPersistence s n).maxQueueSize = s.maxQueueSize := by
  unfold redbSent
  split <;> rfl

theorem maxQueueSize_resume {sent : FrontEnd μ → Nat → FrontEnd μ} {closed : Error}
    {sender : QueueSender} (hsent : ∀ s n, (sent s n).maxQueueSize = s.maxQueueSize)
    (h : resume sent closed s sender = some s') : s'.maxQueueSize = s.maxQueueSize := by
  unfold resume at h
  split at h
  · obtain ⟨r, -, rfl⟩ := Option.map_eq_some_iff.mp h
    cases sender with
    | call n => exact hsent _ n
    | task n => rfl
  · split at h
    · cases sender <;> cases h <;> rfl
    · cases h

/-- The steps that both dispatchers have. -/
theorem maxQueueSize_stepQueue (sent : FrontEnd μ → Nat → FrontEnd μ) (closed : Error)
    (message : EventEnvelope → μ) {a : FrontEndAction}
    (hsent : ∀ s n, (sent s n).maxQueueSize = s.maxQueueSize)
    (h : s.stepQueue sent closed message a = some s') : s'.maxQueueSize = s.maxQueueSize := by
  cases a with
  | resume sender => exact maxQueueSize_resume hsent h
  | cancel sender =>
    change s.cancel sender = some s' at h
    unfold cancel at h
    split at h
    · cases h
      rfl
    · cases h
  | feed envelope =>
    cases h
    exact maxQueueSize_feed s _
  | workerEnds => cases h; rfl
  | stop => cases h; rfl
  | closeSender => cases h; rfl
  | _ => cases h

theorem maxQueueSize_recv {take : InHand μ → Taken μ → Option (InHand μ)} {around : Surroundings}
    (h : s.recv take around = some s') : s'.maxQueueSize = s.maxQueueSize := by
  obtain ⟨message, queue, inHand, -, -, rfl⟩ := recv_cases h
  rfl

theorem maxQueueSize_dispatched {fails : Taken μ → Bool} (h : s.dispatched fails = some s') :
    s'.maxQueueSize = s.maxQueueSize := by
  obtain ⟨taken, rest, -, ⟨-, rfl⟩ | ⟨-, rfl⟩⟩ := dispatched_cases h <;> rfl

end Frame

theorem frames_channelParts (dropOnFull : Bool) : (channelParts dropOnFull).Frames where
  enter s n via envelope now s' h := by
    unfold channelParts channelEnter at h
    cases via with
    | dispatch =>
      dsimp only at h
      split_ifs at h <;> cases h <;> rfl
    | tryDispatch =>
      dsimp only at h
      split_ifs at h <;> cases h <;> rfl
  send s n via envelope := by
    cases via with
    | dispatch =>
      show (channelSend dropOnFull s n .dispatch envelope).maxQueueSize = _
      unfold channelSend
      dsimp only
      split
      · rfl
      · split <;> rfl
      · rfl
    | tryDispatch => exact maxQueueSize_tryDispatchSend s n envelope
  step s a s' hcall h := by
    have hrest : s.stepQueue (fun s n => s.finish n .ok) (.internal "Event channel closed") id a
        = some s' → s'.maxQueueSize = s.maxQueueSize :=
      maxQueueSize_stepQueue _ _ _ fun _ _ => rfl
    cases a with
    | dispatch envelope now => cases hcall
    | tryDispatch envelope => cases hcall
    | wake index =>
      obtain ⟨message, -, rfl⟩ := Option.map_eq_some_iff.mp h
      exact maxQueueSize_feed _ _
    | recv around => exact maxQueueSize_recv h
    | dispatched => exact maxQueueSize_dispatched h
    | _ => exact hrest h

theorem frames_redbParts (json : SerdeJson) (dropOnFull waitForPersistence : Bool) :
    (redbParts json dropOnFull waitForPersistence).Frames where
  enter s n via envelope now s' h := by
    unfold redbParts redbEnter at h
    cases via with
    | dispatch =>
      dsimp only at h
      split_ifs at h <;> cases h <;> rfl
    | tryDispatch =>
      dsimp only at h
      split_ifs at h <;> cases h <;> rfl
  send s n via envelope := by
    cases via with
    | dispatch =>
      show (redbSend dropOnFull waitForPersistence s n .dispatch envelope).maxQueueSize = _
      unfold redbSend
      dsimp only
      split
      · exact maxQueueSize_redbSent _ _ _
      · split <;> rfl
      · rfl
    | tryDispatch => exact maxQueueSize_tryDispatchSend s n _
  step s a s' hcall h := by
    have hrest : s.stepQueue (redbSent waitForPersistence) (.internal "Channel closed")
        (fun envelope => ⟨envelope, none⟩) a = some s' → s'.maxQueueSize = s.maxQueueSize :=
      maxQueueSize_stepQueue _ _ _ (maxQueueSize_redbSent waitForPersistence)
    cases a with
    | dispatch envelope now => cases hcall
    | tryDispatch envelope => cases hcall
    | confirmed n =>
      unfold redbParts redbStep confirmed at h
      dsimp only at h
      split at h
      · cases h
        rfl
      · cases h
    | recv around => exact maxQueueSize_recv h
    | persist recorded faults =>
      obtain ⟨batch, valid, -, -, ⟨-, rfl⟩ | ⟨-, rfl⟩⟩ := persist_cases h <;> rfl
    | dispatched => exact maxQueueSize_dispatched h
    | _ => exact hrest h

end FrontEnd

theorem DispatcherKind.frames : (kind : DispatcherKind) → kind.parts.Frames
  | .channel dropOnFull => FrontEnd.frames_channelParts dropOnFull
  | .redb json dropOnFull waitForPersistence =>
    FrontEnd.frames_redbParts json dropOnFull waitForPersistence

/-! ## What is recorded -/

/-- What a call has found is no more than the maximum. -/
def UpdatePhase.Within (maximum : Nat) : UpdatePhase → Prop
  | .loaded _ maxSize => maxSize ≤ maximum
  | .updated currentSize => currentSize ≤ maximum
  | .sent (some currentSize) => currentSize ≤ maximum
  | _ => True

theorem UpdatePhase.Within.mono {m m' : Nat} (hle : m ≤ m') :
    ∀ {phase : UpdatePhase}, phase.Within m → phase.Within m'
  | .loaded _ _, h => Nat.le_trans h hle
  | .updated _, h => Nat.le_trans h hle
  | .sent (some _), h => Nat.le_trans h hle
  | .admitted, _ => trivial
  | .observed _, _ => trivial
  | .sent none, _ => trivial

namespace Metered

variable {μ : Type} {parts : DispatchParts μ} {s s' : Metered μ}

/-- The store of a call is in time: it does not overwrite a longer queue. -/
def Timely (s : Metered μ) : MeteredAction → Prop
  | .store i =>
    ∀ call ∈ s.calls[i]?, ∀ currentSize maxSize, call.phase = .loaded currentSize maxSize →
      maxSize < currentSize → s.front.maxQueueSize ≤ currentSize
  | _ => True

/-- The step does not take the maximum down. -/
def Keeps (parts : DispatchParts μ) (s : Metered μ) (a : MeteredAction) : Prop :=
  ∀ s', s.step parts a = some s' → s.front.maxQueueSize ≤ s'.front.maxQueueSize

/-- With no call in progress, the maximum is at least every size that a finished call has
    found. -/
def Covers (s : Metered μ) : Prop :=
  s.Quiet → ∀ call ∈ s.calls, ∀ currentSize, call.phase = .sent (some currentSize) →
    currentSize ≤ s.front.maxQueueSize

/-- All calls are within the maximum. -/
def Recorded (s : Metered μ) : Prop := ∀ call ∈ s.calls, call.phase.Within s.front.maxQueueSize

theorem Recorded.covers (h : Recorded s) : s.Covers := by
  intro _ call hcall currentSize hphase
  have hwithin := h call hcall
  rw [hphase] at hwithin
  exact hwithin

theorem recorded_started (capacity : Nat) : Recorded (started capacity : Metered μ) :=
  fun _ hcall => absurd hcall List.not_mem_nil

/-- The maximum after a store. -/
theorem maxQueueSize_stored (front : FrontEnd μ) (currentSize maxSize : Nat) :
    (stored front currentSize maxSize).maxQueueSize
      = if maxSize < currentSize then currentSize else front.maxQueueSize := by
  unfold stored
  split <;> rfl

/-- What a step writes to the maximum: only a store does. -/
theorem maxQueueSize_step (hframes : parts.Frames) {a : MeteredAction}
    (hstep : s.step parts a = some s') (hstore : ∀ i, a ≠ .store i) :
    s'.front.maxQueueSize = s.front.maxQueueSize := by
  cases a with
  | call via envelope now =>
    cases hstep
    unfold Metered.call
    dsimp only
    split
    · rename_i front henter
      exact hframes.enter s.front.begin _ _ _ _ _ henter
    · rfl
  | observe i =>
    obtain ⟨call, r, -, hr, rfl⟩ := advance_eq_some.mp hstep
    split at hr <;> cases hr
    rfl
  | load i =>
    obtain ⟨call, r, -, hr, rfl⟩ := advance_eq_some.mp hstep
    split at hr <;> cases hr
    rfl
  | store i => exact absurd rfl (hstore i)
  | send i =>
    obtain ⟨call, r, -, hr, rfl⟩ := advance_eq_some.mp hstep
    split at hr <;> cases hr
    exact hframes.send _ _ _ _
  | other a =>
    change s.other parts a = some s' at hstep
    unfold other at hstep
    split at hstep
    · cases hstep
    · rename_i hguard
      obtain ⟨front, hfront, rfl⟩ := Option.map_eq_some_iff.mp hstep
      rw [not_or] at hguard
      exact hframes.step _ _ _ (Bool.eq_false_of_not_eq_true hguard.1) hfront

/-- **A step keeps the maximum exactly when it is timely.** -/
theorem keeps_iff_timely (hframes : parts.Frames) (s : Metered μ) (a : MeteredAction) :
    s.Keeps parts a ↔ s.Timely a := by
  by_cases hstore : ∃ i, a = .store i
  · obtain ⟨i, rfl⟩ := hstore
    constructor
    · intro hkeeps call hcall currentSize maxSize hphase hlt
      -- the store writes the size that the call has found, whatever is there by now
      have hstep : s.step parts (.store i) = some _ := advance_eq_some.mpr
        ⟨call, (stored s.front currentSize maxSize, .updated currentSize), hcall,
          by rw [hphase], rfl⟩
      have hle := hkeeps _ hstep
      dsimp only at hle
      rw [maxQueueSize_stored, if_pos hlt] at hle
      exact hle
    · intro htimely s' hstep
      obtain ⟨call, r, hcall, hr, rfl⟩ := advance_eq_some.mp hstep
      split at hr
      · rename_i currentSize maxSize hphase
        cases hr
        show s.front.maxQueueSize ≤ (stored s.front currentSize maxSize).maxQueueSize
        rw [maxQueueSize_stored]
        split
        · rename_i hlt
          exact htimely call hcall currentSize maxSize hphase hlt
        · exact Nat.le_refl _
      · cases hr
  · have hother : ∀ i, a ≠ .store i := fun i hi => hstore ⟨i, hi⟩
    refine iff_of_true (fun s' hstep => (maxQueueSize_step hframes hstep hother).ge) ?_
    cases a with
    | store i => exact absurd rfl (hother i)
    | _ => trivial

/-- A call goes on, and what is recorded stays so. -/
theorem Recorded.advance {i : Nat} {next : MeteredCall → Option (FrontEnd μ × UpdatePhase)}
    (h : Recorded s) (hle : s.front.maxQueueSize ≤ s'.front.maxQueueSize)
    (hnext : ∀ call ∈ s.calls, ∀ r, next call = some r → call.phase.Within s.front.maxQueueSize →
      s.front.maxQueueSize ≤ r.1.maxQueueSize → r.2.Within r.1.maxQueueSize)
    (hstep : s.advance i next = some s') : Recorded s' := by
  obtain ⟨call, r, hcall, hr, rfl⟩ := advance_eq_some.mp hstep
  have hmem := List.mem_of_getElem? hcall
  intro c hc
  rcases List.mem_or_eq_of_mem_set hc with hold | rfl
  · -- the other calls were within a maximum that was no greater
    exact (h c hold).mono hle
  · exact hnext call hmem r hr (h call hmem) hle

/-- **Step.** A step that keeps the maximum keeps all calls within it. -/
theorem Recorded.step {a : MeteredAction} (h : Recorded s) (hkeeps : s.Keeps parts a)
    (hstep : s.step parts a = some s') : Recorded s' := by
  have hle := hkeeps s' hstep
  cases a with
  | call via envelope now =>
    cases hstep
    unfold Metered.call at hle ⊢
    dsimp only at hle ⊢
    split at hle
    · rename_i front henter
      intro c hc
      rcases List.mem_append.mp hc with hold | hnew
      · exact (h c hold).mono hle
      · rw [List.mem_singleton.mp hnew]
        trivial
    · intro c hc
      rcases List.mem_append.mp hc with hold | hnew
      · exact (h c hold).mono hle
      · rw [List.mem_singleton.mp hnew]
        trivial
  | observe i =>
    refine h.advance hle (fun call _ r hr _ _ => ?_) hstep
    split at hr <;> cases hr
    trivial
  | load i =>
    refine h.advance hle (fun call _ r hr _ _ => ?_) hstep
    split at hr <;> cases hr
    exact Nat.le_refl _
  | store i =>
    refine h.advance hle (fun call _ r hr hwithin hle => ?_) hstep
    split at hr
    · rename_i currentSize maxSize hphase
      cases hr
      rw [hphase] at hwithin
      show currentSize ≤ (stored s.front currentSize maxSize).maxQueueSize
      rw [maxQueueSize_stored]
      split
      · exact Nat.le_refl _
      · -- what is not stored is no more than what was loaded
        rename_i hnot
        exact Nat.le_trans (Nat.not_lt.mp hnot) hwithin
    · cases hr
  | send i =>
    refine h.advance hle (fun call _ r hr hwithin hle => ?_) hstep
    split at hr
    · rename_i currentSize hphase
      cases hr
      rw [hphase] at hwithin
      exact Nat.le_trans hwithin hle
    · cases hr
  | other a =>
    change s.other parts a = some s' at hstep
    unfold other at hstep
    split at hstep
    · cases hstep
    · obtain ⟨front, -, rfl⟩ := Option.map_eq_some_iff.mp hstep
      exact fun call hcall => (h call hcall).mono hle

end Metered

/-- **When the maximum is kept.**  In a run of a dispatcher that has just been started, with
    the steps of its calls in any order, the maximum never goes down and covers what the
    finished calls have found, if and only if every store is timely: no other call has stored
    a greater size since the load. -/
theorem DispatcherKind.maxQueueSize_iff_timely (kind : DispatcherKind) (capacity : Nat)
    (as : List MeteredAction) :
    (Transition.Along (Metered.step kind.parts) (Metered.Keeps kind.parts)
        (.started capacity) as ∧
      Transition.Throughout (Metered.step kind.parts) Metered.Covers (.started capacity) as) ↔
    Transition.Along (Metered.step kind.parts) Metered.Timely (.started capacity) as := by
  have hiff := Metered.keeps_iff_timely kind.frames
  constructor
  · rintro ⟨hkeeps, -⟩
    exact hkeeps.imp fun s a => (hiff s a).mp
  · intro htimely
    have hkeeps := htimely.imp fun s a => (hiff s a).mpr
    exact ⟨hkeeps, Transition.throughout_along (fun _ _ _ h hC hstep => h.step hC hstep)
      (fun _ h => h.covers) (Metered.recorded_started capacity) hkeeps⟩

namespace Metered

def ping : EventEnvelope :=
  .withMetadata 1 "Ping" (fun bytes => .ok bytes) [] { eventId := 1, timestamp := 0 }

/-- The second call finds one message, and the fourth finds two and stores; then the second
    stores. -/
def lostUpdate : List MeteredAction :=
  [.call .dispatch ping 0, .observe 0, .load 0, .store 0, .send 0,
    .call .dispatch ping 0, .observe 1, .load 1,
    .call .tryDispatch ping 0, .observe 2, .load 2, .store 2, .send 2,
    .call .tryDispatch ping 0, .observe 3, .load 3, .store 3, .send 3,
    .store 1, .send 1]

/-- All calls have finished, and the maximum is less than what one of them has found. -/
theorem maxQueueSize_lostUpdate :
    ∃ s, Transition.exec (step (FrontEnd.channelParts false)) (.started 4) lostUpdate = some s ∧
      s.Quiet ∧ ¬ s.Covers := by
  obtain ⟨s, hexec, hphases, hmax⟩ :
      ∃ s, Transition.exec (step (FrontEnd.channelParts false)) (.started 4) lostUpdate = some s ∧
        s.calls.map (·.phase) = [.sent (some 0), .sent (some 1), .sent (some 1), .sent (some 2)] ∧
        s.front.maxQueueSize = 1 :=
    ⟨_, rfl, rfl, rfl⟩
  have hmem : ∀ phase ∈ s.calls.map (·.phase), phase.isSent = true := by
    rw [hphases]
    decide
  have hquiet : s.Quiet := fun call hcall => hmem _ (List.mem_map_of_mem hcall)
  refine ⟨s, hexec, hquiet, fun hcovers => ?_⟩
  -- the fourth call has found two messages
  have hlast : UpdatePhase.sent (some 2) ∈ s.calls.map (·.phase) := by
    rw [hphases]
    decide
  obtain ⟨call, hcall, hphase⟩ := List.mem_map.mp hlast
  have hle := hcovers hquiet call hcall 2 hphase
  omega

end Metered
end TokioEvents
