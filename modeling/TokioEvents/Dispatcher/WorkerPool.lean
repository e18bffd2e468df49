/-
  TokioEvents.Dispatcher.WorkerPool

  `WorkerPool` (`src/dispatcher/worker.rs`): the tasks it spawns, each behind a bounded
  channel, the round robin of `send`, `send_to`, and `stop`.

  A call of `send` or `send_to` is several steps: the choice of the worker, the wait for a
  permit of its channel, and the message in the channel.  `calls`, and `arrived` and
  `processed` of a worker, are not state of the program: they record the calls so far and
  what has gone through the worker, in order.
-/

import TokioEvents.Event.Envelope
import TokioEvents.Lib.Permits
import TokioEvents.Lib.Transition

namespace TokioEvents

/-- `WorkerConfig`. -/
structure WorkerConfig where
  numWorkers : Nat
  /-- Size of the task queue per worker. -/
  queueSize : Nat
  deriving DecidableEq, Repr

/-- An envelope in a call.  The same envelope may be sent again by another one. -/
structure Sent (ε : Type) where
  call : Nat
  envelope : ε
  deriving DecidableEq, Repr

/-- Where the task of a worker is. -/
inductive WorkerTask (ε : Type) where
  /-- At `rx.recv()`. -/
  | receiving
  /-- At `processor(envelope)`. -/
  | processing (message : Sent ε)
  /-- The loop is over. -/
  | finished
  /-- The processor has panicked; this is what the `JoinError` says. -/
  | panicked (message : String)

/-- What the worker has in its hands. -/
def WorkerTask.current {ε : Type} : WorkerTask ε → List (Sent ε)
  | .processing message => [message]
  | _ => []

/-- A worker and its channel. -/
structure PoolWorker (ε : Type) where
  channel : Permits.Channel Nat (Sent ε)
  task : WorkerTask ε
  /-- What has entered the channel. -/
  arrived : List (Sent ε)
  /-- What the processor has returned from. -/
  processed : List (Sent ε)

/-- `mpsc::channel(queue_size)` and the task at its other end. -/
def PoolWorker.new {ε : Type} (queueSize : Nat) : PoolWorker ε where
  channel := .new queueSize
  task := .receiving
  arrived := []
  processed := []

/-- The two functions. -/
inductive SendVia where
  | send
  | sendTo
  deriving DecidableEq, Repr

/-- How far a call is. -/
inductive SendPhase where
  /-- The worker is chosen. -/
  | routed
  /-- In `Sender::send`. -/
  | sending
  | ok
  | error (e : Error)
  /-- The future has been dropped. -/
  | dropped
  deriving DecidableEq, Repr

/-- A call of `send` or `send_to`. -/
structure SendCall (ε : Type) where
  envelope : ε
  via : SendVia
  /-- The worker the envelope is routed to. -/
  worker : Option Nat
  phase : SendPhase

/-- The call borrows the pool no more. -/
def SendPhase.Over : SendPhase → Prop
  | .routed | .sending => False
  | _ => True

instance : DecidablePred SendPhase.Over
  | .routed | .sending => isFalse not_false
  | .ok | .error _ | .dropped => isTrue trivial

/-- Where the pool is in its life. -/
inductive PoolStage where
  | running
  /-- In `stop`, at the handle with this index. -/
  | joining (next : Nat)
  /-- `stop` has returned. -/
  | stopped (result : Except Error Unit)

/-- A pool. -/
structure WorkerPool (ε : Type) where
  config : WorkerConfig
  /-- `senders.len()`: the sender with index `i` is the one of the worker with index `i`. -/
  senders : Nat
  /-- The tasks of `handles`. -/
  workers : List (PoolWorker ε)
  nextWorker : Nat
  calls : List (SendCall ε)
  stage : PoolStage

/-- The steps. -/
inductive PoolAction (ε : Type) where
  /-- `send` is called. -/
  | send (envelope : ε)
  /-- `send_to` is called. -/
  | sendTo (workerIndex : Nat) (envelope : ε)
  /-- The call enters `Sender::send`. -/
  | reserve (call : Nat)
  /-- The call has its permit and sends. -/
  | push (call : Nat)
  /-- The call learns that the channel is closed. -/
  | refuse (call : Nat)
  /-- The future of the call is dropped. -/
  | drop (call : Nat)
  /-- The worker receives. -/
  | recv (worker : Nat)
  /-- The processor returns. -/
  | processed (worker : Nat) (result : Except Error Unit)
  | panicked (worker : Nat) (message : String)
  /-- `recv` returns `None`. -/
  | exit (worker : Nat)
  /-- `stop` is called. -/
  | stop
  /-- The handle `stop` is at is joined, or there is no other. -/
  | join

/-- The processor panics. -/
def PoolAction.panics {ε : Type} : PoolAction ε → Bool
  | .panicked _ _ => true
  | _ => false

namespace WorkerPool

variable {ε : Type}

/-- The values of an `AtomicUsize`. -/
def usizeValues : Nat := 2 ^ 64

/-- `Semaphore::MAX_PERMITS`. -/
def maxPermits : Nat := 2 ^ 61 - 1

/-- `WorkerPool::new`. -/
def new (config : WorkerConfig) : WorkerPool ε where
  config := config
  senders := 0
  workers := []
  nextWorker := 0
  calls := []
  stage := .running

/-- `WorkerPool::start`. -/
def start (s : WorkerPool ε) : Option (WorkerPool ε) :=
  -- `mpsc::channel` panics on such a capacity
  if 0 < s.config.numWorkers ∧ (s.config.queueSize = 0 ∨ maxPermits < s.config.queueSize) then none
  else
    some { s with
      senders := s.senders + s.config.numWorkers
      workers := s.workers ++ List.replicate s.config.numWorkers (.new s.config.queueSize) }

/-- A call and what it finds in its first step. -/
def begin (s : WorkerPool ε) (call : SendCall ε) : WorkerPool ε :=
  { s with calls := s.calls ++ [call] }

/-- `WorkerPool::send`, up to the channel. -/
def send (s : WorkerPool ε) (envelope : ε) : WorkerPool ε :=
  if s.senders = 0 then
    s.begin ⟨envelope, .send, none, .error (.internal "Worker pool not started")⟩
  else
    -- Get next worker index (round-robin)
    let index := s.nextWorker % s.senders
    { s with nextWorker := (s.nextWorker + 1) % usizeValues }.begin
      ⟨envelope, .send, some index, .routed⟩

/-- `WorkerPool::send_to`, up to the channel. -/
def sendTo (s : WorkerPool ε) (workerIndex : Nat) (envelope : ε) : WorkerPool ε :=
  if s.senders ≤ workerIndex then
    s.begin ⟨envelope, .sendTo, none, .error (.internal "Invalid worker index")⟩
  else s.begin ⟨envelope, .sendTo, some workerIndex, .routed⟩

/-- A worker goes on. -/
def setWorker (s : WorkerPool ε) (w : Nat) (worker : PoolWorker ε) : WorkerPool ε :=
  { s with workers := s.workers.set w worker }

/-- A call goes on. -/
def setCall (s : WorkerPool ε) (i : Nat) (call : SendCall ε) : WorkerPool ε :=
  { s with calls := s.calls.set i call }

/-- A step of a call at the channel of its worker: the channel and the phase after it. -/
def atChannel (s : WorkerPool ε) (i : Nat) (phase : SendPhase)
    (next : SendCall ε → PoolWorker ε → Option (PoolWorker ε × SendPhase)) :
    Option (WorkerPool ε) :=
  s.calls[i]?.bind fun call =>
    call.worker.bind fun w =>
      s.workers[w]?.bind fun worker =>
        if call.phase = phase then
          (next call worker).map fun r => (s.setWorker w r.1).setCall i { call with phase := r.2 }
        else none

/-- `senders[index].send(envelope)`, up to its permit or its place in the line. -/
def reserve (s : WorkerPool ε) (i : Nat) : Option (WorkerPool ε) :=
  s.atChannel i .routed fun call worker =>
    if worker.channel.receiver then
      some ({ worker with channel := worker.channel.reserve i ⟨i, call.envelope⟩ }, .sending)
    else some (worker, .error (.internal "Worker channel closed"))

/-- The rest of it. -/
def push (s : WorkerPool ε) (i : Nat) : Option (WorkerPool ε) :=
  s.atChannel i .sending fun _ worker =>
    (worker.channel.complete i).map fun r =>
      ({ worker with channel := r.2, arrived := worker.arrived ++ [r.1] }, .ok)

/-- The receiver is gone while the call waits. -/
def refuse (s : WorkerPool ε) (i : Nat) : Option (WorkerPool ε) :=
  s.atChannel i .sending fun _ worker =>
    if worker.channel.receiver then none
    else some ({ worker with channel := worker.channel.abandon i },
      .error (.internal "Worker channel closed"))

/-- The future of a waiting call is dropped. -/
def drop (s : WorkerPool ε) (i : Nat) : Option (WorkerPool ε) :=
  s.atChannel i .sending fun _ worker =>
    some ({ worker with channel := worker.channel.abandon i }, .dropped)

/-- A step of a worker. -/
def atWorker (s : WorkerPool ε) (w : Nat) (next : PoolWorker ε → Option (PoolWorker ε)) :
    Option (WorkerPool ε) :=
  s.workers[w]?.bind fun worker => (next worker).map (s.setWorker w)

/-- `rx.recv()` returns an envelope. -/
def recv (worker : PoolWorker ε) : Option (PoolWorker ε) :=
  match worker.task with
  | .receiving =>
    worker.channel.recv.map fun r => { worker with channel := r.2, task := .processing r.1 }
  | _ => none

/-- `processor(envelope)` returns; an error is logged. -/
def finishProcessing (_ : Except Error Unit) (worker : PoolWorker ε) : Option (PoolWorker ε) :=
  match worker.task with
  | .processing message =>
    some { worker with task := .receiving, processed := worker.processed ++ [message] }
  | _ => none

/-- `processor(envelope)` panics, and takes the task and the receiver with it. -/
def panic (message : String) (worker : PoolWorker ε) : Option (PoolWorker ε) :=
  match worker.task with
  | .processing _ =>
    some { worker with task := .panicked message, channel := worker.channel.dropReceiver }
  | _ => none

/-- `rx.recv()` returns `None`: the senders are gone, and the channel is empty. -/
def exit (senders : Nat) (worker : PoolWorker ε) : Option (PoolWorker ε) :=
  match worker.task with
  | .receiving =>
    if senders = 0 ∧ worker.channel.buffer = [] then
      some { worker with task := .finished, channel := worker.channel.dropReceiver }
    else none
  | _ => none

/-- `WorkerPool::stop`, up to the first handle.  It takes the pool by value, and a call of
    `send` borrows it: there is none on its way. -/
def stop (s : WorkerPool ε) : Option (WorkerPool ε) :=
  if ∀ call ∈ s.calls, call.phase.Over then some { s with senders := 0, stage := .joining 0 }
  else none

/-- `handle.await` for the handle with index `k`. -/
def join (s : WorkerPool ε) (k : Nat) : Option (WorkerPool ε) :=
  match s.workers[k]? with
  | none => some { s with stage := .stopped (.ok ()) }
  | some worker =>
    match worker.task with
    | .finished => some { s with stage := .joining (k + 1) }
    | .panicked message =>
      some { s with stage := .stopped (.error (.internal ("Worker join error: " ++ message))) }
    | _ => none

/-- What the owner of the pool and the borrowers do while it runs. -/
def stepRunning (s : WorkerPool ε) : PoolAction ε → Option (WorkerPool ε)
  | .send envelope => some (s.send envelope)
  | .sendTo workerIndex envelope => some (s.sendTo workerIndex envelope)
  | .reserve i => s.reserve i
  | .push i => s.push i
  | .refuse i => s.refuse i
  | .drop i => s.drop i
  | .stop => s.stop
  | _ => none

/-- A step. -/
def step (s : WorkerPool ε) : PoolAction ε → Option (WorkerPool ε)
  | .recv w => s.atWorker w recv
  | .processed w result => s.atWorker w (finishProcessing result)
  | .panicked w message => s.atWorker w (panic message)
  | .exit w => s.atWorker w (exit s.senders)
  | .join =>
    match s.stage with
    | .joining k => s.join k
    | _ => none
  | a =>
    match s.stage with
    | .running => s.stepRunning a
    | _ => none

/-! ## What a step finds -/

theorem atChannel_eq_some {s s' : WorkerPool ε} {i : Nat} {phase : SendPhase}
    {next : SendCall ε → PoolWorker ε → Option (PoolWorker ε × SendPhase)} :
    s.atChannel i phase next = some s' ↔
      ∃ call w worker r, s.calls[i]? = some call ∧ call.worker = some w ∧
        s.workers[w]? = some worker ∧ call.phase = phase ∧ next call worker = some r ∧
        s' = (s.setWorker w r.1).setCall i { call with phase := r.2 } := by
  unfold atChannel
  simp only [Option.bind_eq_some_iff]
  constructor
  · rintro ⟨call, hcall, w, hw, worker, hworker, h⟩
    split at h
    · rename_i hphase
      obtain ⟨r, hr, rfl⟩ := Option.map_eq_some_iff.mp h
      exact ⟨call, w, worker, r, hcall, hw, hworker, hphase, hr, rfl⟩
    · cases h
  · rintro ⟨call, w, worker, r, hcall, hw, hworker, hphase, hr, rfl⟩
    refine ⟨call, hcall, w, hw, worker, hworker, ?_⟩
    rw [if_pos hphase, hr]
    rfl

theorem atWorker_eq_some {s s' : WorkerPool ε} {w : Nat}
    {next : PoolWorker ε → Option (PoolWorker ε)} :
    s.atWorker w next = some s' ↔
      ∃ worker worker', s.workers[w]? = some worker ∧ next worker = some worker' ∧
        s' = s.setWorker w worker' := by
  unfold atWorker
  simp only [Option.bind_eq_some_iff, Option.map_eq_some_iff]
  constructor
  · rintro ⟨worker, hworker, worker', hnext, rfl⟩
    exact ⟨worker, worker', hworker, hnext, rfl⟩
  · rintro ⟨worker, worker', hworker, hnext, rfl⟩
    exact ⟨worker, hworker, worker', hnext, rfl⟩

end WorkerPool
end TokioEvents
