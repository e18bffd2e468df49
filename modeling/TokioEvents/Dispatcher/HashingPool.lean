/-
  TokioEvents.Dispatcher.HashingPool

  `HashingWorkerPool` (`src/dispatcher/worker.rs`): a `WorkerPool` whose `send` picks the
  worker by the hash of the correlation id, or else of the event id.  The events of a causal
  chain share that id, so they have one worker, and it takes them in the order in which
  their sends completed.

  A send completes when its envelope is in the channel of the worker.  A worker whose
  processor panics processes no more, and what it has processed is still in that order.
-/

import TokioEvents.Dispatcher.WorkConservation
import TokioEvents.Event.Chain

namespace TokioEvents
namespace WorkerPool

variable {ε : Type}

/-! ## The order of arrival -/

/-- The send that an action completes. -/
def completes (s : WorkerPool ε) : PoolAction ε → Option (Sent ε)
  | .push i => s.calls[i]?.map fun call => ⟨i, call.envelope⟩
  | _ => none

/-- The worker that the call of a message was routed to. -/
def target (calls : List (SendCall ε)) (message : Sent ε) : Option Nat :=
  calls[message.call]?.bind (·.worker)

theorem Addressed.target_eq {calls : List (SendCall ε)} {w : Nat} {message : Sent ε}
    (h : Addressed calls w message) : target calls message = some w := by
  obtain ⟨call, hcall, hw, -⟩ := h
  rw [target, hcall]
  exact hw

/-- What holds of a worker, panic or not: it has processed what arrived first, and what
    arrived are the completed sends that were routed to it. -/
structure Ordered (calls : List (SendCall ε)) (completed : List (Sent ε)) (w : Nat)
    (worker : PoolWorker ε) : Prop where
  arrived : worker.arrived = completed.filter fun message => target calls message = some w
  processed : worker.processed <+: worker.arrived
  queue : (∀ text, worker.task ≠ .panicked text) →
    worker.arrived = worker.processed ++ worker.task.current ++ worker.channel.buffer
  lined : Lined calls w worker.channel

section Worker

variable {calls : List (SendCall ε)} {completed : List (Sent ε)} {w senders : Nat}
  {worker worker' : PoolWorker ε}

theorem Ordered.goes (h : Ordered calls completed w worker) (hgoes : Goes senders worker worker') :
    Ordered calls completed w worker' := by
  have hhealthy : ∀ text, worker.task ≠ .panicked text := by
    intro text htext
    cases hgoes with
    | recv htask => rw [htext] at htask; cases htask
    | processed htask => rw [htext] at htask; cases htask
    | exit htask => rw [htext] at htask; cases htask
  have hqueue := queue_goes hgoes (h.queue hhealthy)
  have hprocessed : worker'.processed <+: worker'.arrived := by
    rw [hqueue, List.append_assoc]
    exact List.prefix_append _ _
  cases hgoes with
  | @recv message channel htask hbuffer hline =>
    exact ⟨h.arrived, hprocessed, fun _ => hqueue, h.lined.congr hline⟩
  | processed htask => exact ⟨h.arrived, hprocessed, fun _ => hqueue, h.lined⟩
  | exit htask => exact ⟨h.arrived, hprocessed, fun _ => hqueue, h.lined⟩

theorem Ordered.panic {text : String} (h : Ordered calls completed w worker)
    (hpanic : panic text worker = some worker') : Ordered calls completed w worker' := by
  unfold WorkerPool.panic at hpanic
  split at hpanic
  · cases hpanic
    exact ⟨h.arrived, h.processed, fun hhealthy => absurd rfl (hhealthy text), h.lined⟩
  · cases hpanic

/-- The calls go on, and no send completes. -/
theorem Ordered.frame {calls' : List (SendCall ε)} (h : Ordered calls completed w worker)
    (htarget : ∀ message ∈ completed, target calls' message = target calls message)
    (haddressed : ∀ message, Addressed calls w message → Addressed calls' w message) :
    Ordered calls' completed w worker := by
  refine ⟨?_, h.processed, h.queue, h.lined.imp haddressed⟩
  rw [h.arrived]
  refine List.filter_congr fun message hmessage => ?_
  rw [htarget message hmessage]

/-- The line of the channel changes, and nothing enters the buffer. -/
theorem Ordered.relined {channel : Permits.Channel Nat (Sent ε)}
    (h : Ordered calls completed w worker) (hbuffer : channel.buffer = worker.channel.buffer)
    (hlined : Lined calls w channel) :
    Ordered calls completed w { worker with channel := channel } := by
  refine ⟨h.arrived, h.processed, fun hhealthy => ?_, hlined⟩
  show worker.arrived = worker.processed ++ worker.task.current ++ channel.buffer
  rw [hbuffer]
  exact h.queue hhealthy

/-- A send to the worker completes. -/
theorem Ordered.push {i : Nat} {call : SendCall ε} {message : Sent ε}
    {channel : Permits.Channel Nat (Sent ε)} (h : Ordered calls completed w worker)
    (hcall : calls[i]? = some call) (hw : call.worker = some w)
    (hcomplete : worker.channel.complete i = some (message, channel)) :
    Ordered calls (completed ++ [⟨i, call.envelope⟩]) w
      { worker with channel := channel, arrived := worker.arrived ++ [message] } := by
  obtain ⟨-, hbuffer, hline, -⟩ := Permits.Channel.complete_eq_some hcomplete
  have htarget : target calls ⟨i, call.envelope⟩ = some w :=
    Addressed.target_eq ⟨call, hcall, hw, rfl⟩
  refine ⟨?_, h.processed.trans (List.prefix_append _ _), fun hhealthy => ?_,
    h.lined.subset hline⟩
  · rw [h.lined.message_eq hcall hcomplete, h.arrived, List.filter_append, List.filter_singleton,
      htarget, decide_eq_true rfl]
    rfl
  · show worker.arrived ++ [message] = worker.processed ++ worker.task.current ++ channel.buffer
    rw [hbuffer, h.queue hhealthy, List.append_assoc]

/-- A send to another worker completes. -/
theorem Ordered.pushOther {message : Sent ε} (h : Ordered calls completed w worker)
    (htarget : target calls message ≠ some w) :
    Ordered calls (completed ++ [message]) w worker := by
  refine ⟨?_, h.processed, h.queue, h.lined⟩
  rw [h.arrived, List.filter_append, List.filter_singleton, decide_eq_false htarget]
  exact (List.append_nil _).symm

end Worker

/-- What holds of every worker, and of the sends. -/
structure InOrder (s : WorkerPool ε) (completed : List (Sent ε)) : Prop where
  workers : ∀ w worker, s.workers[w]? = some worker → Ordered s.calls completed w worker
  known : ∀ message ∈ completed, ∃ w, Addressed s.calls w message

section Pool

variable {s s' : WorkerPool ε} {completed : List (Sent ε)}

theorem inOrder_start {config : WorkerConfig} (h : (new config).start = some s) :
    InOrder s [] := by
  unfold start at h
  split at h
  · cases h
  · cases h
    refine ⟨fun w worker hworker => ?_, nofun⟩
    obtain rfl := List.eq_of_mem_replicate (List.mem_of_getElem? hworker)
    exact ⟨rfl, List.prefix_refl _, fun _ => rfl, nofun⟩

theorem InOrder.begin (h : InOrder s completed) (call : SendCall ε) :
    InOrder (s.begin call) completed := by
  refine ⟨fun w worker hworker => ?_, fun message hmessage => ?_⟩
  · refine (h.workers w worker hworker).frame (fun message hmessage => ?_)
      fun _ hm => hm.begin call
    obtain ⟨w', haddressed⟩ := h.known message hmessage
    exact (haddressed.begin call).target_eq.trans haddressed.target_eq.symm
  · obtain ⟨w', haddressed⟩ := h.known message hmessage
    exact ⟨w', haddressed.begin call⟩

theorem InOrder.send (h : InOrder s completed) (envelope : ε) :
    InOrder (s.send envelope) completed := by
  unfold WorkerPool.send
  split
  · exact h.begin _
  · have hnext : InOrder { s with nextWorker := (s.nextWorker + 1) % usizeValues } completed :=
      ⟨h.workers, h.known⟩
    exact hnext.begin _

theorem InOrder.sendTo (h : InOrder s completed) (workerIndex : Nat) (envelope : ε) :
    InOrder (s.sendTo workerIndex envelope) completed := by
  unfold WorkerPool.sendTo
  split <;> exact h.begin _

/-- A call that goes on keeps its worker. -/
theorem target_setPhase {calls : List (SendCall ε)} {i : Nat} {call : SendCall ε}
    (hcall : calls[i]? = some call) (phase : SendPhase) (message : Sent ε) :
    target (calls.set i { call with phase := phase }) message = target calls message := by
  unfold target
  by_cases heq : i = message.call
  · subst heq
    rw [List.getElem?_set_self (List.getElem?_eq_some_iff.mp hcall).1, hcall]
    rfl
  · rw [List.getElem?_set_ne heq]

theorem Ordered.setPhase {calls : List (SendCall ε)} {w i : Nat} {worker : PoolWorker ε}
    {call : SendCall ε} (h : Ordered calls completed w worker) (hcall : calls[i]? = some call)
    (phase : SendPhase) :
    Ordered (calls.set i { call with phase := phase }) completed w worker :=
  h.frame (fun message _ => target_setPhase hcall phase message) fun _ hm => hm.setPhase hcall phase

/-- A call goes on at the channel of its worker, and no send completes. -/
theorem InOrder.atChannel {i : Nat} {phase : SendPhase}
    {next : SendCall ε → PoolWorker ε → Option (PoolWorker ε × SendPhase)}
    (h : InOrder s completed)
    (hnext : ∀ call w worker r, s.calls[i]? = some call → call.worker = some w →
      Ordered s.calls completed w worker → next call worker = some r →
      Ordered s.calls completed w r.1)
    (hstep : s.atChannel i phase next = some s') : InOrder s' completed := by
  obtain ⟨call, w, worker, r, hcall, hw, hworker, -, hr, rfl⟩ := atChannel_eq_some.mp hstep
  refine ⟨fun w' x hx => ?_, fun message hmessage => ?_⟩
  · have hold : Ordered s.calls completed w' x := by
      rcases Calls.getElem?_advance hworker hx with ⟨rfl, rfl⟩ | ⟨-, hold⟩
      · exact hnext call w' worker r hcall hw (h.workers w' worker hworker) hr
      · exact h.workers w' x hold
    exact hold.setPhase hcall r.2
  · obtain ⟨w', haddressed⟩ := h.known message hmessage
    exact ⟨w', haddressed.setPhase hcall r.2⟩

theorem InOrder.reserve {i : Nat} (h : InOrder s completed) (hstep : s.reserve i = some s') :
    InOrder s' completed := by
  refine h.atChannel (fun call w worker r hcall hw hordered hr => ?_) hstep
  split at hr
  · cases hr
    exact hordered.relined (Permits.Channel.buffer_reserve _ _ _)
      (hordered.lined.reserve hcall hw)
  · cases hr
    exact hordered

/-- A call leaves the line. -/
theorem Ordered.abandon {calls : List (SendCall ε)} {w : Nat} {worker : PoolWorker ε}
    (h : Ordered calls completed w worker) (i : Nat) :
    Ordered calls completed w { worker with channel := worker.channel.abandon i } :=
  h.relined (Permits.Channel.buffer_abandon _ _) (h.lined.abandon i)

theorem InOrder.refuse {i : Nat} (h : InOrder s completed) (hstep : s.refuse i = some s') :
    InOrder s' completed := by
  refine h.atChannel (fun call w worker r _ _ hordered hr => ?_) hstep
  split at hr
  · cases hr
  · cases hr
    exact hordered.abandon i

theorem InOrder.drop {i : Nat} (h : InOrder s completed) (hstep : s.drop i = some s') :
    InOrder s' completed := by
  refine h.atChannel (fun call w worker r _ _ hordered hr => ?_) hstep
  cases hr
  exact hordered.abandon i

theorem InOrder.push {i : Nat} (h : InOrder s completed) (hstep : s.push i = some s') :
    InOrder s' (completed ++ (completes s (.push i)).toList) := by
  obtain ⟨call, w, worker, r, hcall, hw, hworker, -, hr, rfl⟩ := atChannel_eq_some.mp hstep
  obtain ⟨⟨message, channel⟩, hcomplete, rfl⟩ := Option.map_eq_some_iff.mp hr
  have hcompletes : (completes s (.push i)).toList = [⟨i, call.envelope⟩] := by
    rw [completes, hcall]
    rfl
  have htarget : target s.calls ⟨i, call.envelope⟩ = some w :=
    Addressed.target_eq ⟨call, hcall, hw, rfl⟩
  rw [hcompletes]
  refine ⟨fun w' x hx => ?_, fun m hm => ?_⟩
  · have hold : Ordered s.calls (completed ++ [⟨i, call.envelope⟩]) w' x := by
      rcases Calls.getElem?_advance hworker hx with ⟨rfl, rfl⟩ | ⟨hne, hold⟩
      · exact (h.workers w' worker hworker).push hcall hw hcomplete
      · refine (h.workers w' x hold).pushOther fun heq => hne ?_
        exact Option.some.inj (heq.symm.trans htarget)
    exact hold.setPhase hcall .ok
  · rcases List.mem_append.mp hm with hold | hnew
    · obtain ⟨w', haddressed⟩ := h.known m hold
      exact ⟨w', haddressed.setPhase hcall .ok⟩
    · have haddressed : Addressed s.calls w ⟨i, call.envelope⟩ := ⟨call, hcall, hw, rfl⟩
      rw [List.mem_singleton.mp hnew]
      exact ⟨w, haddressed.setPhase hcall .ok⟩

theorem InOrder.atWorker {w : Nat} {next : PoolWorker ε → Option (PoolWorker ε)}
    (h : InOrder s completed)
    (hnext : ∀ worker worker', Ordered s.calls completed w worker →
      next worker = some worker' → Ordered s.calls completed w worker')
    (hstep : s.atWorker w next = some s') : InOrder s' completed := by
  obtain ⟨worker, worker', hworker, htaken, rfl⟩ := atWorker_eq_some.mp hstep
  refine ⟨fun w' x hx => ?_, h.known⟩
  rcases Calls.getElem?_advance hworker hx with ⟨rfl, rfl⟩ | ⟨-, hold⟩
  · exact hnext worker x (h.workers w' worker hworker) htaken
  · exact h.workers w' x hold

/-- A step that completes no send adds none. -/
theorem InOrder.silent {a : PoolAction ε} (h : InOrder s' completed)
    (hsilent : completes s a = none) : InOrder s' (completed ++ (completes s a).toList) := by
  rw [hsilent, Option.toList_none, List.append_nil]
  exact h

/-- The pool comes to another stage. -/
theorem InOrder.staged (h : InOrder s completed) (senders : Nat) (stage : PoolStage) :
    InOrder { s with senders := senders, stage := stage } completed := ⟨h.workers, h.known⟩

theorem InOrder.stop (h : InOrder s completed) (hstep : s.stop = some s') :
    InOrder s' completed := by
  unfold WorkerPool.stop at hstep
  split at hstep
  · cases hstep
    exact h.staged 0 (.joining 0)
  · cases hstep

theorem InOrder.join {k : Nat} (h : InOrder s completed) (hstep : s.join k = some s') :
    InOrder s' completed := by
  unfold WorkerPool.join at hstep
  split at hstep
  · cases hstep
    exact h.staged s.senders (.stopped (.ok ()))
  · split at hstep
    · cases hstep
      exact h.staged s.senders (.joining (k + 1))
    · cases hstep
      exact h.staged s.senders (.stopped _)
    · cases hstep

/-- What the borrowers and the owner do while the pool runs. -/
theorem InOrder.stepRunning {a : PoolAction ε} (h : InOrder s completed)
    (hstep : s.stepRunning a = some s') : InOrder s' (completed ++ (completes s a).toList) := by
  cases a with
  | send envelope =>
    cases hstep
    exact (h.send envelope).silent rfl
  | sendTo workerIndex envelope =>
    cases hstep
    exact (h.sendTo workerIndex envelope).silent rfl
  | reserve i => exact (h.reserve hstep).silent rfl
  | push i => exact h.push hstep
  | refuse i => exact (h.refuse hstep).silent rfl
  | drop i => exact (h.drop hstep).silent rfl
  | stop => exact (h.stop hstep).silent rfl
  | _ => cases hstep

/-- **Step.** Also when a processor panics. -/
theorem InOrder.step {a : PoolAction ε} (h : InOrder s completed) (hstep : s.step a = some s') :
    InOrder s' (completed ++ (completes s a).toList) := by
  cases a with
  | recv w =>
    refine InOrder.silent (h.atWorker (fun worker worker' hworker hr => ?_) hstep) rfl
    exact hworker.goes (goes_recv s.senders hr)
  | processed w result =>
    refine InOrder.silent (h.atWorker (fun worker worker' hworker hr => ?_) hstep) rfl
    exact hworker.goes (goes_finishProcessing s.senders hr)
  | panicked w text =>
    refine InOrder.silent (h.atWorker (fun worker worker' hworker hr => ?_) hstep) rfl
    exact hworker.panic hr
  | exit w =>
    refine InOrder.silent (h.atWorker (fun worker worker' hworker hr => ?_) hstep) rfl
    exact hworker.goes (goes_exit hr)
  | join =>
    simp only [WorkerPool.step] at hstep
    split at hstep
    · exact (h.join hstep).silent rfl
    · cases hstep
  | _ =>
    simp only [WorkerPool.step] at hstep
    split at hstep
    · exact h.stepRunning hstep
    · cases hstep

end Pool

end WorkerPool

/-- `HashingWorkerPool`. -/
structure HashingWorkerPool where
  pool : WorkerPool EventEnvelope

namespace HashingWorkerPool

open WorkerPool (InOrder)

/-- `HashingWorkerPool::new`. -/
def new (config : WorkerConfig) : HashingWorkerPool := ⟨.new config⟩

/-- `HashingWorkerPool::start`. -/
def start (s : HashingWorkerPool) : Option HashingWorkerPool := s.pool.start.map .mk

section Hash

/- `fxhash::hash64` on an id. -/
variable (hash64 : Uuid → UInt64)

/-- The worker `send` picks. -/
def workerIndex (numWorkers : Nat) (envelope : EventEnvelope) : Nat :=
  match envelope.metadata.correlationId with
  | some correlationId =>
    -- Use correlation ID for consistent routing
    (hash64 correlationId).toNat % numWorkers
  | none =>
    -- Fall back to event ID
    (hash64 envelope.eventId).toNat % numWorkers

/-- `HashingWorkerPool::send`, up to the channel. -/
def send (s : HashingWorkerPool) (envelope : EventEnvelope) : Option HashingWorkerPool :=
  -- the remainder by zero panics
  if s.pool.senders = 0 then none
  else some ⟨s.pool.sendTo (workerIndex hash64 s.pool.senders envelope) envelope⟩

/-- A step.  The pool is private: `send_to` is called by `send` alone. -/
def step (s : HashingWorkerPool) : PoolAction EventEnvelope → Option HashingWorkerPool
  | .send envelope =>
    match s.pool.stage with
    | .running => s.send hash64 envelope
    | _ => none
  | .sendTo _ _ => none
  | a => (s.pool.step a).map .mk

/-- The sends completed so far, in order. -/
def recordCompleted (s : HashingWorkerPool) (a : PoolAction EventEnvelope) (_ : HashingWorkerPool)
    (completed : List (Sent EventEnvelope)) : List (Sent EventEnvelope) :=
  completed ++ (s.pool.completes a).toList

/-- A started pool and its runs, with the sends completed. -/
abbrev exec (started : HashingWorkerPool) (as : List (PoolAction EventEnvelope)) :
    Option (HashingWorkerPool × List (Sent EventEnvelope)) :=
  Transition.exec (Transition.withHistory (step hash64) recordCompleted) (started, []) as

end Hash

variable {hash64 : Uuid → UInt64} {s s' : HashingWorkerPool}

/-- The worker is the one of the trace. -/
theorem workerIndex_eq (numWorkers : Nat) (envelope : EventEnvelope) :
    workerIndex hash64 numWorkers envelope = (hash64 envelope.traceId).toNat % numWorkers := by
  unfold workerIndex EventEnvelope.traceId
  cases envelope.metadata.correlationId with
  | none => rfl
  | some correlationId => rfl

/-- A step is one of the pool, which completes the same send. -/
theorem step_pool {a : PoolAction EventEnvelope} (hstep : s.step hash64 a = some s') :
    ∃ b, s.pool.step b = some s'.pool ∧ s.pool.completes b = s.pool.completes a ∧
      b.panics = a.panics := by
  cases a with
  | send envelope =>
    simp only [step, send] at hstep
    split at hstep
    · rename_i hrunning
      split at hstep
      · cases hstep
      · cases hstep
        refine ⟨.sendTo (workerIndex hash64 s.pool.senders envelope) envelope, ?_, rfl, rfl⟩
        simp only [WorkerPool.step, hrunning, WorkerPool.stepRunning]
    · cases hstep
  | sendTo workerIndex envelope => cases hstep
  | _ =>
    obtain ⟨pool, hpool, rfl⟩ := Option.map_eq_some_iff.mp hstep
    exact ⟨_, hpool, rfl, rfl⟩

/-- And a run is a run of the pool. -/
theorem exec_pool {as : List (PoolAction EventEnvelope)}
    (hexec : Transition.exec (step hash64) s as = some s') :
    ∃ bs, Transition.exec WorkerPool.step s.pool bs = some s'.pool ∧
      ((∀ a ∈ as, a.panics = false) → ∀ b ∈ bs, b.panics = false) := by
  induction as generalizing s with
  | nil =>
    obtain rfl := Option.some.inj hexec
    exact ⟨[], rfl, fun _ _ => nofun⟩
  | cons a as ih =>
    obtain ⟨s₁, ha, hrest⟩ := (Transition.exec_cons_eq_some _).mp hexec
    obtain ⟨b, hb, -, hpanics⟩ := step_pool ha
    obtain ⟨bs, hbs, hall⟩ := ih hrest
    refine ⟨b :: bs, (Transition.exec_cons_of_step _ hb).trans hbs, fun has => ?_⟩
    obtain ⟨hfirst, hothers⟩ := List.forall_mem_cons.mp has
    exact List.forall_mem_cons.mpr ⟨hpanics.trans hfirst, hall hothers⟩

/-- The pool of a run is in order. -/
theorem inOrder_of_exec {config : WorkerConfig} {started : HashingWorkerPool}
    {as : List (PoolAction EventEnvelope)} {completed : List (Sent EventEnvelope)}
    (hstart : (new config).start = some started)
    (hexec : exec hash64 started as = some (s, completed)) : InOrder s.pool completed := by
  obtain ⟨pool, hpool, rfl⟩ := Option.map_eq_some_iff.mp hstart
  refine Transition.invariant (I := fun t : HashingWorkerPool × List (Sent EventEnvelope) =>
    InOrder t.1.pool t.2) (fun t a t' h hstep => ?_) (WorkerPool.inOrder_start hpool) hexec
  obtain ⟨htaken, hrecord⟩ := Transition.withHistory_eq_some.mp hstep
  obtain ⟨b, hb, hcompletes, -⟩ := step_pool htaken
  rw [hrecord, recordCompleted, ← hcompletes]
  exact h.step hb

/-! ## Affinity -/

/-- Every call has the worker that the hash of its envelope says. -/
structure Routed (hash64 : Uuid → UInt64) (n : Nat) (s : WorkerPool EventEnvelope) : Prop where
  length : s.workers.length = n
  senders : s.stage = .running → s.senders = n
  calls : ∀ call ∈ s.calls, call.worker = some (workerIndex hash64 n call.envelope)

section Step

variable {n : Nat} {p p' : WorkerPool EventEnvelope}

theorem routed_start {config : WorkerConfig} (h : (WorkerPool.new config).start = some p) :
    Routed hash64 config.numWorkers p := by
  unfold WorkerPool.start at h
  split at h
  · cases h
  · cases h
    refine ⟨?_, fun _ => ?_, fun call hcall => absurd hcall List.not_mem_nil⟩
    · show (List.replicate config.numWorkers _).length = _
      rw [List.length_replicate]
    · show 0 + config.numWorkers = _
      rw [Nat.zero_add]

theorem Routed.atChannel {i : Nat} {phase : SendPhase}
    {next : SendCall EventEnvelope → PoolWorker EventEnvelope →
      Option (PoolWorker EventEnvelope × SendPhase)}
    (h : Routed hash64 n p) (hstep : p.atChannel i phase next = some p') :
    Routed hash64 n p' := by
  obtain ⟨call, w, worker, r, hcall, -, -, -, -, rfl⟩ := WorkerPool.atChannel_eq_some.mp hstep
  refine ⟨List.length_set.trans h.length, h.senders, fun c hc => ?_⟩
  rcases List.mem_or_eq_of_mem_set hc with hold | rfl
  · exact h.calls c hold
  · exact h.calls call (List.mem_of_getElem? hcall)

theorem Routed.atWorker {w : Nat}
    {next : PoolWorker EventEnvelope → Option (PoolWorker EventEnvelope)}
    (h : Routed hash64 n p) (hstep : p.atWorker w next = some p') : Routed hash64 n p' := by
  obtain ⟨worker, worker', -, -, rfl⟩ := WorkerPool.atWorker_eq_some.mp hstep
  exact ⟨List.length_set.trans h.length, h.senders, h.calls⟩

/-- The pool is on its way to its end. -/
theorem Routed.staged (h : Routed hash64 n p) (senders : Nat) {stage : PoolStage}
    (hstage : stage ≠ .running) : Routed hash64 n { p with senders := senders, stage := stage } :=
  ⟨h.length, fun hrunning => absurd hrunning hstage, h.calls⟩

theorem Routed.stop (h : Routed hash64 n p) (hstep : p.stop = some p') : Routed hash64 n p' := by
  unfold WorkerPool.stop at hstep
  split at hstep
  · cases hstep
    exact h.staged 0 nofun
  · cases hstep

theorem Routed.join {k : Nat} (h : Routed hash64 n p) (hstep : p.join k = some p') :
    Routed hash64 n p' := by
  unfold WorkerPool.join at hstep
  split at hstep
  · cases hstep
    exact h.staged p.senders nofun
  · split at hstep
    · cases hstep
      exact h.staged p.senders nofun
    · cases hstep
      exact h.staged p.senders nofun
    · cases hstep

/-- A call of `send` gets the worker of its envelope. -/
theorem Routed.send {envelope : EventEnvelope} (hn : 1 ≤ n) (h : Routed hash64 n s.pool)
    (hrunning : s.pool.stage = .running) (hstep : s.send hash64 envelope = some s') :
    Routed hash64 n s'.pool := by
  unfold HashingWorkerPool.send at hstep
  rw [h.senders hrunning, if_neg (by omega)] at hstep
  cases hstep
  have hlt : workerIndex hash64 n envelope < n := by
    rw [workerIndex_eq]
    exact Nat.mod_lt _ hn
  unfold WorkerPool.sendTo
  rw [h.senders hrunning, if_neg (by omega)]
  refine ⟨h.length, fun _ => h.senders hrunning, fun call hcall => ?_⟩
  rcases List.mem_append.mp hcall with hold | hnew
  · exact h.calls call hold
  · rw [List.mem_singleton.mp hnew]

/-- **Step.** -/
theorem Routed.step {a : PoolAction EventEnvelope} (hn : 1 ≤ n) (h : Routed hash64 n s.pool)
    (hstep : s.step hash64 a = some s') : Routed hash64 n s'.pool := by
  cases a with
  | send envelope =>
    simp only [HashingWorkerPool.step] at hstep
    split at hstep
    · rename_i hrunning
      exact h.send hn hrunning hstep
    · cases hstep
  | sendTo workerIndex envelope => cases hstep
  | join =>
    obtain ⟨pool, hpool, rfl⟩ := Option.map_eq_some_iff.mp hstep
    simp only [WorkerPool.step] at hpool
    split at hpool
    · exact h.join hpool
    · cases hpool
  | stop =>
    obtain ⟨pool, hpool, rfl⟩ := Option.map_eq_some_iff.mp hstep
    simp only [WorkerPool.step] at hpool
    split at hpool
    · exact h.stop hpool
    · cases hpool
  | recv w | processed w result | panicked w text | exit w =>
    obtain ⟨pool, hpool, rfl⟩ := Option.map_eq_some_iff.mp hstep
    exact h.atWorker hpool
  | reserve i | push i | refuse i | drop i =>
    obtain ⟨pool, hpool, rfl⟩ := Option.map_eq_some_iff.mp hstep
    simp only [WorkerPool.step] at hpool
    split at hpool
    · exact h.atChannel hpool
    · cases hpool

end Step

theorem routed_of_exec {config : WorkerConfig} {started : HashingWorkerPool}
    {as : List (PoolAction EventEnvelope)} (hn : 1 ≤ config.numWorkers)
    (hstart : (new config).start = some started)
    (hexec : Transition.exec (step hash64) started as = some s) :
    Routed hash64 config.numWorkers s.pool := by
  obtain ⟨pool, hpool, rfl⟩ := Option.map_eq_some_iff.mp hstart
  exact Transition.invariant (I := fun t : HashingWorkerPool =>
    Routed hash64 config.numWorkers t.pool) (fun _ _ _ h hstep => h.step hn hstep)
    (routed_start hpool) hexec

section Order

variable {n : Nat} {p : WorkerPool EventEnvelope} {completed : List (Sent EventEnvelope)}

/-- A send that completed went to the worker of its envelope. -/
theorem Routed.target_eq (h : Routed hash64 n p) (horder : InOrder p completed)
    {message : Sent EventEnvelope} (hmessage : message ∈ completed) :
    WorkerPool.target p.calls message = some (workerIndex hash64 n message.envelope) := by
  obtain ⟨w, haddressed⟩ := horder.known message hmessage
  obtain ⟨call, hcall, hw, henvelope⟩ := haddressed
  have hrouted := h.calls call (List.mem_of_getElem? hcall)
  rw [henvelope] at hrouted
  rw [WorkerPool.target, hcall]
  exact hrouted

variable {w : Nat} {worker : PoolWorker EventEnvelope}

/-- What a worker has processed was sent to it. -/
theorem Routed.workerIndex_processed (h : Routed hash64 n p) (horder : InOrder p completed)
    (hworker : p.workers[w]? = some worker) {message : Sent EventEnvelope}
    (hmessage : message ∈ worker.processed) : workerIndex hash64 n message.envelope = w := by
  have hordered := horder.workers w worker hworker
  have harrived := hordered.processed.subset hmessage
  rw [hordered.arrived, List.mem_filter] at harrived
  obtain ⟨hcompleted, htarget⟩ := harrived
  exact Option.some.inj ((h.target_eq horder hcompleted).symm.trans (of_decide_eq_true htarget))

/-- Sends that go to one worker arrive there as they complete, with no other between them left
    out. -/
theorem Routed.filter_arrived (h : Routed hash64 n p) (horder : InOrder p completed)
    (hworker : p.workers[w]? = some worker) {chosen : Sent EventEnvelope → Bool}
    (hchosen : ∀ message ∈ completed, chosen message = true →
      workerIndex hash64 n message.envelope = w) :
    worker.arrived.filter chosen = completed.filter chosen := by
  rw [(horder.workers w worker hworker).arrived, List.filter_filter]
  refine List.filter_congr fun message hmessage => ?_
  cases hmine : chosen message with
  | false => rfl
  | true =>
    rw [h.target_eq horder hmessage, hchosen message hmessage hmine, decide_eq_true rfl]
    rfl

end Order

/-- **A chain has one worker, and it keeps the order.**  In every run of a started pool, with
    any other envelopes between those of the chain of `root`, there is one worker

    * to which every call with an envelope of the chain is routed;
    * which alone processes envelopes of the chain;
    * which processes any of them in the order in which their sends completed, and all of
      them when no processor panics and `stop` has returned. -/
theorem send_chained_inOrder {config : WorkerConfig} (hn : 1 ≤ config.numWorkers)
    {started s : HashingWorkerPool} {as : List (PoolAction EventEnvelope)}
    {completed : List (Sent EventEnvelope)} (hstart : (new config).start = some started)
    (hexec : exec hash64 started as = some (s, completed)) (root : EventEnvelope) :
    ∃ w < config.numWorkers, ∃ worker, s.pool.workers[w]? = some worker ∧
      (∀ call ∈ s.pool.calls, root.Chained call.envelope → call.worker = some w) ∧
      (∀ w' worker', s.pool.workers[w']? = some worker' →
        ∀ message ∈ worker'.processed, root.Chained message.envelope → w' = w) ∧
      ∀ chosen : Sent EventEnvelope → Bool,
        (∀ message ∈ completed, chosen message = true → root.Chained message.envelope) →
        worker.processed.filter chosen <+: completed.filter chosen ∧
        ((∀ a ∈ as, a.panics = false) → s.pool.stage = .stopped (.ok ()) →
          worker.processed.filter chosen = completed.filter chosen) := by
  have hrun := Transition.exec_of_withHistory hexec
  have horder := inOrder_of_exec hstart hexec
  have hrouted := routed_of_exec hn hstart hrun
  have hsame : ∀ e, root.Chained e → workerIndex hash64 config.numWorkers e
      = workerIndex hash64 config.numWorkers root := by
    intro e he
    rw [workerIndex_eq, workerIndex_eq, he.traceId_eq]
  have hlt : workerIndex hash64 config.numWorkers root < config.numWorkers := by
    rw [workerIndex_eq]
    exact Nat.mod_lt _ hn
  have hworker := List.getElem?_eq_getElem (hlt.trans_eq hrouted.length.symm)
  refine ⟨_, hlt, _, hworker, fun call hcall hchained => ?_,
    fun w' worker' hworker' message hmessage hchained => ?_, fun chosen hchosen => ?_⟩
  · rw [hrouted.calls call hcall, hsame _ hchained]
  · rw [← hrouted.workerIndex_processed horder hworker' hmessage, hsame _ hchained]
  · have harrived := hrouted.filter_arrived horder hworker fun message hmessage hmine =>
      hsame _ (hchosen message hmessage hmine)
    rw [← harrived]
    refine ⟨(horder.workers _ _ hworker).processed.filter chosen, fun hpanic hstopped => ?_⟩
    obtain ⟨pool, hpool, rfl⟩ := Option.map_eq_some_iff.mp hstart
    obtain ⟨bs, hbs, hhealthy⟩ := exec_pool hrun
    have hinv := WorkerPool.inv_of_exec hpool (hhealthy hpanic) hbs
    have hended := hinv.staged
    rw [hstopped] at hended
    rw [(hinv.workers _ _ hworker).processed_eq (hended _ (List.mem_of_getElem? hworker))]

/-- The eight bytes of an id from the one with index `k` on, as a little-endian word. -/
def fxWord (id : Uuid) (k : Nat) : UInt64 :=
  (List.range 8).foldr (fun j word =>
    word <<< 8 ||| UInt64.ofNat (id.extractLsb' (120 - 8 * (k + j)) 8).toNat) 0

/-- The hash of the two words of an id. -/
def fxHash64 (id : Uuid) : UInt64 :=
  [fxWord id 0, fxWord id 8].foldl
    (fun hash word => ((hash <<< 5 ||| hash >>> 59) ^^^ word) * 0x517cc1b727220a95) 0

def placed : EventEnvelope :=
  EventType.envelope ⟨1, "OrderPlaced", .ok, .ok⟩ [1] { eventId := 1, timestamp := 0 }

def paid : EventEnvelope := placed.chain ⟨2, "OrderPaid", .ok, .ok⟩ [2] 2 5

def shipped : EventEnvelope := paid.chain ⟨3, "OrderShipped", .ok, .ok⟩ [3] 3 9

/-- An event of another chain, with the worker of `placed`. -/
def refunded : EventEnvelope :=
  EventType.envelope ⟨4, "OrderRefunded", .ok, .ok⟩ [4] { eventId := 4, timestamp := 6 }

/-- The chain of `placed` across calls for `refunded`: `paid` is first at the channel, and
    `placed` has to wait for the permit of `refunded`. -/
def crossedChain : List (PoolAction EventEnvelope) :=
  [.send placed, .send refunded, .send paid, .reserve 2, .push 2, .reserve 1, .reserve 0, .recv 0,
    .push 1, .send shipped, .processed 0 (.ok ()), .recv 0, .push 0,
    .processed 0 (.error (.internal "unknown order")), .recv 0, .reserve 3, .push 3, .stop, .exit 1,
    .processed 0 (.ok ()), .recv 0, .processed 0 (.ok ()), .exit 0, .join, .join, .join]

theorem send_chained_inOrder_crossedChain :
    ∃ started s, (new ⟨2, 1⟩).start = some started ∧
      exec fxHash64 started crossedChain
        = some (s, [⟨2, paid⟩, ⟨1, refunded⟩, ⟨0, placed⟩, ⟨3, shipped⟩]) ∧
      ∃ w < 2, ∃ worker, s.pool.workers[w]? = some worker ∧
        worker.processed.filter (·.call ≠ 1) = [⟨2, paid⟩, ⟨0, placed⟩, ⟨3, shipped⟩] := by
  obtain ⟨started, s, hstart, hexec, hstage⟩ :
      ∃ started s, (new ⟨2, 1⟩).start = some started ∧
        exec fxHash64 started crossedChain
          = some (s, [⟨2, paid⟩, ⟨1, refunded⟩, ⟨0, placed⟩, ⟨3, shipped⟩]) ∧
        s.pool.stage = .stopped (.ok ()) :=
    ⟨_, _, rfl, rfl, rfl⟩
  obtain ⟨w, hw, worker, hworker, -, -, hserved⟩ :=
    send_chained_inOrder (show 1 ≤ 2 by decide) hstart hexec placed
  refine ⟨started, s, hstart, hexec, w, hw, worker, hworker, ?_⟩
  have hpaid : placed.Chained paid := .chain _ _ _ _ .root
  have hchain : ∀ message ∈ [(⟨2, paid⟩ : Sent EventEnvelope), ⟨1, refunded⟩, ⟨0, placed⟩,
      ⟨3, shipped⟩], decide (message.call ≠ 1) = true → placed.Chained message.envelope := by
    intro message hmessage hother
    rcases List.mem_cons.mp hmessage with rfl | hmessage
    · exact hpaid
    rcases List.mem_cons.mp hmessage with rfl | hmessage
    · cases hother
    rcases List.mem_cons.mp hmessage with rfl | hmessage
    · exact .root
    · rw [List.mem_singleton.mp hmessage]
      exact .chain _ _ _ _ hpaid
  have hhealthy : ∀ a ∈ crossedChain, a.panics = false := by decide
  exact (hserved _ hchain).2 hhealthy hstage

end HashingWorkerPool
end TokioEvents
