/-
  TokioEvents.Dispatcher.WorkConservation

  `WorkerPool` conserves work: when `stop` returns, what was sent has been processed.  It
  does return, and the round robin keeps the workers level.
-/

import TokioEvents.Dispatcher.PoolInvariant
import TokioEvents.Lib.RoundRobin

namespace TokioEvents
namespace WorkerPool

variable {ε : Type}

/-! ## Round robin -/

/-- The worker that a call of `send` was routed to. -/
def robin (call : SendCall ε) : Option Nat :=
  match call.via with
  | .send => call.worker
  | .sendTo => none

/-- The workers that the calls of `send` were routed to, in order. -/
def routes (s : WorkerPool ε) : List Nat := s.calls.filterMap robin

/-- The envelopes routed to a worker. -/
def routedTo (s : WorkerPool ε) (w : Nat) : Nat := s.calls.countP fun call => call.worker = some w

/-- The counter counts the calls of `send`. -/
structure Fair (n : Nat) (s : WorkerPool ε) : Prop where
  routes : s.routes = RoundRobin.picks usizeValues n s.routes.length
  next : s.nextWorker = s.routes.length % usizeValues

section Fair

variable {n : Nat} {s s' : WorkerPool ε}

/-- No call of `send` begins. -/
theorem Fair.same (h : Fair n s) (hroutes : s'.routes = s.routes)
    (hnext : s'.nextWorker = s.nextWorker) : Fair n s' :=
  ⟨by rw [hroutes]; exact h.routes, by rw [hroutes, hnext]; exact h.next⟩

theorem routes_begin (s : WorkerPool ε) (call : SendCall ε) :
    (s.begin call).routes = s.routes ++ (robin call).toList := by
  show (s.calls ++ [call]).filterMap robin = s.calls.filterMap robin ++ (robin call).toList
  rw [List.filterMap_append]
  cases hrobin : robin call with
  | none => rw [List.filterMap_cons_none hrobin, List.filterMap_nil, Option.toList_none]
  | some w => rw [List.filterMap_cons_some hrobin, List.filterMap_nil, Option.toList_some]

theorem Fair.send (h : Fair n s) (hlength : s.senders = n) (hn : 0 < n) (envelope : ε) :
    Fair n (s.send envelope) := by
  have hsome : s.senders ≠ 0 := by omega
  have hroutes : (s.send envelope).routes = s.routes ++ [s.nextWorker % n] := by
    unfold WorkerPool.send
    rw [if_neg hsome, routes_begin, hlength]
    rfl
  have hnext : (s.send envelope).nextWorker = (s.nextWorker + 1) % usizeValues := by
    unfold WorkerPool.send
    rw [if_neg hsome]
    rfl
  refine ⟨?_, ?_⟩
  · rw [hroutes, List.length_append, List.length_singleton, RoundRobin.picks_succ, ← h.routes,
      h.next]
  · rw [hroutes, List.length_append, List.length_singleton, hnext, h.next, Nat.mod_add_mod]

theorem Fair.sendTo (h : Fair n s) (workerIndex : Nat) (envelope : ε) :
    Fair n (s.sendTo workerIndex envelope) := by
  unfold WorkerPool.sendTo
  split <;> exact h.same ((routes_begin _ _).trans (List.append_nil _)) rfl

theorem Fair.atChannel {i : Nat} {phase : SendPhase}
    {next : SendCall ε → PoolWorker ε → Option (PoolWorker ε × SendPhase)} (h : Fair n s)
    (hstep : s.atChannel i phase next = some s') : Fair n s' := by
  obtain ⟨call, w, worker, r, hcall, -, -, -, -, rfl⟩ := atChannel_eq_some.mp hstep
  exact h.same (Calls.filterMap_set hcall rfl) rfl

theorem Fair.atWorker {w : Nat} {next : PoolWorker ε → Option (PoolWorker ε)} (h : Fair n s)
    (hstep : s.atWorker w next = some s') : Fair n s' := by
  obtain ⟨worker, worker', -, -, rfl⟩ := atWorker_eq_some.mp hstep
  exact h.same rfl rfl

theorem Fair.join {k : Nat} (h : Fair n s) (hstep : s.join k = some s') : Fair n s' := by
  unfold WorkerPool.join at hstep
  split at hstep
  · cases hstep
    exact h.same rfl rfl
  · split at hstep <;> cases hstep <;> exact h.same rfl rfl

theorem Fair.stepRunning {a : PoolAction ε} (h : Fair n s) (hlength : s.senders = n) (hn : 0 < n)
    (hstep : s.stepRunning a = some s') : Fair n s' := by
  cases a with
  | send envelope =>
    cases hstep
    exact h.send hlength hn envelope
  | sendTo workerIndex envelope =>
    cases hstep
    exact h.sendTo workerIndex envelope
  | reserve i => exact h.atChannel hstep
  | push i => exact h.atChannel hstep
  | refuse i => exact h.atChannel hstep
  | drop i => exact h.atChannel hstep
  | stop =>
    simp only [WorkerPool.stepRunning, WorkerPool.stop] at hstep
    split at hstep
    · cases hstep
      exact h.same rfl rfl
    · cases hstep
  | _ => cases hstep

theorem Fair.step {a : PoolAction ε} (h : Fair n s) (hn : 0 < n) (hinv : Inv n s)
    (hstep : s.step a = some s') : Fair n s' := by
  cases a with
  | recv w => exact h.atWorker hstep
  | processed w result => exact h.atWorker hstep
  | panicked w message => exact h.atWorker hstep
  | exit w => exact h.atWorker hstep
  | join =>
    simp only [WorkerPool.step] at hstep
    split at hstep
    · exact h.join hstep
    · cases hstep
  | _ =>
    simp only [WorkerPool.step] at hstep
    split at hstep
    · rename_i hrunning
      have hstaged := hinv.staged
      rw [hrunning] at hstaged
      exact h.stepRunning (hstaged.1.trans hinv.length) hn hstep
    · cases hstep

theorem fair_start {config : WorkerConfig} (h : (new config).start = some s) :
    Fair config.numWorkers s := by
  unfold start at h
  split at h
  · cases h
  · cases h
    exact ⟨rfl, rfl⟩

theorem fair_of_exec {config : WorkerConfig} (hn : 0 < config.numWorkers)
    {started : WorkerPool ε} {as : List (PoolAction ε)} (hstart : (new config).start = some started)
    (hpanic : ∀ a ∈ as, a.panics = false)
    (hexec : Transition.exec step started as = some s) : Fair config.numWorkers s := by
  have h := Transition.invariant_along (C := fun _ a => a.panics = false)
    (I := fun s : WorkerPool ε => Inv config.numWorkers s ∧ Fair config.numWorkers s)
    (fun s a s' h hC hstep => ⟨h.1.step hC hstep, h.2.step hn h.1 hstep⟩)
    ⟨inv_start hstart, fair_start hstart⟩
    (Transition.along_of_forall (fun a ha _ => hpanic a ha) started) hexec
  exact h.2

/-- With `send` alone, and before the counter wraps, no worker is two envelopes behind
    another. -/
theorem Fair.balanced (h : Fair n s) (hsend : ∀ call ∈ s.calls, call.via = .send)
    (hwrap : s.calls.length < usizeValues) {w w' : Nat} (hw : w < n) (hw' : w' < n) :
    s.routedTo w ≤ s.routedTo w' + 1 := by
  have hcount : ∀ v, s.routedTo v = s.routes.count v := fun v => by
    unfold routedTo WorkerPool.routes
    rw [List.count_filterMap]
    refine List.countP_congr fun call hcall => ?_
    unfold robin
    rw [hsend call hcall]
    simp
  have hlength : s.routes.length ≤ usizeValues :=
    (List.length_filterMap_le robin s.calls).trans (Nat.le_of_lt hwrap)
  rw [hcount, hcount, h.routes]
  exact RoundRobin.picks_balanced hlength hw hw'

end Fair

/-! ## `stop` returns -/

/-- What a worker has still to do until it ends. -/
def weight (worker : PoolWorker ε) : Nat :=
  2 * worker.channel.buffer.length +
    match worker.task with
    | .receiving => 1
    | .processing _ => 2
    | .finished | .panicked _ => 0

/-- What is still to be done until `stop` returns. -/
def remaining (s : WorkerPool ε) : Nat :=
  (s.workers.map weight).sum +
    match s.stage with
    | .joining k => s.workers.length + 1 - k
    | _ => 0

section Stop

variable {n : Nat} {s : WorkerPool ε} {worker worker' : PoolWorker ε}

theorem sum_weight_set {workers : List (PoolWorker ε)} {w : Nat}
    (hworker : workers[w]? = some worker) (hless : weight worker' < weight worker) :
    ((workers.set w worker').map weight).sum < (workers.map weight).sum := by
  induction workers generalizing w with
  | nil => cases hworker
  | cons first workers ih =>
    cases w with
    | zero =>
      obtain rfl : first = worker := Option.some.inj hworker
      rw [List.set_cons_zero, List.map_cons, List.map_cons, List.sum_cons, List.sum_cons]
      omega
    | succ w =>
      have hrest := ih hworker
      rw [List.set_cons_succ, List.map_cons, List.map_cons, List.sum_cons, List.sum_cons]
      omega

/-- A worker that has not ended and whose senders are gone has a step to take, and it brings
    the worker nearer to its end. -/
theorem exists_step_worker {w : Nat} (hworker : s.workers[w]? = some worker)
    (h : Coherent s.calls w worker) (htask : worker.task ≠ .finished) (hsenders : s.senders = 0) :
    ∃ (a : PoolAction ε) (worker' : PoolWorker ε), a.panics = false ∧
      s.step a = some (s.setWorker w worker') ∧ weight worker' < weight worker := by
  cases hcase : worker.task with
  | receiving =>
    have hweight : weight worker = 2 * worker.channel.buffer.length + 1 := by
      unfold weight
      rw [hcase]
    cases hbuffer : worker.channel.buffer with
    | nil =>
      refine ⟨.exit w, { worker with task := .finished, channel := worker.channel.dropReceiver },
        rfl, atWorker_eq_some.mpr ⟨worker, _, hworker, ?_, rfl⟩, ?_⟩
      · unfold exit
        rw [hcase]
        exact if_pos ⟨hsenders, hbuffer⟩
      · show 2 * 0 + 0 < weight worker
        omega
    | cons message rest =>
      obtain ⟨channel, hrecv, hrest⟩ := Permits.Channel.exists_recv hbuffer
      refine ⟨.recv w, { worker with channel := channel, task := .processing message },
        rfl, atWorker_eq_some.mpr ⟨worker, _, hworker, ?_, rfl⟩, ?_⟩
      · unfold recv
        rw [hcase, hrecv]
        rfl
      · show 2 * channel.buffer.length + 2 < weight worker
        rw [hweight, hbuffer, hrest, List.length_cons]
        omega
  | processing message =>
    have hweight : weight worker = 2 * worker.channel.buffer.length + 2 := by
      unfold weight
      rw [hcase]
    refine ⟨.processed w (.ok ()),
      { worker with task := .receiving, processed := worker.processed ++ [message] },
      rfl, atWorker_eq_some.mpr ⟨worker, _, hworker, ?_, rfl⟩, ?_⟩
    · unfold finishProcessing
      rw [hcase]
    · show 2 * worker.channel.buffer.length + 1 < weight worker
      omega
  | finished => exact absurd hcase htask
  | panicked text => exact absurd hcase (h.healthy text)

/-- `stop` is at a handle, or has returned `Ok`. -/
def Stopping (s : WorkerPool ε) : Prop :=
  (∃ k, s.stage = .joining k) ∨ s.stage = .stopped (.ok ())

/-- Until `stop` has returned, the worker it waits for has a step to take, or it goes on to
    the next handle. -/
theorem Inv.progress (h : Inv n s) (hstopping : s.Stopping) :
    s.stage = .stopped (.ok ()) ∨ ∃ a s', a.panics = false ∧ s.step a = some s' ∧
      s'.Stopping ∧ s'.remaining < s.remaining := by
  rcases hstopping with ⟨k, hjoining⟩ | hstopped
  · refine .inr ?_
    have hstaged := h.staged
    rw [hjoining] at hstaged
    obtain ⟨hsenders, hle, -⟩ := hstaged
    have hremaining : s.remaining = (s.workers.map weight).sum + (s.workers.length + 1 - k) := by
      unfold remaining
      rw [hjoining]
    have hjoin : s.step .join = s.join k := by
      simp only [WorkerPool.step, hjoining]
    rw [hremaining]
    cases hworker : s.workers[k]? with
    | none =>
      refine ⟨.join, { s with stage := .stopped (.ok ()) }, rfl, ?_, .inr rfl, ?_⟩
      · rw [hjoin]
        simp only [WorkerPool.join, hworker]
      · show (s.workers.map weight).sum + 0 < _
        omega
    | some worker =>
      by_cases htask : worker.task = .finished
      · refine ⟨.join, { s with stage := .joining (k + 1) }, rfl, ?_, .inl ⟨k + 1, rfl⟩, ?_⟩
        · rw [hjoin]
          simp only [WorkerPool.join, hworker, htask]
        · show (s.workers.map weight).sum + (s.workers.length + 1 - (k + 1)) < _
          omega
      · obtain ⟨a, worker', hpanic, hstep, hless⟩ :=
          exists_step_worker hworker (h.workers k worker hworker) htask hsenders
        have hsum := sum_weight_set hworker hless
        refine ⟨a, s.setWorker k worker', hpanic, hstep, .inl ⟨k, hjoining⟩, ?_⟩
        unfold remaining WorkerPool.setWorker
        rw [hjoining]
        show ((s.workers.set k worker').map weight).sum
          + ((s.workers.set k worker').length + 1 - k) < _
        rw [List.length_set]
        omega
  · exact .inl hstopped

/-- **Without a panic `stop` can always return `Ok`.** -/
theorem Inv.stop_returns (h : Inv n s) (hstopping : s.Stopping) :
    ∃ (as : List (PoolAction ε)) (s' : WorkerPool ε), (∀ a ∈ as, a.panics = false) ∧
      Transition.exec WorkerPool.step s as = some s' ∧ s'.stage = .stopped (.ok ()) := by
  refine Transition.exists_exec_of_progress (I := fun s : WorkerPool ε => Inv n s ∧ s.Stopping)
    (C := fun a : PoolAction ε => a.panics = false) remaining (fun s hs => ?_) ⟨h, hstopping⟩
  rcases hs.1.progress hs.2 with hstopped | ⟨a, s', hpanic, hstep, hnext, hless⟩
  · exact .inl hstopped
  · exact .inr ⟨a, s', hpanic, hstep, ⟨hs.1.step hpanic hstep, hnext⟩, hless⟩

end Stop

/-! ## Work is conserved -/

/-- The envelope of the call has been processed exactly once, by the worker it was routed to,
    and by no other. -/
def ProcessedOnce (s : WorkerPool ε) (i : Nat) (call : SendCall ε) : Prop :=
  ∃ w worker, call.worker = some w ∧ s.workers[w]? = some worker ∧
    ⟨i, call.envelope⟩ ∈ worker.processed ∧
    ∀ w' worker', s.workers[w']? = some worker' →
      (worker'.processed.map Sent.call).count i = if w' = w then 1 else 0

section Conserved

variable {n : Nat} {s : WorkerPool ε}

/-- A worker processes in the order of arrival. -/
theorem Inv.processed_prefix (h : Inv n s) {worker : PoolWorker ε} (hworker : worker ∈ s.workers) :
    worker.processed <+: worker.arrived := by
  obtain ⟨w, hw⟩ := List.mem_iff_getElem?.mp hworker
  rw [(h.workers w worker hw).queue, List.append_assoc]
  exact List.prefix_append _ _

/-- A worker that has ended has processed all that arrived. -/
theorem Coherent.processed_eq {calls : List (SendCall ε)} {w : Nat} {worker : PoolWorker ε}
    (h : Coherent calls w worker) (hfinished : worker.task = .finished) :
    worker.processed = worker.arrived := by
  have hqueue := h.queue
  rw [hfinished, h.drained hfinished, List.append_nil] at hqueue
  exact (hqueue.trans (List.append_nil _)).symm

/-- When every worker has ended, a call that has returned `Ok` has been served once. -/
theorem Inv.processedOnce (h : Inv n s) (hended : ∀ worker ∈ s.workers, worker.task = .finished)
    {i : Nat} {call : SendCall ε} (hcall : s.calls[i]? = some call) (hok : call.phase = .ok) :
    s.ProcessedOnce i call := by
  have hmem := List.mem_of_getElem? hcall
  obtain ⟨w, hw⟩ := h.okRouted call hmem hok
  have hlt : w < s.workers.length := (h.routed call hmem w hw).trans_eq h.length.symm
  have hworker := List.getElem?_eq_getElem hlt
  have hprocessed : ∀ (w' : Nat) (worker' : PoolWorker ε), s.workers[w']? = some worker' →
      worker'.processed = worker'.arrived := fun w' worker' hw' =>
    (h.workers w' worker' hw').processed_eq (hended worker' (List.mem_of_getElem? hw'))
  refine ⟨w, _, hw, hworker, ?_, fun w' worker' hw' => ?_⟩
  · rw [hprocessed w _ hworker]
    exact ((h.workers w _ hworker).arrived _).mpr ⟨call, hcall, hw, rfl, hok⟩
  · have hcoherent := h.workers w' worker' hw'
    rw [hprocessed w' worker' hw']
    split
    · rename_i hsame
      subst hsame
      have harrived : ⟨i, call.envelope⟩ ∈ worker'.arrived :=
        (hcoherent.arrived _).mpr ⟨call, hcall, hw, rfl, hok⟩
      exact List.count_eq_one_of_mem hcoherent.once (List.mem_map.mpr ⟨_, harrived, rfl⟩)
    · rename_i hother
      refine List.count_eq_zero.mpr fun hin => ?_
      obtain ⟨message, hmessage, rfl⟩ := List.mem_map.mp hin
      obtain ⟨c, hc, hwc, -, -⟩ := (hcoherent.arrived message).mp hmessage
      obtain rfl := Option.some.inj (hcall.symm.trans hc)
      exact hother (Option.some.inj (hwc.symm.trans hw))

/-- And when every call has returned `Ok`, a worker has processed all that was routed to it. -/
theorem Inv.length_processed (h : Inv n s)
    (hended : ∀ worker ∈ s.workers, worker.task = .finished)
    (hok : ∀ call ∈ s.calls, call.phase = .ok) {w : Nat} {worker : PoolWorker ε}
    (hworker : s.workers[w]? = some worker) : worker.processed.length = s.routedTo w := by
  have hcoherent := h.workers w worker hworker
  rw [hcoherent.processed_eq (hended worker (List.mem_of_getElem? hworker)),
    ← List.length_map (f := Sent.call)]
  refine Calls.length_eq_countP hcoherent.once fun i => ?_
  rw [List.mem_map]
  constructor
  · rintro ⟨message, hmessage, rfl⟩
    obtain ⟨call, hcall, hw, -, -⟩ := (hcoherent.arrived message).mp hmessage
    exact ⟨call, hcall, decide_eq_true hw⟩
  · rintro ⟨call, hcall, hw⟩
    refine ⟨⟨i, call.envelope⟩, (hcoherent.arrived _).mpr ?_, rfl⟩
    exact ⟨call, hcall, of_decide_eq_true hw, rfl, hok call (List.mem_of_getElem? hcall)⟩

end Conserved

/-- **The pool conserves work.**  In a run of a started pool, without a panic and with the
    calls and the workers in any order:

    * a worker processes in the order of arrival;
    * no call fails once it is routed;
    * `stop` does not fail, and when it has returned, the envelope of every call that has
      returned `Ok` has been processed exactly once;
    * with `send` alone, before the counter wraps, no worker has had two envelopes fewer
      routed to it than another. -/
theorem send_processedOnce {config : WorkerConfig} (hn : 1 ≤ config.numWorkers)
    {started s : WorkerPool ε} {as : List (PoolAction ε)}
    (hstart : (new config).start = some started) (hpanic : ∀ a ∈ as, a.panics = false)
    (hexec : Transition.exec step started as = some s) :
    (∀ worker ∈ s.workers, worker.processed <+: worker.arrived) ∧
    (∀ call ∈ s.calls, ∀ e, call.phase = .error e → call.worker = none) ∧
    (∀ e, s.stage ≠ .stopped (.error e)) ∧
    (s.stage = .stopped (.ok ()) →
      (∀ i call, s.calls[i]? = some call → call.phase = .ok → s.ProcessedOnce i call) ∧
      (∀ worker ∈ s.workers, worker.processed = worker.arrived) ∧
      ((∀ call ∈ s.calls, call.phase = .ok) → ∀ w worker, s.workers[w]? = some worker →
        worker.processed.length = s.routedTo w)) ∧
    ((∀ call ∈ s.calls, call.via = .send) → s.calls.length < 2 ^ 64 →
      ∀ w < config.numWorkers, ∀ w' < config.numWorkers, s.routedTo w ≤ s.routedTo w' + 1) := by
  have h := inv_of_exec hstart hpanic hexec
  have hfair := fair_of_exec hn hstart hpanic hexec
  refine ⟨fun worker hworker => h.processed_prefix hworker, h.errors, fun e hstopped => ?_,
    fun hstopped => ?_, fun hsend hwrap w hw w' hw' => hfair.balanced hsend hwrap hw hw'⟩
  · have hstaged := h.staged
    rw [hstopped] at hstaged
    exact hstaged
  · have hended := h.staged
    rw [hstopped] at hended
    refine ⟨fun i call hcall hok => h.processedOnce hended hcall hok, fun worker hworker => ?_,
      fun hok w worker hworker => h.length_processed hended hok hworker⟩
    obtain ⟨w, hw⟩ := List.mem_iff_getElem?.mp hworker
    exact (h.workers w worker hw).processed_eq (hended worker hworker)

/-- Two workers with room for one message each, and three calls of `send`: the third is the
    first at the channel of worker 0, where the first then has to wait. -/
def crossedSends : List (PoolAction String) :=
  [.send "created", .send "paid", .send "shipped", .reserve 2, .push 2, .reserve 0, .reserve 1,
    .recv 0, .push 1, .push 0, .recv 1, .processed 0 (.error (.internal "unknown order")), .stop,
    .processed 1 (.ok ()), .recv 0, .exit 1, .processed 0 (.ok ()), .exit 0, .join, .join, .join]

theorem send_processedOnce_crossedSends :
    ∃ started s : WorkerPool String, (new ⟨2, 1⟩).start = some started ∧
      Transition.exec step started crossedSends = some s ∧ s.stage = .stopped (.ok ()) ∧
      (∀ i call, s.calls[i]? = some call → call.phase = .ok → s.ProcessedOnce i call) ∧
      s.routedTo 0 ≤ s.routedTo 1 + 1 := by
  obtain ⟨started, s, hstart, hexec, hstage, hsend, hwrap⟩ :
      ∃ started s : WorkerPool String, (new ⟨2, 1⟩).start = some started ∧
        Transition.exec step started crossedSends = some s ∧ s.stage = .stopped (.ok ()) ∧
        (s.calls.all fun call => call.via = .send) = true ∧ s.calls.length = 3 :=
    ⟨_, _, rfl, rfl, rfl, rfl, rfl⟩
  obtain ⟨-, -, -, hserved, hlevel⟩ := send_processedOnce (show 1 ≤ 2 by decide) hstart
    (show ∀ a ∈ crossedSends, a.panics = false by decide) hexec
  refine ⟨started, s, hstart, hexec, hstage, (hserved hstage).1, ?_⟩
  refine hlevel (fun call hcall => ?_) (by omega) 0 (by decide) 1 (by decide)
  exact of_decide_eq_true (List.all_eq_true.mp hsend call hcall)

end WorkerPool
end TokioEvents
