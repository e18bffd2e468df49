/-
  TokioEvents.Dispatcher.PoolProgress

  Nobody hangs at a worker pool.  The calls on their way, the workers and `stop` cannot go
  on for ever by themselves, and where they come to rest every call of `send` and `send_to`
  has returned, the workers that have not panicked are idle, and a `stop` that was called
  has returned.  Processors may panic and callers may give up at any time before.

  What carries it is the line at each channel: it holds exactly the calls that are in
  `Sender::send`, and nobody waits there for a permit that is free.
-/

import TokioEvents.Dispatcher.WorkConservation
import TokioEvents.Lib.Settling
import TokioEvents.Lib.Weight

namespace TokioEvents

/-- The step is asked for from outside: a call, a caller that gives up, a panic, or `stop`. -/
def PoolAction.asked {ε : Type} : PoolAction ε → Bool
  | .send _ => true
  | .sendTo _ _ => true
  | .drop _ => true
  | .panicked _ _ => true
  | .stop => true
  | _ => false

/-- What has arrived is processed, in the worker's hands, or in the channel. -/
def PoolWorker.Conserved {ε : Type} (worker : PoolWorker ε) : Prop :=
  worker.arrived = worker.processed ++ worker.task.current ++ worker.channel.buffer

namespace WorkerPool

variable {ε : Type}

/-! ## The line at a channel -/

/-- The call is in `Sender::send` at this worker. -/
def SendsTo (calls : List (SendCall ε)) (w i : Nat) : Prop :=
  ∃ call, calls[i]? = some call ∧ call.worker = some w ∧ call.phase = .sending

/-- The line of a worker's channel. -/
structure Queued (calls : List (SendCall ε)) (w : Nat) (worker : PoolWorker ε) : Prop where
  senders : ∀ i, i ∈ worker.channel.senders ↔ SendsTo calls w i
  once : worker.channel.senders.Nodup
  tight : worker.channel.Tight
  capacity : 0 < worker.channel.capacity
  /-- A task that has ended has dropped the receiver. -/
  alive : worker.channel.receiver = true →
    worker.task = .receiving ∨ ∃ message, worker.task = .processing message
  /-- A panic loses what is in the channel; nothing else does. -/
  conserved : (∀ text, worker.task ≠ .panicked text) → worker.Conserved
  /-- A task that has returned has left nothing, and nobody, in its channel. -/
  drained : worker.task = .finished → worker.channel.buffer = [] ∧ worker.channel.senders = []

section Queued

variable {calls : List (SendCall ε)} {w i : Nat} {call : SendCall ε} {phase : SendPhase}
  {worker worker' : PoolWorker ε}

theorem sendsTo_begin {j : Nat} (hphase : call.phase ≠ .sending) :
    SendsTo (calls ++ [call]) w j ↔ SendsTo calls w j := by
  unfold SendsTo
  refine exists_congr fun c => ⟨?_, ?_⟩
  · rintro ⟨hc, hw, hsending⟩
    rcases Nat.lt_trichotomy j calls.length with hlt | rfl | hgt
    · rw [List.getElem?_append_left hlt] at hc
      exact ⟨hc, hw, hsending⟩
    · rw [List.getElem?_concat_length] at hc
      cases hc
      exact absurd hsending hphase
    · rw [List.getElem?_eq_none (by simp; omega)] at hc
      cases hc
  · rintro ⟨hc, hw, hsending⟩
    have hlt := (List.getElem?_eq_some_iff.mp hc).1
    exact ⟨(List.getElem?_append_left hlt).trans hc, hw, hsending⟩

/-- A call goes on to a phase. -/
theorem sendsTo_setPhase {j : Nat} (hcall : calls[i]? = some call) :
    SendsTo (calls.set i { call with phase := phase }) w j ↔
      if j = i then call.worker = some w ∧ phase = .sending else SendsTo calls w j := by
  have hlt := (List.getElem?_eq_some_iff.mp hcall).1
  unfold SendsTo
  split
  · rename_i heq
    subst heq
    rw [List.getElem?_set_self hlt]
    simp
  · rename_i hne
    rw [List.getElem?_set_ne (Ne.symm hne)]

/-- The other calls go on. -/
theorem Queued.frame {calls' : List (SendCall ε)} (h : Queued calls w worker)
    (hsends : ∀ j, SendsTo calls' w j ↔ SendsTo calls w j) : Queued calls' w worker :=
  ⟨fun j => (h.senders j).trans (hsends j).symm, h.once, h.tight, h.capacity, h.alive,
    h.conserved, h.drained⟩

/-- A call at another worker goes on. -/
theorem Queued.other {target : Nat} (h : Queued calls w worker) (hcall : calls[i]? = some call)
    (hw : call.worker = some target) (hne : w ≠ target) :
    Queued (calls.set i { call with phase := phase }) w worker := by
  refine h.frame fun j => (sendsTo_setPhase hcall).trans ?_
  split
  · rename_i heq
    subst heq
    refine ⟨fun hown => ?_, fun ⟨c, hc, hcw, _⟩ => ?_⟩
    · exact absurd (Option.some.inj (hown.1.symm.trans hw)) hne
    · cases hcall.symm.trans hc
      exact absurd (Option.some.inj (hcw.symm.trans hw)) hne
  · exact Iff.rfl

/-- A call joins the line. -/
theorem Queued.join {channel : Permits.Channel Nat (Sent ε)} (h : Queued calls w worker)
    (hcall : calls[i]? = some call) (hw : call.worker = some w) (hphase : call.phase = .routed)
    (hopen : worker.channel.receiver = true)
    (hsenders : channel.senders.Perm (i :: worker.channel.senders)) (htight : channel.Tight)
    (hbuffer : channel.buffer = worker.channel.buffer)
    (hcapacity : channel.capacity = worker.channel.capacity) :
    Queued (calls.set i { call with phase := .sending }) w { worker with channel := channel } where
  senders j := by
    rw [hsenders.mem_iff, List.mem_cons, h.senders, sendsTo_setPhase hcall]
    split
    · rename_i heq
      simp [heq, hw]
    · rename_i hne
      simp [hne]
  once := by
    rw [hsenders.nodup_iff, List.nodup_cons]
    refine ⟨fun hmem => ?_, h.once⟩
    -- a call that is only routed is in no line
    obtain ⟨c, hc, -, hsending⟩ := (h.senders i).mp hmem
    cases hcall.symm.trans hc
    cases hphase.symm.trans hsending
  tight := htight
  capacity := hcapacity ▸ h.capacity
  alive _ := h.alive hopen
  conserved hhealthy := (h.conserved hhealthy).trans (by rw [hbuffer])
  drained hfinished := by
    -- the task has not ended: the receiver is there
    rcases h.alive hopen with htask | ⟨message, htask⟩
    · cases htask.symm.trans hfinished
    · cases htask.symm.trans hfinished

/-- A call leaves it. -/
theorem Queued.leave (h : Queued calls w worker) (hcall : calls[i]? = some call)
    (hsenders : worker.channel.senders.Perm (i :: worker'.channel.senders))
    (htight : worker'.channel.Tight)
    (hcapacity : worker'.channel.capacity = worker.channel.capacity)
    (hreceiver : worker'.channel.receiver = worker.channel.receiver)
    (htask : worker'.task = worker.task) (hconserved : worker.Conserved → worker'.Conserved)
    (hphase : phase ≠ .sending) :
    Queued (calls.set i { call with phase := phase }) w worker' where
  senders j := by
    have hnodup := hsenders.nodup_iff.mp h.once
    have hmem := hsenders.mem_iff (a := j)
    rw [h.senders, List.mem_cons] at hmem
    rw [sendsTo_setPhase hcall]
    split
    · rename_i heq
      subst heq
      simp [hphase, (List.nodup_cons.mp hnodup).1]
    · rename_i hne
      rw [hmem]
      simp [hne]
  once := (List.nodup_cons.mp (hsenders.nodup_iff.mp h.once)).2
  tight := htight
  capacity := hcapacity ▸ h.capacity
  alive hopen := htask ▸ h.alive (hreceiver ▸ hopen)
  conserved hhealthy := hconserved (h.conserved (htask ▸ hhealthy))
  drained hfinished := by
    -- nobody was in the line of a task that has returned
    have hnone := (h.drained (htask ▸ hfinished)).2
    rw [hnone] at hsenders
    exact absurd hsenders.length_eq nofun

/-- A worker goes on, and the line stays. -/
theorem Queued.goes (h : Queued calls w worker)
    (hsenders : worker'.channel.senders = worker.channel.senders)
    (htight : worker'.channel.Tight)
    (hcapacity : worker'.channel.capacity = worker.channel.capacity)
    (halive : worker'.channel.receiver = true →
      worker'.task = .receiving ∨ ∃ message, worker'.task = .processing message)
    (hconserved : (∀ text, worker'.task ≠ .panicked text) → worker'.Conserved)
    (hdrained : worker'.task = .finished →
      worker'.channel.buffer = [] ∧ worker'.channel.senders = []) :
    Queued calls w worker' :=
  ⟨fun j => hsenders ▸ h.senders j, hsenders ▸ h.once, htight, hcapacity ▸ h.capacity, halive,
    hconserved, hdrained⟩

theorem Queued.recv (h : Queued calls w worker) (hstep : recv worker = some worker') :
    Queued calls w worker' := by
  have hgoes := goes_recv 0 hstep
  unfold WorkerPool.recv at hstep
  split at hstep
  · rename_i htask
    obtain ⟨⟨message, channel⟩, hrecv, rfl⟩ := Option.map_eq_some_iff.mp hstep
    exact h.goes (Permits.Channel.senders_recv hrecv) (h.tight.recv hrecv)
      (Permits.Channel.capacity_recv hrecv) (fun _ => .inr ⟨message, rfl⟩)
      (fun _ => queue_goes hgoes (h.conserved (by rw [htask]; nofun))) nofun
  · cases hstep

theorem Queued.finishProcessing {result : Except Error Unit} (h : Queued calls w worker)
    (hstep : finishProcessing result worker = some worker') : Queued calls w worker' := by
  have hgoes := goes_finishProcessing 0 hstep
  unfold WorkerPool.finishProcessing at hstep
  split at hstep
  · rename_i message htask
    cases hstep
    exact h.goes rfl h.tight rfl (fun _ => .inl rfl)
      (fun _ => queue_goes hgoes (h.conserved (by rw [htask]; nofun))) nofun
  · cases hstep

theorem Queued.panic {text : String} (h : Queued calls w worker)
    (hstep : panic text worker = some worker') : Queued calls w worker' := by
  unfold WorkerPool.panic at hstep
  split at hstep
  · cases hstep
    exact h.goes rfl (Permits.Channel.tight_dropReceiver _) rfl nofun
      (fun hhealthy => absurd rfl (hhealthy text)) nofun
  · cases hstep

/-- A task returns when the senders are gone, and there are no calls then. -/
theorem Queued.exit {senders : Nat} (h : Queued calls w worker)
    (hover : senders = 0 → ∀ call ∈ calls, call.phase.Over)
    (hstep : exit senders worker = some worker') : Queued calls w worker' := by
  have hgoes := goes_exit hstep
  unfold WorkerPool.exit at hstep
  split at hstep
  · rename_i htask
    split at hstep
    · rename_i hempty
      cases hstep
      refine h.goes rfl (Permits.Channel.tight_dropReceiver _) rfl nofun
        (fun _ => queue_goes hgoes (h.conserved (by rw [htask]; nofun))) fun _ => ⟨rfl, ?_⟩
      refine List.eq_nil_iff_forall_not_mem.mpr fun i hi => ?_
      obtain ⟨call, hcall, -, hsending⟩ := (h.senders i).mp hi
      have hphase := hover hempty.1 call (List.mem_of_getElem? hcall)
      rw [hsending] at hphase
      exact hphase
    · cases hstep
  · cases hstep

end Queued

/-! ## The pool -/

/-- What is left of the senders and the calls at a stage. -/
def Phased (s : WorkerPool ε) : PoolStage → Prop
  | .running => s.senders = s.workers.length
  | .joining k => s.senders = 0 ∧ k ≤ s.workers.length ∧ ∀ call ∈ s.calls, call.phase.Over
  | .stopped _ => s.senders = 0 ∧ ∀ call ∈ s.calls, call.phase.Over

/-- A pool in any run, panics included. -/
structure Lively (s : WorkerPool ε) : Prop where
  routed : ∀ call ∈ s.calls, ¬ call.phase.Over → ∃ w < s.workers.length, call.worker = some w
  workers : ∀ w worker, s.workers[w]? = some worker → Queued s.calls w worker
  phased : s.Phased s.stage

section Lively

variable {s s' : WorkerPool ε}

theorem lively_start {config : WorkerConfig} (h : (new config).start = some s) : s.Lively := by
  unfold start at h
  split at h
  · cases h
  · rename_i hconfig
    cases h
    refine ⟨nofun, fun w worker hworker => ?_, ?_⟩
    · obtain ⟨hpos, rfl⟩ := List.mem_replicate.mp (List.mem_of_getElem? hworker)
      refine ⟨fun i => ⟨nofun, ?_⟩, List.nodup_nil, Permits.Channel.tight_new _, ?_,
        fun _ => .inl rfl, fun _ => rfl, nofun⟩
      · rintro ⟨call, hcall, -⟩
        cases hcall
      · have hn : 0 < config.numWorkers := Nat.pos_of_ne_zero hpos
        have hsize : ¬ config.queueSize = 0 := fun hzero => hconfig ⟨hn, .inl hzero⟩
        exact Nat.pos_of_ne_zero hsize
    · show 0 + config.numWorkers = (List.replicate config.numWorkers _).length
      rw [List.length_replicate, Nat.zero_add]

/-- Without senders there are no calls. -/
theorem Lively.over_of_senders (h : s.Lively) (hzero : s.senders = 0) :
    ∀ call ∈ s.calls, call.phase.Over := by
  have hphased := h.phased
  cases hstage : s.stage with
  | running =>
    rw [hstage] at hphased
    intro call hcall
    by_contra hover
    obtain ⟨w, hw, -⟩ := h.routed call hcall hover
    rw [← show s.senders = s.workers.length from hphased, hzero] at hw
    exact absurd hw (Nat.not_lt_zero w)
  | joining k =>
    rw [hstage] at hphased
    exact hphased.2.2
  | stopped result =>
    rw [hstage] at hphased
    exact hphased.2

/-- A call begins, routed to a worker or over. -/
theorem Lively.begin (h : s.Lively) {call : SendCall ε} (hrunning : s.stage = .running)
    (hphase : call.phase ≠ .sending)
    (hrouted : ¬ call.phase.Over → ∃ w < s.workers.length, call.worker = some w) :
    (s.begin call).Lively where
  routed c hc hover := by
    rcases List.mem_append.mp hc with hold | hnew
    · exact h.routed c hold hover
    · cases List.mem_singleton.mp hnew
      exact hrouted hover
  workers w worker hworker :=
    (h.workers w worker hworker).frame fun _ => sendsTo_begin hphase
  phased := by
    have hphased := h.phased
    rw [hrunning] at hphased
    show (s.begin call).Phased s.stage
    rw [hrunning]
    exact hphased

/-- A call takes a step at its worker's channel. -/
theorem Lively.setCall (h : s.Lively) {i w : Nat} {call : SendCall ε} {phase : SendPhase}
    {worker worker' : PoolWorker ε} (hrunning : s.stage = .running)
    (hcall : s.calls[i]? = some call) (hw : call.worker = some w)
    (hworker : s.workers[w]? = some worker)
    (hqueued : Queued (s.calls.set i { call with phase := phase }) w worker') :
    ((s.setWorker w worker').setCall i { call with phase := phase }).Lively where
  routed c hc hover := by
    show ∃ target < (s.workers.set w worker').length, c.worker = some target
    rw [List.length_set]
    rcases List.mem_or_eq_of_mem_set hc with hold | rfl
    · exact h.routed c hold hover
    · exact ⟨w, (List.getElem?_eq_some_iff.mp hworker).1, hw⟩
  workers w' x hx := by
    have hlt := (List.getElem?_eq_some_iff.mp hworker).1
    by_cases heq : w' = w
    · subst heq
      have hset : (s.workers.set w' worker')[w']? = some x := hx
      rw [List.getElem?_set_self hlt] at hset
      cases hset
      exact hqueued
    · have hset : (s.workers.set w worker')[w']? = some x := hx
      rw [List.getElem?_set_ne (Ne.symm heq)] at hset
      exact (h.workers w' x hset).other hcall hw heq
  phased := by
    have hphased := h.phased
    rw [hrunning] at hphased
    show ((s.setWorker w worker').setCall i _).Phased s.stage
    rw [hrunning]
    exact hphased.trans List.length_set.symm

/-- A worker takes a step. -/
theorem Lively.atWorker (h : s.Lively) {w : Nat} {next : PoolWorker ε → Option (PoolWorker ε)}
    (hnext : ∀ worker worker', Queued s.calls w worker → next worker = some worker' →
      Queued s.calls w worker') (hstep : s.atWorker w next = some s') : s'.Lively := by
  obtain ⟨worker, worker', hworker, hgoes, rfl⟩ := atWorker_eq_some.mp hstep
  have hlt := (List.getElem?_eq_some_iff.mp hworker).1
  have hlength : (s.setWorker w worker').workers.length = s.workers.length := List.length_set
  refine ⟨fun call hcall hover => hlength ▸ h.routed call hcall hover, fun w' x hx => ?_, ?_⟩
  · by_cases heq : w' = w
    · subst heq
      have hset : (s.workers.set w' worker')[w']? = some x := hx
      rw [List.getElem?_set_self hlt] at hset
      cases hset
      exact hnext worker worker' (h.workers w' worker hworker) hgoes
    · have hset : (s.workers.set w worker')[w']? = some x := hx
      rw [List.getElem?_set_ne (Ne.symm heq)] at hset
      exact h.workers w' x hset
  · have hphased := h.phased
    show (s.setWorker w worker').Phased s.stage
    cases hstage : s.stage with
    | running =>
      rw [hstage] at hphased
      exact hphased.trans hlength.symm
    | joining k =>
      rw [hstage] at hphased
      exact ⟨hphased.1, hlength.symm ▸ hphased.2.1, hphased.2.2⟩
    | stopped result =>
      rw [hstage] at hphased
      exact hphased

theorem Lively.reserve {i : Nat} (h : s.Lively) (hrunning : s.stage = .running)
    (hstep : s.reserve i = some s') : s'.Lively := by
  obtain ⟨call, w, worker, r, hcall, hw, hworker, hphase, hr, rfl⟩ := atChannel_eq_some.mp hstep
  have hqueued := h.workers w worker hworker
  split at hr
  · rename_i hopen
    cases hr
    refine h.setCall hrunning hcall hw hworker ?_
    exact hqueued.join hcall hw hphase hopen (Permits.Channel.senders_reserve _ _ _)
      (hqueued.tight.reserve _ _) (Permits.Channel.buffer_reserve _ _ _)
      (Permits.Channel.capacity_reserve _ _ _)
  · cases hr
    refine h.setCall hrunning hcall hw hworker (hqueued.frame fun j => ?_)
    rw [sendsTo_setPhase hcall]
    split
    · rename_i heq
      subst heq
      refine ⟨fun hown => (nomatch hown.2), fun ⟨c, hc, _, hsending⟩ => ?_⟩
      cases hcall.symm.trans hc
      cases hphase.symm.trans hsending
    · exact Iff.rfl

theorem Lively.push {i : Nat} (h : s.Lively) (hrunning : s.stage = .running)
    (hstep : s.push i = some s') : s'.Lively := by
  obtain ⟨call, w, worker, r, hcall, hw, hworker, hphase, hr, rfl⟩ := atChannel_eq_some.mp hstep
  obtain ⟨⟨message, channel⟩, hcomplete, rfl⟩ := Option.map_eq_some_iff.mp hr
  have hqueued := h.workers w worker hworker
  obtain ⟨-, hbuffer, -, hreceiver⟩ := Permits.Channel.complete_eq_some hcomplete
  refine h.setCall hrunning hcall hw hworker ?_
  refine hqueued.leave hcall (Permits.Channel.senders_complete hcomplete)
    (hqueued.tight.complete hcomplete) (Permits.Channel.capacity_complete hcomplete) hreceiver rfl
    (fun hconserved => ?_) nofun
  show worker.arrived ++ [message] = worker.processed ++ worker.task.current ++ channel.buffer
  rw [hbuffer, hconserved, List.append_assoc (worker.processed ++ worker.task.current)]

/-- A call gives up its place, and returns or is dropped. -/
theorem Lively.abandon {i w : Nat} {call : SendCall ε} {phase : SendPhase}
    {worker : PoolWorker ε} (h : s.Lively) (hrunning : s.stage = .running)
    (hcall : s.calls[i]? = some call) (hw : call.worker = some w)
    (hworker : s.workers[w]? = some worker) (hsending : call.phase = .sending)
    (hphase : phase ≠ .sending) :
    ((s.setWorker w { worker with channel := worker.channel.abandon i }).setCall i
      { call with phase := phase }).Lively := by
  have hqueued := h.workers w worker hworker
  have hmem : i ∈ worker.channel.senders := (hqueued.senders i).mpr ⟨call, hcall, hw, hsending⟩
  refine h.setCall hrunning hcall hw hworker ?_
  exact hqueued.leave hcall (Permits.Channel.senders_abandon hmem) (hqueued.tight.abandon i)
    (Permits.Channel.capacity_abandon _ _) (Permits.Channel.receiver_abandon _ _) rfl
    (fun hconserved => hconserved.trans (by rw [← Permits.Channel.buffer_abandon worker.channel i]))
    hphase

theorem Lively.stepRunning {a : PoolAction ε} (h : s.Lively) (hrunning : s.stage = .running)
    (hstep : s.stepRunning a = some s') : s'.Lively := by
  have hsenders : s.senders = s.workers.length := by
    have hphased := h.phased
    rw [hrunning] at hphased
    exact hphased
  cases a with
  | send envelope =>
    cases hstep
    unfold WorkerPool.send
    split
    · exact h.begin hrunning nofun fun hover => absurd trivial hover
    · rename_i hpos
      have hlt : s.nextWorker % s.senders < s.workers.length := by
        rw [← hsenders]
        exact Nat.mod_lt _ (Nat.pos_of_ne_zero hpos)
      have hcounted : Lively { s with nextWorker := (s.nextWorker + 1) % usizeValues } :=
        ⟨h.routed, h.workers, h.phased⟩
      exact hcounted.begin hrunning nofun fun _ => ⟨_, hlt, rfl⟩
  | sendTo workerIndex envelope =>
    cases hstep
    unfold WorkerPool.sendTo
    split
    · exact h.begin hrunning nofun fun hover => absurd trivial hover
    · rename_i hlt
      refine h.begin hrunning nofun fun _ => ⟨workerIndex, ?_, rfl⟩
      rw [← hsenders]
      exact Nat.lt_of_not_le hlt
  | reserve i => exact h.reserve hrunning hstep
  | push i => exact h.push hrunning hstep
  | refuse i =>
    obtain ⟨call, w, worker, r, hcall, hw, hworker, hphase, hr, rfl⟩ := atChannel_eq_some.mp hstep
    split at hr
    · cases hr
    · cases hr
      exact h.abandon hrunning hcall hw hworker hphase nofun
  | drop i =>
    obtain ⟨call, w, worker, r, hcall, hw, hworker, hphase, hr, rfl⟩ := atChannel_eq_some.mp hstep
    cases hr
    exact h.abandon hrunning hcall hw hworker hphase nofun
  | stop =>
    simp only [WorkerPool.stepRunning, WorkerPool.stop] at hstep
    split at hstep
    · rename_i hover
      cases hstep
      exact ⟨h.routed, h.workers, rfl, Nat.zero_le _, hover⟩
    · cases hstep
  | _ => cases hstep

theorem Lively.join {k : Nat} (h : s.Lively) (hjoining : s.stage = .joining k)
    (hstep : s.join k = some s') : s'.Lively := by
  have hphased := h.phased
  rw [hjoining] at hphased
  obtain ⟨hzero, -, hover⟩ := hphased
  unfold WorkerPool.join at hstep
  split at hstep
  · cases hstep
    exact ⟨h.routed, h.workers, hzero, hover⟩
  · rename_i worker hworker
    split at hstep <;> cases hstep
    · exact ⟨h.routed, h.workers, hzero, (List.getElem?_eq_some_iff.mp hworker).1, hover⟩
    · exact ⟨h.routed, h.workers, hzero, hover⟩

/-- **Every step**, panics and callers that give up included. -/
theorem Lively.step {a : PoolAction ε} (h : s.Lively) (hstep : s.step a = some s') :
    s'.Lively := by
  cases a with
  | recv w => exact h.atWorker (fun _ _ hqueued => hqueued.recv) hstep
  | processed w result => exact h.atWorker (fun _ _ hqueued => hqueued.finishProcessing) hstep
  | panicked w message => exact h.atWorker (fun _ _ hqueued => hqueued.panic) hstep
  | exit w => exact h.atWorker (fun _ _ hqueued => hqueued.exit h.over_of_senders) hstep
  | join =>
    simp only [WorkerPool.step] at hstep
    split at hstep
    · rename_i k hjoining
      exact h.join hjoining hstep
    · cases hstep
  | _ =>
    simp only [WorkerPool.step] at hstep
    split at hstep
    · rename_i hrunning
      exact h.stepRunning hrunning hstep
    · cases hstep

end Lively

/-! ## The measure -/

/-- The steps a call can still cause. -/
def callWork (call : SendCall ε) : Nat :=
  match call.phase with
  | .routed => 4
  | .sending => 3
  | _ => 0

/-- The steps of `stop`. -/
def stageWork (workers : Nat) : PoolStage → Nat
  | .joining k => workers + 2 - k
  | _ => 0

/-- All that is left to do. -/
def work (s : WorkerPool ε) : Nat :=
  (s.calls.map callWork).sum + (s.workers.map weight).sum + stageWork s.workers.length s.stage

section Work

variable {s s' : WorkerPool ε}

/-- A worker gets nearer to its end. -/
theorem work_atWorker {w : Nat} {next : PoolWorker ε → Option (PoolWorker ε)}
    (hless : ∀ worker worker', next worker = some worker' → weight worker' < weight worker)
    (hstep : s.atWorker w next = some s') : s'.work < s.work := by
  obtain ⟨worker, worker', hworker, hgoes, rfl⟩ := atWorker_eq_some.mp hstep
  have hsum := sum_weight_set hworker (hless worker worker' hgoes)
  simp only [work, WorkerPool.setWorker, List.length_set]
  omega

/-- A call gets nearer to its return. -/
theorem work_atChannel {i : Nat} {phase : SendPhase}
    {next : SendCall ε → PoolWorker ε → Option (PoolWorker ε × SendPhase)}
    (hless : ∀ call worker r, call.phase = phase → next call worker = some r →
      callWork { call with phase := r.2 } + weight r.1 < callWork call + weight worker)
    (hstep : s.atChannel i phase next = some s') : s'.work < s.work := by
  obtain ⟨call, w, worker, r, hcall, -, hworker, hphase, hr, rfl⟩ := atChannel_eq_some.mp hstep
  have hlt := hless call worker r hphase hr
  have hcalls := Weight.sum_set callWork { call with phase := r.2 } hcall
  have hworkers := Weight.sum_set weight r.1 hworker
  simp only [work, WorkerPool.setWorker, WorkerPool.setCall, List.length_set]
  omega

/-- **Every step that nobody asks for leaves less to do.** -/
theorem work_lt {a : PoolAction ε} (h : s.Lively) (hasked : a.asked = false)
    (hstep : s.step a = some s') : s'.work < s.work := by
  cases a with
  | recv w =>
    refine work_atWorker (fun worker worker' hnext => ?_) hstep
    unfold recv at hnext
    split at hnext
    · rename_i htask
      obtain ⟨⟨message, channel⟩, hrecv, rfl⟩ := Option.map_eq_some_iff.mp hnext
      have hbuffer := (Permits.Channel.recv_eq_some hrecv).1
      simp only [weight, htask, hbuffer, List.length_cons]
      omega
    · cases hnext
  | processed w result =>
    refine work_atWorker (fun worker worker' hnext => ?_) hstep
    unfold finishProcessing at hnext
    split at hnext
    · rename_i message htask
      cases hnext
      simp only [weight, htask]
      omega
    · cases hnext
  | exit w =>
    refine work_atWorker (fun worker worker' hnext => ?_) hstep
    unfold exit at hnext
    split at hnext
    · rename_i htask
      split at hnext
      · cases hnext
        simp only [weight, htask, Permits.Channel.dropReceiver, List.length_nil]
        omega
      · cases hnext
    · cases hnext
  | reserve i =>
    simp only [WorkerPool.step] at hstep
    split at hstep
    · refine work_atChannel (fun call worker r hphase hnext => ?_) hstep
      split at hnext <;> cases hnext
      · simp only [callWork, hphase, weight, Permits.Channel.buffer_reserve]
        omega
      · simp only [callWork, hphase]
        omega
    · cases hstep
  | push i =>
    simp only [WorkerPool.step] at hstep
    split at hstep
    · refine work_atChannel (fun call worker r hphase hnext => ?_) hstep
      obtain ⟨⟨message, channel⟩, hcomplete, rfl⟩ := Option.map_eq_some_iff.mp hnext
      have hbuffer := (Permits.Channel.complete_eq_some hcomplete).2.1
      simp only [callWork, hphase, weight, hbuffer, List.length_append, List.length_singleton]
      omega
    · cases hstep
  | refuse i =>
    simp only [WorkerPool.step] at hstep
    split at hstep
    · refine work_atChannel (fun call worker r hphase hnext => ?_) hstep
      split at hnext <;> cases hnext
      simp only [callWork, hphase, weight, Permits.Channel.buffer_abandon]
      omega
    · cases hstep
  | join =>
    simp only [WorkerPool.step] at hstep
    split at hstep
    · rename_i k hjoining
      have hphased := h.phased
      rw [hjoining] at hphased
      have hle : k ≤ s.workers.length := hphased.2.1
      unfold WorkerPool.join at hstep
      split at hstep
      · cases hstep
        simp only [work, hjoining, stageWork]
        omega
      · split at hstep <;> cases hstep
        · simp only [work, hjoining, stageWork]
          omega
        · simp only [work, hjoining, stageWork]
          omega
    · cases hstep
  | _ => cases hasked

end Work

/-! ## Where it stops -/

/-- Nothing is left to do but what is asked for. -/
def Settled (s : WorkerPool ε) : Prop := Transition.Settled step (fun a => a.asked = false) s

/-- A pool at rest. -/
structure Idle (s : WorkerPool ε) : Prop where
  /-- Every call has returned, if it was not dropped. -/
  calls : ∀ call ∈ s.calls, call.phase.Over
  /-- A worker that has not panicked has processed all that reached it. -/
  workers : ∀ worker ∈ s.workers, (∀ text, worker.task ≠ .panicked text) →
    worker.processed = worker.arrived ∧ (worker.task = .receiving ∨ worker.task = .finished)
  /-- A `stop` that was called has returned, and no task is left. -/
  stopped : s.stage = .running ∨
    (∃ result, s.stage = .stopped result) ∧ ∀ worker ∈ s.workers, worker.task ≠ .receiving

section Settled

variable {s : WorkerPool ε} {w : Nat} {worker : PoolWorker ε}

theorem none_of_atWorker {next : PoolWorker ε → Option (PoolWorker ε)}
    (hworker : s.workers[w]? = some worker) (h : s.atWorker w next = none) :
    next worker = none := by
  unfold WorkerPool.atWorker at h
  rw [hworker] at h
  exact Option.map_eq_none_iff.mp h

/-- No processor is at work. -/
theorem Settled.current_eq (h : s.Settled) (hworker : s.workers[w]? = some worker) :
    ∀ message, worker.task ≠ .processing message := by
  intro message htask
  have hnone := none_of_atWorker hworker (h (.processed w (.ok ())) rfl)
  unfold finishProcessing at hnone
  rw [htask] at hnone
  cases hnone

/-- A task that receives has nothing to receive. -/
theorem Settled.buffer_eq (h : s.Settled) (hworker : s.workers[w]? = some worker)
    (htask : worker.task = .receiving) : worker.channel.buffer = [] := by
  have hnone := none_of_atWorker hworker (h (.recv w) rfl)
  unfold recv at hnone
  rw [htask] at hnone
  cases hbuffer : worker.channel.buffer with
  | nil => rfl
  | cons message rest =>
    obtain ⟨channel, hrecv, -⟩ := Permits.Channel.exists_recv hbuffer
    rw [hrecv] at hnone
    cases hnone

/-- And there are senders. -/
theorem Settled.senders_ne (h : s.Settled) (hworker : s.workers[w]? = some worker)
    (htask : worker.task = .receiving) : s.senders ≠ 0 := by
  intro hzero
  have hnone := none_of_atWorker hworker (h (.exit w) rfl)
  unfold exit at hnone
  rw [htask] at hnone
  dsimp only at hnone
  rw [if_pos ⟨hzero, h.buffer_eq hworker htask⟩] at hnone
  cases hnone

/-- Nobody holds a permit: it would be used. -/
theorem Settled.granted_eq (h : s.Settled) (hlively : s.Lively) (hrunning : s.stage = .running)
    (hworker : s.workers[w]? = some worker) : worker.channel.granted = [] := by
  refine List.eq_nil_iff_forall_not_mem.mpr fun g hg => ?_
  have hsends := ((hlively.workers w worker hworker).senders g.1).mp
    (List.mem_map_of_mem (List.mem_append_left _ hg))
  obtain ⟨call, hcall, hw, hphase⟩ := hsends
  obtain ⟨r, hr⟩ := Permits.Channel.exists_complete hg
  have hpush : s.push g.1 = some _ :=
    atChannel_eq_some.mpr ⟨call, w, worker, _, hcall, hw, hworker, hphase,
      Option.map_eq_some_iff.mpr ⟨r, hr, rfl⟩, rfl⟩
  have hnone := h (.push g.1) rfl
  simp only [WorkerPool.step, hrunning, WorkerPool.stepRunning, hpush] at hnone
  cases hnone

/-- **Nobody is in line** at a channel whose receiver is there: its permits are all free. -/
theorem Settled.senders_eq (h : s.Settled) (hlively : s.Lively) (hrunning : s.stage = .running)
    (hworker : s.workers[w]? = some worker) (hopen : worker.channel.receiver = true) :
    worker.channel.senders = [] := by
  have hqueued := hlively.workers w worker hworker
  have hgranted := h.granted_eq hlively hrunning hworker
  have hbuffer : worker.channel.buffer = [] := by
    rcases hqueued.alive hopen with htask | ⟨message, htask⟩
    · exact h.buffer_eq hworker htask
    · exact absurd htask (h.current_eq hworker message)
  have havailable : worker.channel.available = worker.channel.capacity := by
    rw [Permits.Channel.available, hbuffer, hgranted]
    rfl
  have hwaiting : worker.channel.waiting = [] := by
    by_contra hwaiting
    have hout := hqueued.tight hopen hwaiting
    have hpos := hqueued.capacity
    omega
  rw [Permits.Channel.senders, Permits.Channel.line, hgranted, hwaiting]
  rfl

/-- **No call is on its way.** -/
theorem Settled.over (h : s.Settled) (hlively : s.Lively) : ∀ call ∈ s.calls, call.phase.Over := by
  by_cases hrunning : s.stage = .running
  · intro call hmem
    by_contra hover
    obtain ⟨w, hlt, hw⟩ := hlively.routed call hmem hover
    obtain ⟨i, hcall⟩ := List.mem_iff_getElem?.mp hmem
    have hworker := List.getElem?_eq_getElem hlt
    cases hphase : call.phase with
    | routed =>
      have hreserve : s.reserve i = some _ :=
        atChannel_eq_some.mpr ⟨call, w, _, _, hcall, hw, hworker, hphase,
          (apply_ite some _ _ _).symm, rfl⟩
      have hnone := h (.reserve i) rfl
      simp only [WorkerPool.step, hrunning, WorkerPool.stepRunning, hreserve] at hnone
      cases hnone
    | sending =>
      have hin := ((hlively.workers w _ hworker).senders i).mpr ⟨call, hcall, hw, hphase⟩
      cases hopen : s.workers[w].channel.receiver with
      | true =>
        rw [h.senders_eq hlively hrunning hworker hopen] at hin
        cases hin
      | false =>
        have hrefuse : s.refuse i = some _ :=
          atChannel_eq_some.mpr ⟨call, w, _, _, hcall, hw, hworker, hphase,
            if_neg (by rw [hopen]; exact Bool.false_ne_true), rfl⟩
        have hnone := h (.refuse i) rfl
        simp only [WorkerPool.step, hrunning, WorkerPool.stepRunning, hrefuse] at hnone
        cases hnone
    | _ =>
      rw [hphase] at hover
      exact hover trivial
  · have hphased := hlively.phased
    cases hstage : s.stage with
    | running => exact absurd hstage hrunning
    | joining k =>
      rw [hstage] at hphased
      exact hphased.2.2
    | stopped result =>
      rw [hstage] at hphased
      exact hphased.2

/-- `stop` is at no handle: it would join it. -/
theorem Settled.stage_ne (h : s.Settled) (hlively : s.Lively) (k : Nat) :
    s.stage ≠ .joining k := by
  intro hjoining
  have hphased := hlively.phased
  rw [hjoining] at hphased
  have hnone := h .join rfl
  simp only [WorkerPool.step, hjoining] at hnone
  unfold WorkerPool.join at hnone
  cases hworker : s.workers[k]? with
  | none =>
    rw [hworker] at hnone
    cases hnone
  | some worker =>
    rw [hworker] at hnone
    dsimp only at hnone
    cases htask : worker.task with
    | receiving => exact h.senders_ne hworker htask hphased.1
    | processing message => exact h.current_eq hworker message htask
    | finished =>
      rw [htask] at hnone
      cases hnone
    | panicked text =>
      rw [htask] at hnone
      cases hnone

theorem idle_of_settled (h : s.Settled) (hlively : s.Lively) : s.Idle where
  calls := h.over hlively
  workers worker hmem hhealthy := by
    obtain ⟨w, hworker⟩ := List.mem_iff_getElem?.mp hmem
    have hqueued := hlively.workers w worker hworker
    have hconserved := hqueued.conserved hhealthy
    unfold PoolWorker.Conserved at hconserved
    cases htask : worker.task with
    | receiving =>
      rw [htask, h.buffer_eq hworker htask] at hconserved
      exact ⟨by simpa [WorkerTask.current] using hconserved.symm, .inl rfl⟩
    | processing message => exact absurd htask (h.current_eq hworker message)
    | finished =>
      rw [htask, (hqueued.drained htask).1] at hconserved
      exact ⟨by simpa [WorkerTask.current] using hconserved.symm, .inr rfl⟩
    | panicked text => exact absurd htask (hhealthy text)
  stopped := by
    have hphased := hlively.phased
    cases hstage : s.stage with
    | running => exact .inl rfl
    | joining k => exact absurd hstage (h.stage_ne hlively k)
    | stopped result =>
      rw [hstage] at hphased
      refine .inr ⟨⟨result, rfl⟩, fun worker hmem htask => ?_⟩
      obtain ⟨w, hworker⟩ := List.mem_iff_getElem?.mp hmem
      exact h.senders_ne hworker htask hphased.1

end Settled

/-- What a pool comes to, left to itself. -/
structure NobodyHangs (s : WorkerPool ε) : Prop where
  /-- It cannot go on for ever. -/
  settles : Transition.Settles step (fun a : PoolAction ε => a.asked = false) s
  /-- Where it stops. -/
  rests : ∀ as s', (∀ a ∈ as, PoolAction.asked a = false) →
    Transition.exec step s as = some s' → s'.Settled → s'.Idle
  reaches : ∃ as s', (∀ a ∈ as, PoolAction.asked a = false) ∧
    Transition.exec step s as = some s' ∧ s'.Idle

/-- **Nobody hangs at a worker pool**, in any run of a started one, whatever the order of the
    calls and the workers, whoever gives up and whichever processors panic. -/
theorem nobodyHangs_exec {config : WorkerConfig} {started s : WorkerPool ε}
    {as : List (PoolAction ε)} (hstart : (new config).start = some started)
    (hexec : Transition.exec step started as = some s) : s.NobodyHangs := by
  have hstep : ∀ (s : WorkerPool ε) a s', s.Lively → s.step a = some s' → s'.Lively :=
    fun _ _ _ h hstep => h.step hstep
  have hlively : s.Lively := Transition.invariant hstep (lively_start hstart) hexec
  refine ⟨?_, fun as' s' _ hexec' hsettled => ?_, ?_⟩
  · exact Transition.settles_of_measure work (fun _ _ _ h _ hstep => h.step hstep)
      (fun _ _ _ h hasked hstep => work_lt h hasked hstep) hlively
  · exact idle_of_settled hsettled (Transition.invariant hstep hlively hexec')
  · obtain ⟨as', s', hown, hexec', hsettled⟩ :=
      Transition.exists_exec_settled (C := fun a : PoolAction ε => a.asked = false) work
        (fun _ _ _ h _ hstep => h.step hstep)
        (fun _ _ _ h hasked hstep => work_lt h hasked hstep) hlively
    exact ⟨as', s', hown, hexec',
      idle_of_settled hsettled (Transition.invariant hstep hlively hexec')⟩

/-- One worker with room for one message: its processor panics while one call waits for the
    permit and another is on its way, and `stop` is called after them. -/
def lostWorker : List (PoolAction String) :=
  [.send "created", .reserve 0, .push 0, .recv 0, .send "paid", .reserve 1, .push 1,
    .send "shipped", .reserve 2, .send "closed", .panicked 0 "no such order", .refuse 2,
    .reserve 3, .stop]

theorem nobodyHangs_lostWorker : ∃ started s : WorkerPool String,
    (new ⟨1, 1⟩).start = some started ∧ Transition.exec step started lostWorker = some s ∧
      s.calls.map (·.phase) = [.ok, .ok, .error (.internal "Worker channel closed"),
        .error (.internal "Worker channel closed")] ∧ s.NobodyHangs := by
  obtain ⟨started, s, hstart, hexec, hphases⟩ : ∃ started s : WorkerPool String,
      (new ⟨1, 1⟩).start = some started ∧ Transition.exec step started lostWorker = some s ∧
        s.calls.map (·.phase) = [.ok, .ok, .error (.internal "Worker channel closed"),
          .error (.internal "Worker channel closed")] :=
    ⟨_, _, rfl, rfl, rfl⟩
  exact ⟨started, s, hstart, hexec, hphases, nobodyHangs_exec hstart hexec⟩

end WorkerPool
end TokioEvents
