/-
  TokioEvents.Dispatcher.PoolInvariant

  What has entered the channel of a worker is what the worker has processed, has in its
  hands and has still to take, in that order, and a message has entered a channel exactly
  when its call has returned `Ok`.  A worker ends when its channel is empty, and `stop`
  returns `Ok` after every worker has ended.
-/

import TokioEvents.Dispatcher.WorkerPool
import TokioEvents.Lib.Calls

namespace TokioEvents
namespace WorkerPool

variable {ε : Type}

/-! ## Messages and calls -/

/-- The message is the one of a call to the worker. -/
def Addressed (calls : List (SendCall ε)) (w : Nat) (message : Sent ε) : Prop :=
  ∃ call, calls[message.call]? = some call ∧ call.worker = some w ∧
    call.envelope = message.envelope

/-- And the call has returned `Ok`. -/
def Delivered (calls : List (SendCall ε)) (w : Nat) (message : Sent ε) : Prop :=
  ∃ call, calls[message.call]? = some call ∧ call.worker = some w ∧
    call.envelope = message.envelope ∧ call.phase = .ok

section Calls

variable {calls : List (SendCall ε)} {w : Nat} {message : Sent ε}

theorem Addressed.begin (h : Addressed calls w message) (call : SendCall ε) :
    Addressed (calls ++ [call]) w message := by
  obtain ⟨c, hc, hw, he⟩ := h
  have hlt := (List.getElem?_eq_some_iff.mp hc).1
  exact ⟨c, by rw [List.getElem?_append_left hlt, hc], hw, he⟩

theorem delivered_begin {call : SendCall ε} (hphase : call.phase ≠ .ok) :
    Delivered (calls ++ [call]) w message ↔ Delivered calls w message := by
  constructor
  · rintro ⟨c, hc, hw, he, hok⟩
    rcases Calls.getElem?_begin hc with hold | ⟨-, rfl⟩
    · exact ⟨c, hold, hw, he, hok⟩
    · exact absurd hok hphase
  · rintro ⟨c, hc, hw, he, hok⟩
    have hlt := (List.getElem?_eq_some_iff.mp hc).1
    exact ⟨c, by rw [List.getElem?_append_left hlt, hc], hw, he, hok⟩

variable {i : Nat} {call : SendCall ε}

theorem Addressed.setPhase (hcall : calls[i]? = some call) (phase : SendPhase)
    (h : Addressed calls w message) :
    Addressed (calls.set i { call with phase := phase }) w message := by
  obtain ⟨c, hc, hw, he⟩ := h
  by_cases heq : message.call = i
  · have hlt := (List.getElem?_eq_some_iff.mp hcall).1
    rw [heq] at hc
    obtain rfl := Option.some.inj (hcall.symm.trans hc)
    refine ⟨{ call with phase := phase }, ?_, hw, he⟩
    rw [heq, List.getElem?_set_self hlt]
  · exact ⟨c, by rw [List.getElem?_set_ne (Ne.symm heq), hc], hw, he⟩

/-- Until the call returns `Ok`, nothing is delivered. -/
theorem delivered_setPhase (hcall : calls[i]? = some call) (hbefore : call.phase ≠ .ok)
    {phase : SendPhase} (hafter : phase ≠ .ok) :
    Delivered (calls.set i { call with phase := phase }) w message
      ↔ Delivered calls w message := by
  constructor
  · rintro ⟨c, hc, hw, he, hok⟩
    rcases Calls.getElem?_advance hcall hc with ⟨-, rfl⟩ | ⟨-, hold⟩
    · exact absurd hok hafter
    · exact ⟨c, hold, hw, he, hok⟩
  · rintro ⟨c, hc, hw, he, hok⟩
    have hne : i ≠ message.call := by
      rintro rfl
      obtain rfl := Option.some.inj (hcall.symm.trans hc)
      exact hbefore hok
    exact ⟨c, by rw [List.getElem?_set_ne hne, hc], hw, he, hok⟩

/-- When it does, its message is. -/
theorem delivered_setOk (hcall : calls[i]? = some call) {target : Nat}
    (hworker : call.worker = some target) :
    Delivered (calls.set i { call with phase := .ok }) w message
      ↔ Delivered calls w message ∨ (w = target ∧ message = ⟨i, call.envelope⟩) := by
  have hlt := (List.getElem?_eq_some_iff.mp hcall).1
  constructor
  · rintro ⟨c, hc, hw, he, hok⟩
    rcases Calls.getElem?_advance hcall hc with ⟨hi, rfl⟩ | ⟨-, hold⟩
    · refine .inr ⟨Option.some.inj (hw.symm.trans hworker), ?_⟩
      obtain ⟨number, envelope⟩ := message
      exact congrArg₂ Sent.mk hi he.symm
    · exact .inl ⟨c, hold, hw, he, hok⟩
  · rintro (⟨c, hc, hw, he, hok⟩ | ⟨rfl, rfl⟩)
    · by_cases heq : i = message.call
      · subst heq
        obtain rfl := Option.some.inj (hcall.symm.trans hc)
        exact ⟨_, List.getElem?_set_self hlt, hw, he, rfl⟩
      · exact ⟨c, by rw [List.getElem?_set_ne heq, hc], hw, he, hok⟩
    · exact ⟨_, List.getElem?_set_self hlt, hworker, rfl, rfl⟩

end Calls

/-- The senders in the line of the channel of a worker are calls to it, each with its own
    message. -/
def Lined (calls : List (SendCall ε)) (w : Nat) (channel : Permits.Channel Nat (Sent ε)) : Prop :=
  ∀ g ∈ channel.line, g.2.call = g.1 ∧ Addressed calls w g.2

section Lined

variable {calls calls' : List (SendCall ε)} {w i : Nat} {call : SendCall ε} {message : Sent ε}
  {channel channel' : Permits.Channel Nat (Sent ε)}

theorem Lined.subset (h : Lined calls w channel) (hline : ∀ g ∈ channel'.line, g ∈ channel.line) :
    Lined calls w channel' := fun g hg => h g (hline g hg)

theorem Lined.congr (h : Lined calls w channel) (hline : channel'.line = channel.line) :
    Lined calls w channel' := h.subset fun _ hg => hline ▸ hg

theorem Lined.imp (h : Lined calls w channel)
    (haddressed : ∀ message, Addressed calls w message → Addressed calls' w message) :
    Lined calls' w channel := fun g hg => ⟨(h g hg).1, haddressed g.2 (h g hg).2⟩

theorem Lined.reserve (h : Lined calls w channel) (hcall : calls[i]? = some call)
    (hw : call.worker = some w) : Lined calls w (channel.reserve i ⟨i, call.envelope⟩) := by
  intro g hg
  rcases Permits.Channel.mem_line_reserve.mp hg with hold | rfl
  · exact h g hold
  · exact ⟨rfl, call, hcall, hw, rfl⟩

theorem Lined.abandon (h : Lined calls w channel) (i : Nat) : Lined calls w (channel.abandon i) :=
  h.subset fun _ hg => Permits.Channel.mem_line_of_abandon hg

/-- What a sender puts into the channel is the message of its call. -/
theorem Lined.message_eq (h : Lined calls w channel) (hcall : calls[i]? = some call)
    (hcomplete : channel.complete i = some (message, channel')) :
    message = ⟨i, call.envelope⟩ := by
  obtain ⟨hmem, -⟩ := Permits.Channel.complete_eq_some hcomplete
  obtain ⟨hi, c, hc, -, he⟩ := h _ hmem
  rw [show message.call = i from hi] at hc
  obtain rfl := Option.some.inj (hcall.symm.trans hc)
  obtain ⟨number, envelope⟩ := message
  exact congrArg₂ Sent.mk hi he.symm

end Lined

/-! ## A worker -/

/-- What a step of a worker does, if its processor does not panic. -/
inductive Goes (senders : Nat) (worker : PoolWorker ε) : PoolWorker ε → Prop where
  | recv {message : Sent ε} {channel : Permits.Channel Nat (Sent ε)}
      (htask : worker.task = .receiving)
      (hbuffer : worker.channel.buffer = message :: channel.buffer)
      (hline : channel.line = worker.channel.line)
      (hreceiver : channel.receiver = worker.channel.receiver) :
      Goes senders worker { worker with channel := channel, task := .processing message }
  | processed {message : Sent ε} (htask : worker.task = .processing message) :
      Goes senders worker
        { worker with task := .receiving, processed := worker.processed ++ [message] }
  | exit (htask : worker.task = .receiving) (hsenders : senders = 0)
      (hempty : worker.channel.buffer = []) :
      Goes senders worker
        { worker with task := .finished, channel := worker.channel.dropReceiver }

section Goes

variable {senders : Nat} {worker worker' : PoolWorker ε}

theorem goes_recv (senders : Nat) (h : recv worker = some worker') :
    Goes senders worker worker' := by
  unfold recv at h
  split at h
  · rename_i htask
    obtain ⟨⟨message, channel⟩, hr, rfl⟩ := Option.map_eq_some_iff.mp h
    obtain ⟨hbuffer, hline, hreceiver⟩ := Permits.Channel.recv_eq_some hr
    exact .recv htask hbuffer hline hreceiver
  · cases h

theorem goes_finishProcessing (senders : Nat) {result : Except Error Unit}
    (h : finishProcessing result worker = some worker') : Goes senders worker worker' := by
  unfold finishProcessing at h
  split at h
  · rename_i message htask
    cases h
    exact .processed htask
  · cases h

theorem goes_exit (h : exit senders worker = some worker') : Goes senders worker worker' := by
  unfold exit at h
  split at h
  · rename_i htask
    split at h
    · rename_i hempty
      cases h
      exact .exit htask hempty.1 hempty.2
    · cases h
  · cases h

/-- A worker that goes on had not ended. -/
theorem Goes.task_ne_finished (h : Goes senders worker worker') : worker.task ≠ .finished := by
  cases h with
  | recv htask => rw [htask]; nofun
  | processed htask => rw [htask]; nofun
  | exit htask => rw [htask]; nofun

/-- It ends only when the senders are gone. -/
theorem Goes.senders_eq_zero (h : Goes senders worker worker')
    (hends : worker'.task = .finished) : senders = 0 := by
  cases h with
  | recv => cases hends
  | processed => cases hends
  | exit htask hsenders => exact hsenders

/-- What has arrived stays what is processed, in the worker's hands, and in the channel. -/
theorem queue_goes (h : Goes senders worker worker')
    (hqueue : worker.arrived
      = worker.processed ++ worker.task.current ++ worker.channel.buffer) :
    worker'.arrived = worker'.processed ++ worker'.task.current ++ worker'.channel.buffer := by
  cases h with
  | @recv message channel htask hbuffer =>
    rw [htask, hbuffer] at hqueue
    show worker.arrived = worker.processed ++ [message] ++ channel.buffer
    rw [hqueue, List.append_assoc, List.append_assoc]
    rfl
  | @processed message htask =>
    rw [htask] at hqueue
    show worker.arrived = worker.processed ++ [message] ++ [] ++ worker.channel.buffer
    rw [hqueue, List.append_nil]
    rfl
  | exit htask hsenders hempty =>
    rw [htask, hempty] at hqueue
    exact hqueue

end Goes

/-- What holds of a worker whose processor has not panicked. -/
structure Coherent (calls : List (SendCall ε)) (w : Nat) (worker : PoolWorker ε) : Prop where
  queue : worker.arrived = worker.processed ++ worker.task.current ++ worker.channel.buffer
  lined : Lined calls w worker.channel
  arrived : ∀ message, message ∈ worker.arrived ↔ Delivered calls w message
  once : (worker.arrived.map Sent.call).Nodup
  healthy : ∀ text, worker.task ≠ .panicked text
  drained : worker.task = .finished → worker.channel.buffer = []
  receiver : worker.task ≠ .finished → worker.channel.receiver = true

section Worker

variable {calls : List (SendCall ε)} {w : Nat} {worker worker' : PoolWorker ε}

/-- The calls go on, and none of the worker's own returns `Ok`. -/
theorem Coherent.frame {calls' : List (SendCall ε)} (h : Coherent calls w worker)
    (haddressed : ∀ message, Addressed calls w message → Addressed calls' w message)
    (hdelivered : ∀ message, Delivered calls' w message ↔ Delivered calls w message) :
    Coherent calls' w worker where
  queue := h.queue
  lined := h.lined.imp haddressed
  arrived message := (h.arrived message).trans (hdelivered message).symm
  once := h.once
  healthy := h.healthy
  drained := h.drained
  receiver := h.receiver

/-- The line of the channel changes, and nothing enters the buffer. -/
theorem Coherent.relined {channel : Permits.Channel Nat (Sent ε)} (h : Coherent calls w worker)
    (hbuffer : channel.buffer = worker.channel.buffer)
    (hreceiver : channel.receiver = worker.channel.receiver)
    (hlined : Lined calls w channel) : Coherent calls w { worker with channel := channel } where
  queue := by
    show worker.arrived = worker.processed ++ worker.task.current ++ channel.buffer
    rw [hbuffer]
    exact h.queue
  lined := hlined
  arrived := h.arrived
  once := h.once
  healthy := h.healthy
  drained hfinished := hbuffer.trans (h.drained hfinished)
  receiver hgoes := hreceiver.trans (h.receiver hgoes)

/-- A step of a worker without a panic keeps what is said of it. -/
theorem Coherent.goes {senders : Nat} (h : Coherent calls w worker)
    (hgoes : Goes senders worker worker') : Coherent calls w worker' := by
  have hqueue := queue_goes hgoes h.queue
  cases hgoes with
  | @recv message channel htask hbuffer hline hreceiver =>
    have hopen := h.receiver (by rw [htask]; nofun)
    exact ⟨hqueue, h.lined.congr hline, h.arrived, h.once, nofun, nofun,
      fun _ => hreceiver.trans hopen⟩
  | processed htask =>
    have hopen := h.receiver (by rw [htask]; nofun)
    exact ⟨hqueue, h.lined, h.arrived, h.once, nofun, nofun, fun _ => hopen⟩
  | exit htask hsenders hempty =>
    exact ⟨hqueue, h.lined, h.arrived, h.once, nofun, fun _ => rfl, fun hends => absurd rfl hends⟩

/-- A call returns `Ok`: its message is the last in the channel of its worker. -/
theorem Coherent.push {i : Nat} {call : SendCall ε} {message : Sent ε}
    {channel : Permits.Channel Nat (Sent ε)} (h : Coherent calls w worker)
    (hcall : calls[i]? = some call) (hworker : call.worker = some w)
    (hphase : call.phase = .sending)
    (hcomplete : worker.channel.complete i = some (message, channel))
    (hrunning : worker.task ≠ .finished) :
    Coherent (calls.set i { call with phase := .ok }) w
      { worker with channel := channel, arrived := worker.arrived ++ [message] } := by
  obtain ⟨-, hbuffer, hline, hreceiver⟩ := Permits.Channel.complete_eq_some hcomplete
  have hmessage := h.lined.message_eq hcall hcomplete
  have hnew : i ∉ worker.arrived.map Sent.call := by
    intro hold
    obtain ⟨m, hm, hmi⟩ := List.mem_map.mp hold
    obtain ⟨c', hc', -, -, hok⟩ := (h.arrived m).mp hm
    rw [hmi] at hc'
    obtain rfl := Option.some.inj (hcall.symm.trans hc')
    rw [hphase] at hok
    cases hok
  refine ⟨?_, (h.lined.imp fun _ hm => hm.setPhase hcall .ok).subset hline, ?_, ?_, h.healthy,
    fun hfinished => absurd hfinished hrunning, fun _ => hreceiver.trans (h.receiver hrunning)⟩
  · show worker.arrived ++ [message] = worker.processed ++ worker.task.current ++ channel.buffer
    rw [hbuffer, h.queue, List.append_assoc]
  · intro m
    show m ∈ worker.arrived ++ [message] ↔ _
    rw [delivered_setOk hcall hworker, List.mem_append, List.mem_singleton, h.arrived, hmessage]
    exact or_congr Iff.rfl (and_iff_right rfl).symm
  · show ((worker.arrived ++ [message]).map Sent.call).Nodup
    rw [List.map_append, List.map_singleton, hmessage]
    refine List.nodup_append.mpr ⟨h.once, List.nodup_cons.mpr ⟨nofun, List.nodup_nil⟩, ?_⟩
    rintro a ha b hb rfl
    rw [List.mem_singleton.mp hb] at ha
    exact hnew ha

/-- The call of another worker returns `Ok`. -/
theorem Coherent.pushOther {i target : Nat} {call : SendCall ε} (h : Coherent calls w worker)
    (hcall : calls[i]? = some call) (hworker : call.worker = some target) (hne : w ≠ target) :
    Coherent (calls.set i { call with phase := .ok }) w worker := by
  refine h.frame (fun m hm => hm.setPhase hcall .ok) fun m => ?_
  rw [delivered_setOk hcall hworker]
  exact or_iff_left fun hm => hne hm.1

/-- A call goes on without returning `Ok`. -/
theorem Coherent.setPhase {i : Nat} {call : SendCall ε} {phase : SendPhase}
    (h : Coherent calls w worker) (hcall : calls[i]? = some call) (hbefore : call.phase ≠ .ok)
    (hafter : phase ≠ .ok) : Coherent (calls.set i { call with phase := phase }) w worker :=
  h.frame (fun _ hm => hm.setPhase hcall phase)
    fun _ => delivered_setPhase hcall hbefore hafter

end Worker

/-! ## The pool -/

/-- The workers at a stage. -/
def Staged (senders : Nat) (workers : List (PoolWorker ε)) : PoolStage → Prop
  | .running => senders = workers.length ∧ ∀ worker ∈ workers, worker.task ≠ .finished
  | .joining k =>
    senders = 0 ∧ k ≤ workers.length ∧
      ∀ w worker, w < k → workers[w]? = some worker → worker.task = .finished
  | .stopped (.ok _) => ∀ worker ∈ workers, worker.task = .finished
  | .stopped (.error _) => False

/-- A worker that has not ended goes on.  It ends only when the senders are gone. -/
theorem Staged.set {senders w : Nat} {workers : List (PoolWorker ε)} {stage : PoolStage}
    {worker worker' : PoolWorker ε} (h : Staged senders workers stage)
    (hworker : workers[w]? = some worker) (htask : worker.task ≠ .finished)
    (hends : worker'.task = .finished → senders = 0) :
    Staged senders (workers.set w worker') stage := by
  have hmem := List.mem_of_getElem? hworker
  cases stage with
  | running =>
    obtain ⟨hlength, hrunning⟩ := h
    refine ⟨hlength.trans List.length_set.symm, fun x hx => ?_⟩
    rcases List.mem_or_eq_of_mem_set hx with hold | rfl
    · exact hrunning x hold
    · intro hfinished
      have hpos := List.length_pos_of_mem hmem
      have hzero := hends hfinished
      omega
  | joining k =>
    obtain ⟨hzero, hle, hjoined⟩ := h
    refine ⟨hzero, List.length_set.symm ▸ hle, fun w' x hw' hx => ?_⟩
    have hne : w ≠ w' := by
      rintro rfl
      exact htask (hjoined w worker hw' hworker)
    rw [List.getElem?_set_ne hne] at hx
    exact hjoined w' x hw' hx
  | stopped result =>
    cases result with
    | ok _ => exact absurd (h worker hmem) htask
    | error _ => exact h

/-- A pool with `n` workers in a run without a panic. -/
structure Inv (n : Nat) (s : WorkerPool ε) : Prop where
  length : s.workers.length = n
  workers : ∀ w worker, s.workers[w]? = some worker → Coherent s.calls w worker
  routed : ∀ call ∈ s.calls, ∀ w, call.worker = some w → w < n
  okRouted : ∀ call ∈ s.calls, call.phase = .ok → ∃ w, call.worker = some w
  errors : ∀ call ∈ s.calls, ∀ e, call.phase = .error e → call.worker = none
  staged : Staged s.senders s.workers s.stage

section Step

variable {n : Nat} {s s' : WorkerPool ε}

/-- A pool that has just been started. -/
theorem inv_start {config : WorkerConfig} (h : (new config).start = some s) :
    Inv config.numWorkers s := by
  unfold start at h
  split at h
  · cases h
  · cases h
    refine ⟨List.length_replicate, ?_, nofun, nofun, nofun, ?_⟩
    · intro w worker hworker
      obtain rfl := List.eq_of_mem_replicate (List.mem_of_getElem? hworker)
      refine ⟨rfl, nofun, fun m => ⟨nofun, ?_⟩, List.nodup_nil, nofun, nofun, fun _ => rfl⟩
      rintro ⟨call, hcall, -⟩
      cases hcall
    · refine ⟨?_, fun worker hworker => ?_⟩
      · show 0 + config.numWorkers = (List.replicate config.numWorkers _).length
        rw [List.length_replicate, Nat.zero_add]
      · rw [List.eq_of_mem_replicate hworker]
        nofun

/-- A call begins: it is not over yet, or has failed its check. -/
theorem Inv.begin {call : SendCall ε} (h : Inv n s) (hrouted : ∀ w, call.worker = some w → w < n)
    (hphase : call.phase ≠ .ok) (herror : ∀ e, call.phase = .error e → call.worker = none) :
    Inv n (s.begin call) := by
  refine ⟨h.length, fun w worker hworker => ?_, ?_, ?_, ?_, h.staged⟩
  · exact (h.workers w worker hworker).frame (fun _ hm => hm.begin call)
      fun _ => delivered_begin hphase
  · intro c hc
    rcases List.mem_append.mp hc with hold | hnew
    · exact h.routed c hold
    · rw [List.mem_singleton.mp hnew]
      exact hrouted
  · intro c hc hok
    rcases List.mem_append.mp hc with hold | hnew
    · exact h.okRouted c hold hok
    · rw [List.mem_singleton.mp hnew] at hok
      exact absurd hok hphase
  · intro c hc
    rcases List.mem_append.mp hc with hold | hnew
    · exact h.errors c hold
    · rw [List.mem_singleton.mp hnew]
      exact herror

/-- A step of a worker. -/
theorem Inv.atWorker {w : Nat} {next : PoolWorker ε → Option (PoolWorker ε)} (h : Inv n s)
    (hnext : ∀ worker worker', next worker = some worker' → Goes s.senders worker worker')
    (hstep : s.atWorker w next = some s') : Inv n s' := by
  obtain ⟨worker, worker', hworker, htaken, rfl⟩ := atWorker_eq_some.mp hstep
  have hgoes := hnext worker worker' htaken
  refine ⟨List.length_set.trans h.length, ?_, h.routed, h.okRouted, h.errors,
    h.staged.set hworker hgoes.task_ne_finished hgoes.senders_eq_zero⟩
  intro w' x hx
  rcases Calls.getElem?_advance hworker hx with ⟨rfl, rfl⟩ | ⟨-, hold⟩
  · exact (h.workers w' worker hworker).goes hgoes
  · exact h.workers w' x hold

/-- A call goes on at the channel of its worker. -/
theorem Inv.setCall {i w : Nat} {call : SendCall ε} {worker worker' : PoolWorker ε}
    {phase : SendPhase} (h : Inv n s) (hcall : s.calls[i]? = some call)
    (hw : call.worker = some w) (hworker : s.workers[w]? = some worker)
    (htask : worker.task ≠ .finished) (hsame : worker'.task = worker.task)
    (hphase : ∀ e, phase ≠ .error e)
    (hown : Coherent (s.calls.set i { call with phase := phase }) w worker')
    (hothers : ∀ w' x, w' ≠ w → Coherent s.calls w' x →
      Coherent (s.calls.set i { call with phase := phase }) w' x) :
    Inv n ((s.setWorker w worker').setCall i { call with phase := phase }) := by
  have hmem := List.mem_of_getElem? hcall
  refine ⟨List.length_set.trans h.length, ?_, ?_, ?_, ?_,
    h.staged.set hworker htask fun hends => absurd (hsame.symm.trans hends) htask⟩
  · intro w' x hx
    rcases Calls.getElem?_advance hworker hx with ⟨rfl, rfl⟩ | ⟨hne, hold⟩
    · exact hown
    · exact hothers w' x hne (h.workers w' x hold)
  · intro c hc
    rcases List.mem_or_eq_of_mem_set hc with hold | rfl
    · exact h.routed c hold
    · exact h.routed call hmem
  · intro c hc hok
    rcases List.mem_or_eq_of_mem_set hc with hold | rfl
    · exact h.okRouted c hold hok
    · exact ⟨w, hw⟩
  · intro c hc e herror
    rcases List.mem_or_eq_of_mem_set hc with hold | rfl
    · exact h.errors c hold e herror
    · exact absurd herror (hphase e)

/-- A call goes on at the channel of its worker, and does not return `Ok`. -/
theorem Inv.setCallRelined {i w : Nat} {call : SendCall ε} {worker : PoolWorker ε}
    {channel : Permits.Channel Nat (Sent ε)} {phase : SendPhase} (h : Inv n s)
    (hcall : s.calls[i]? = some call) (hw : call.worker = some w)
    (hworker : s.workers[w]? = some worker) (htask : worker.task ≠ .finished)
    (hbefore : call.phase ≠ .ok) (hafter : phase ≠ .ok) (hphase : ∀ e, phase ≠ .error e)
    (hbuffer : channel.buffer = worker.channel.buffer)
    (hreceiver : channel.receiver = worker.channel.receiver)
    (hlined : Lined s.calls w channel) :
    Inv n ((s.setWorker w { worker with channel := channel }).setCall i
      { call with phase := phase }) := by
  have hcoherent := h.workers w worker hworker
  refine h.setCall hcall hw hworker htask rfl hphase ?_ fun _ _ _ hx =>
    hx.setPhase hcall hbefore hafter
  exact (hcoherent.relined hbuffer hreceiver hlined).setPhase hcall hbefore hafter

theorem Inv.send (h : Inv n s) (hrunning : s.stage = .running) (envelope : ε) :
    Inv n (s.send envelope) := by
  have hstaged := h.staged
  rw [hrunning] at hstaged
  have hlength := hstaged.1.trans h.length
  unfold WorkerPool.send
  split
  · exact h.begin nofun nofun fun _ _ => rfl
  · rename_i hsome
    have hnext : Inv n { s with nextWorker := (s.nextWorker + 1) % usizeValues } :=
      ⟨h.length, h.workers, h.routed, h.okRouted, h.errors, h.staged⟩
    refine hnext.begin (fun w hw => ?_) nofun nofun
    have hlt := Nat.mod_lt s.nextWorker (Nat.pos_of_ne_zero hsome)
    have hindex : s.nextWorker % s.senders = w := Option.some.inj hw
    omega

theorem Inv.sendTo (h : Inv n s) (hrunning : s.stage = .running) (workerIndex : Nat)
    (envelope : ε) : Inv n (s.sendTo workerIndex envelope) := by
  have hstaged := h.staged
  rw [hrunning] at hstaged
  have hlength := hstaged.1.trans h.length
  unfold WorkerPool.sendTo
  split
  · exact h.begin nofun nofun fun _ _ => rfl
  · rename_i hlt
    refine h.begin (fun w hw => ?_) nofun nofun
    have hindex : workerIndex = w := Option.some.inj hw
    omega

/-- While the pool runs no worker has ended. -/
theorem Inv.task_ne_finished {w : Nat} {worker : PoolWorker ε} (h : Inv n s)
    (hrunning : s.stage = .running) (hworker : s.workers[w]? = some worker) :
    worker.task ≠ .finished := by
  have hstaged := h.staged
  rw [hrunning] at hstaged
  exact hstaged.2 worker (List.mem_of_getElem? hworker)

/-- Nor has its receiver gone. -/
theorem Inv.receiver {w : Nat} {worker : PoolWorker ε} (h : Inv n s)
    (hrunning : s.stage = .running) (hworker : s.workers[w]? = some worker) :
    worker.channel.receiver = true :=
  (h.workers w worker hworker).receiver (h.task_ne_finished hrunning hworker)

theorem Inv.reserve {i : Nat} (h : Inv n s) (hrunning : s.stage = .running)
    (hstep : s.reserve i = some s') : Inv n s' := by
  obtain ⟨call, w, worker, r, hcall, hw, hworker, hphase, hr, rfl⟩ := atChannel_eq_some.mp hstep
  rw [if_pos (h.receiver hrunning hworker)] at hr
  cases hr
  have hbefore : call.phase ≠ .ok := by
    rw [hphase]
    nofun
  exact h.setCallRelined hcall hw hworker (h.task_ne_finished hrunning hworker) hbefore nofun
    nofun (Permits.Channel.buffer_reserve _ _ _) (Permits.Channel.receiver_reserve _ _ _)
    ((h.workers w worker hworker).lined.reserve hcall hw)

theorem Inv.push {i : Nat} (h : Inv n s) (hrunning : s.stage = .running)
    (hstep : s.push i = some s') : Inv n s' := by
  obtain ⟨call, w, worker, r, hcall, hw, hworker, hphase, hr, rfl⟩ := atChannel_eq_some.mp hstep
  obtain ⟨⟨message, channel⟩, hcomplete, rfl⟩ := Option.map_eq_some_iff.mp hr
  have htask := h.task_ne_finished hrunning hworker
  refine h.setCall hcall hw hworker htask rfl nofun ?_ fun w' x hne hx =>
    hx.pushOther hcall hw hne
  exact (h.workers w worker hworker).push hcall hw hphase hcomplete htask

/-- No call is refused. -/
theorem Inv.refuse {i : Nat} (h : Inv n s) (hrunning : s.stage = .running) :
    s.refuse i ≠ some s' := by
  intro hstep
  obtain ⟨call, w, worker, r, hcall, hw, hworker, hphase, hr, rfl⟩ := atChannel_eq_some.mp hstep
  rw [if_pos (h.receiver hrunning hworker)] at hr
  cases hr

theorem Inv.drop {i : Nat} (h : Inv n s) (hrunning : s.stage = .running)
    (hstep : s.drop i = some s') : Inv n s' := by
  obtain ⟨call, w, worker, r, hcall, hw, hworker, hphase, hr, rfl⟩ := atChannel_eq_some.mp hstep
  cases hr
  have hbefore : call.phase ≠ .ok := by
    rw [hphase]
    nofun
  exact h.setCallRelined hcall hw hworker (h.task_ne_finished hrunning hworker) hbefore nofun
    nofun (Permits.Channel.buffer_abandon _ _) (Permits.Channel.receiver_abandon _ _)
    ((h.workers w worker hworker).lined.abandon i)

theorem Inv.join {k : Nat} (h : Inv n s) (hjoining : s.stage = .joining k)
    (hstep : s.join k = some s') : Inv n s' := by
  have hstaged := h.staged
  rw [hjoining] at hstaged
  obtain ⟨hzero, -, hjoined⟩ := hstaged
  unfold WorkerPool.join at hstep
  split at hstep
  · rename_i hnone
    cases hstep
    refine ⟨h.length, h.workers, h.routed, h.okRouted, h.errors, fun worker hworker => ?_⟩
    obtain ⟨w, hw⟩ := List.mem_iff_getElem?.mp hworker
    have hlt : w < s.workers.length := (List.getElem?_eq_some_iff.mp hw).1
    have hle := List.getElem?_eq_none_iff.mp hnone
    exact hjoined w worker (by omega) hw
  · rename_i worker hworker
    split at hstep
    · rename_i hfinished
      cases hstep
      have hlt : k < s.workers.length := (List.getElem?_eq_some_iff.mp hworker).1
      refine ⟨h.length, h.workers, h.routed, h.okRouted, h.errors, hzero, hlt,
        fun w x hw hx => ?_⟩
      by_cases hold : w < k
      · exact hjoined w x hold hx
      · obtain rfl : w = k := by omega
        obtain rfl := Option.some.inj (hworker.symm.trans hx)
        exact hfinished
    · rename_i text hpanicked
      exact absurd hpanicked ((h.workers k worker hworker).healthy text)
    · cases hstep

/-- What the borrowers and the owner do while the pool runs. -/
theorem Inv.stepRunning {a : PoolAction ε} (h : Inv n s) (hrunning : s.stage = .running)
    (hstep : s.stepRunning a = some s') : Inv n s' := by
  cases a with
  | send envelope =>
    cases hstep
    exact h.send hrunning envelope
  | sendTo workerIndex envelope =>
    cases hstep
    exact h.sendTo hrunning workerIndex envelope
  | reserve i => exact h.reserve hrunning hstep
  | push i => exact h.push hrunning hstep
  | refuse i => exact absurd hstep (h.refuse hrunning)
  | drop i => exact h.drop hrunning hstep
  | stop =>
    obtain ⟨hover, rfl⟩ : (∀ call ∈ s.calls, call.phase.Over) ∧
        s' = { s with senders := 0, stage := .joining 0 } := by
      simpa [WorkerPool.stepRunning, WorkerPool.stop, eq_comm] using hstep
    exact ⟨h.length, h.workers, h.routed, h.okRouted, h.errors, rfl, Nat.zero_le _, nofun⟩
  | _ => cases hstep

/-- **Step.** Without a panic a step keeps the invariant. -/
theorem Inv.step {a : PoolAction ε} (h : Inv n s) (hpanic : a.panics = false)
    (hstep : s.step a = some s') : Inv n s' := by
  cases a with
  | recv w => exact h.atWorker (fun _ _ => goes_recv s.senders) hstep
  | processed w result => exact h.atWorker (fun _ _ => goes_finishProcessing s.senders) hstep
  | panicked w message => cases hpanic
  | exit w => exact h.atWorker (fun _ _ => goes_exit) hstep
  | join =>
    simp only [WorkerPool.step] at hstep
    split at hstep
    · rename_i k hjoining
      exact h.join hjoining hstep
    · cases hstep
  | _ =>
    simp only [WorkerPool.step] at hstep
    split at hstep
    · rename_i hrunning
      exact h.stepRunning hrunning hstep
    · cases hstep

/-- **Run.** -/
theorem inv_of_exec {config : WorkerConfig} {started : WorkerPool ε}
    {as : List (PoolAction ε)} (hstart : (new config).start = some started)
    (hpanic : ∀ a ∈ as, a.panics = false)
    (hexec : Transition.exec step started as = some s) : Inv config.numWorkers s :=
  Transition.invariant_along (C := fun _ a => a.panics = false)
    (fun _ _ _ h hC hstep => h.step hC hstep) (inv_start hstart)
    (Transition.along_of_forall (fun a ha _ => hpanic a ha) started) hexec

end Step

end WorkerPool
end TokioEvents
