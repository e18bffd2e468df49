/-
  TokioEvents.Bus.OrderedDelivery

  Events reach every subscription in the order of the dispatcher queue.

  The events that were pushed to a subscription, then the one the worker holds for it,
  then those in the queue, form a subsequence of the events that entered the queue.  A
  dispatch that is cut short, a closed channel or a task that ends only leaves events
  out.  The handler is started on the pushed events in turn, and its retries are on the
  event it was started on last.
-/

import TokioEvents.Bus.Invariant

namespace TokioEvents

/-! ## One subscription -/

namespace Journal

/-- The events the handler was started on, in a part of the log. -/
def startsIn (entries : List (Mark × Nat)) : List Nat :=
  (entries.filter fun entry => entry.1 = .started).map (·.2)

/-- Every attempt is on the event that was started last, so the retries of an event are
    over when the next one is started. -/
def InTurn (entries : List (Mark × Nat)) : Prop :=
  ∀ before event after, entries = before ++ (.attempted, event) :: after →
    (startsIn before).getLast? = some event

theorem started_eq_startsIn (j : Journal) : j.started = startsIn j.entries := by
  simp [started, events, startsIn]

theorem InTurn.concat {entries : List (Mark × Nat)} {entry : Mark × Nat} (h : InTurn entries)
    (hentry : entry.1 = .attempted → (startsIn entries).getLast? = some entry.2) :
    InTurn (entries ++ [entry]) := by
  intro before event after heq
  rcases List.eq_nil_or_concat after with rfl | ⟨after', last, rfl⟩
  · obtain ⟨rfl, hlast⟩ := List.append_inj' heq rfl
    obtain rfl : entry = (.attempted, event) := by simpa using hlast
    exact hentry rfl
  · have heq' : entries ++ [entry] = (before ++ (.attempted, event) :: after') ++ [last] := by
      simpa using heq
    exact h before event after' (List.append_inj' heq' rfl).1

theorem InTurn.step {config : EventBusConfig} {dlq : Bool} {a : Option MemoryBus.HandlerAction}
    {j j' : Journal} (h : InTurn j.entries) (hsound : j.Sound) (hstep : j.Step config dlq a j') :
    InTurn j'.entries := by
  have hnil : InTurn (j.entries ++ []) := by rwa [List.append_nil]
  have hone : ∀ mark event, mark ≠ .attempted → InTurn (j.entries ++ [(mark, event)]) :=
    fun mark event hmark => h.concat fun heq => absurd heq hmark
  cases hstep with
  | idle => exact h
  | push => exact hone _ _ (by simp)
  | @recv channel event rest htask hbuffer =>
    have htwo : InTurn ((j.entries ++ [(.started, event.addr)]) ++ [(.attempted, event.addr)]) :=
      (hone .started event.addr (by simp)).concat fun _ => by simp [startsIn]
    simpa [write] using htwo
  | ack => exact hone _ _ (by simp)
  | fail => exact hone _ _ (by simp)
  | @deadLetter channel event htask =>
    have htwo : InTurn ((j.entries ++ [(.deadLettered, event.addr)]) ++ [(.failed, event.addr)]) :=
      (hone .deadLettered event.addr (by simp)).concat (by simp)
    simpa [write] using htwo
  | @retry channel event n htask =>
    refine h.concat fun _ => ?_
    rw [← started_eq_startsIn, hsound.busy _ _ htask (by simp)]
    simp [HandlerPhase.event]
  | _ => exact hnil

end Journal

/-- The event the worker holds for a subscription. -/
def DispatchWorker.underway (id : Uuid) : DispatchWorker → List Nat
  | .received event => [event.addr]
  | .dispatching event sends => if id ∈ sends then [event.addr] else []
  | _ => []

namespace MemoryBus

/-! ## The pipeline -/

/-- The events on their way to a subscription. -/
def underway (s : MemoryBus) (id : Uuid) : List Nat :=
  s.worker.underway id ++ s.queue.buffer.map (·.addr)

/-- The pushed events and those on their way, in the order of the queue. -/
structure InOrder (s : MemoryBus) : Prop where
  nodup : s.worker.sends.Nodup
  sublist : ∀ id, ((s.journal id).pushed ++ s.underway id).Sublist s.entered

section Steps

variable {config : EventBusConfig} {s s' : MemoryBus}

theorem inOrder_build : (build config).InOrder where
  nodup := by simp [build, DispatchWorker.sends]
  sublist id := by
    rw [journal_build]
    exact List.Sublist.refl _

/-- Fewer events on their way. -/
theorem InOrder.shrink (h : s.InOrder) (hnodup : s'.worker.sends.Nodup)
    (hjournal : ∀ id, (s'.journal id).pushed = (s.journal id).pushed)
    (hunderway : ∀ id, (s'.underway id).Sublist (s.underway id))
    (hentered : s'.entered = s.entered) : s'.InOrder where
  nodup := hnodup
  sublist id := by
    rw [hjournal, hentered]
    exact ((hunderway id).append_left _).trans (h.sublist id)

theorem PublisherStep.inOrder (h : PublisherStep config s s') (hs : s.InOrder) : s'.InOrder := by
  have hpushed : ∀ id, (s'.journal id).pushed = (s.journal id).pushed := fun id =>
    congrArg Journal.pushed h.journal_eq
  have hentry : ∀ event : ArcEnvelope, s'.worker = s.worker →
      s'.queue = s.queue.push event → s'.entered = s.entered ++ [event.addr] → s'.InOrder := by
    intro event hworker hqueue hentered
    refine ⟨hworker ▸ hs.nodup, fun id => ?_⟩
    rw [hpushed, hentered, underway, hworker, hqueue]
    simpa [underway] using (hs.sublist id).append_right [event.addr]
  cases h with
  | @enter n call hcall hguarded haccepts =>
    exact hentry ⟨n, call.envelope⟩ rfl rfl (entered_observe_entered (s := s) n)
  | @wake index event hevent haccepts =>
    exact hentry event rfl rfl (entered_observe_entered (s := s) event.addr)
  | _ => exact hs.shrink hs.nodup hpushed (fun id => List.Sublist.refl _) rfl

theorem pushed_of_log {observations : Log} (hlog : s'.log = s.log ++ observations)
    (h : ∀ o ∈ observations, ∀ id event, o ≠ .marked .pushed id event) (id : Uuid) :
    (s'.journal id).pushed = (s.journal id).pushed :=
  events_of_log hlog fun o ho _ hmark => List.mem_singleton.mp hmark ▸ h o ho

theorem WorkerStep.entered_eq {a : WorkerAction} (h : WorkerStep config s a s') :
    s'.entered = s.entered := by
  obtain ⟨os, hlog, hos⟩ := h.log
  refine entered_of_log hlog fun o ho => ?_
  rcases hos o ho with ⟨_, _, rfl⟩ | ⟨_, rfl⟩ | ⟨_, _, rfl⟩ <;> rfl

theorem WorkerStep.inOrder {a : WorkerAction} (h : WorkerStep config s a s') (hs : s.InOrder)
    (hregistered : s.Registered) : s'.InOrder := by
  have hentered := h.entered_eq
  have hlog : s'.log = s.log → ∀ id, (s'.journal id).pushed = (s.journal id).pushed :=
    fun heq => pushed_of_log (heq.trans (List.append_nil _).symm) (by simp)
  have hobserve : ∀ o : Observation, s'.log = s.log ++ [o] →
      (∀ id event, o ≠ .marked .pushed id event) →
      ∀ id, (s'.journal id).pushed = (s.journal id).pushed :=
    fun o heq ho => pushed_of_log heq (by simpa using ho)
  -- a worker that stops leaves nothing on its way
  have hstop : ∀ id, s.stopWorker.underway id = [] := fun _ => rfl
  cases h with
  | @recv event rest hworker hbuffer =>
    refine hs.shrink (by simp [DispatchWorker.sends]) (hlog rfl) (fun id => ?_) hentered
    simp [underway, DispatchWorker.underway, hworker, hbuffer]
  | drained =>
    exact hs.shrink (by simp [stopWorker, DispatchWorker.sends]) (hlog rfl)
      (fun id => hstop id ▸ List.nil_sublist _) hentered
  | halt =>
    exact hs.shrink (by simp [stopWorker, DispatchWorker.sends]) (hlog rfl)
      (fun id => hstop id ▸ List.nil_sublist _) hentered
  | panic =>
    exact hs.shrink (by simp [stopWorker, DispatchWorker.sends]) (hlog rfl)
      (fun id => hstop id ▸ List.nil_sublist _) hentered
  | @select event hworker hrunning =>
    refine hs.shrink (hregistered.nodup_senders _) (hobserve _ rfl (by simp))
      (fun id => ?_) hentered
    refine List.Sublist.append_right ?_ _
    rw [hworker]
    show (if id ∈ s.senders event.envelope then [event.addr] else []).Sublist [event.addr]
    split
    · exact List.Sublist.refl _
    · exact List.nil_sublist _
  | @push event sends i task hworker hi htask haccepts =>
    have hnodup : sends.Nodup := by simpa [hworker, DispatchWorker.sends] using hs.nodup
    refine ⟨hnodup.erase i, fun id => ?_⟩
    let pushed : HandlerTask := { task with channel := task.channel.push event }
    have hjournal : (({ s with worker := .dispatching event (sends.erase i) }.setTask i
          pushed).observe (.marked .pushed i event.addr)).journal id
        = if i = id then (s.journal id).write (pushed.channel, pushed.phase)
            [(.pushed, event.addr)] else s.journal id :=
      journal_write [(.pushed, event.addr)] rfl rfl
    have hafter : ∀ pushed : List Nat, pushed ++ underway (({ s with
        worker := .dispatching event (sends.erase i) }.setTask i
        { task with channel := task.channel.push event }).observe
          (.marked .pushed i event.addr)) id
        = pushed ++ ((if id ∈ sends.erase i then [event.addr] else []) ++
            s.queue.buffer.map (·.addr)) := fun _ => rfl
    have hbefore : s.underway id = (if id ∈ sends then [event.addr] else []) ++
        s.queue.buffer.map (·.addr) := by
      rw [underway, hworker, DispatchWorker.underway]
    rw [hentered, hjournal, hafter]
    refine List.Sublist.trans ?_ (hs.sublist id)
    rw [hbefore]
    by_cases hid : i = id
    · -- the event moves from the worker to the channel
      subst hid
      rw [if_pos rfl, if_neg hnodup.not_mem_erase, if_pos hi]
      simp
    · simp only [if_neg hid, List.mem_erase_of_ne fun h => hid (Eq.symm h)]
      exact List.Sublist.refl _
  | @miss event sends i hworker hi htask =>
    have hnodup : sends.Nodup := by simpa [hworker, DispatchWorker.sends] using hs.nodup
    refine hs.shrink (hnodup.erase i) (hlog rfl) (fun id => ?_) hentered
    refine List.Sublist.append_right ?_ _
    rw [hworker]
    show (if id ∈ sends.erase i then [event.addr] else []).Sublist
      (if id ∈ sends then [event.addr] else [])
    split
    · rename_i hid
      rw [if_pos (List.mem_of_mem_erase hid)]
    · exact List.nil_sublist _
  | finish hworker =>
    exact hs.shrink (by simp [leaveDispatch, observe, DispatchWorker.sends])
      (hobserve _ rfl (by simp))
      (fun id => List.Sublist.append_right (List.nil_sublist _) _) hentered
  | timeout hworker htimeout =>
    exact hs.shrink (by simp [leaveDispatch, observe, DispatchWorker.sends])
      (hobserve _ rfl (by simp))
      (fun id => List.Sublist.append_right (List.nil_sublist _) _) hentered

/-- **The order is kept.** -/
theorem InOrder.step {a : Action} (hs : s.InOrder) (hregistered : s.Registered)
    (h : step config s a = some s') : s'.InOrder := by
  -- the other parties leave the queue and the worker as they are
  have hquiet : (∀ b, a ≠ .publisher b) → (∀ b, a ≠ .worker b) →
      (∀ id, (s'.journal id).pushed = (s.journal id).pushed) → s'.InOrder := by
    intro ha hb hpushed
    have hworker := worker_of_not_worker h hb
    refine hs.shrink (hworker ▸ hs.nodup) hpushed (fun id => ?_) (of_not_publisher h ha).1
    rw [underway, underway, hworker, queue_of_other h ha hb]
  cases a with
  | publisher a => exact (stepPublisher_cases h).inOrder hs
  | worker a => exact (stepWorker_cases h).inOrder hs hregistered
  | handler i a =>
    obtain ⟨task, -, hstep⟩ := stepHandler_cases h
    obtain ⟨entries, hlog, hentries⟩ := hstep.log
    refine hquiet (by simp) (by simp) (pushed_of_log hlog fun o ho id event heq => ?_)
    obtain ⟨entry, hentry, rfl⟩ := List.mem_map.mp ho
    exact hentries entry hentry (Observation.marked.inj heq).1
  | subscriber a =>
    have hlog := (stepSubscriber_cases h).log_eq
    exact hquiet (by simp) (by simp)
      (pushed_of_log (hlog.trans (List.append_nil _).symm) (by simp))
  | shutdown a =>
    have hstep := stepShutdown_cases h
    exact hquiet (by simp) (by simp) fun id => congrArg Journal.pushed hstep.journal_eq

end Steps

/-! ## Delivery in order over whole runs -/

/-- The subscription's handler is started on a subsequence of the events that entered the
    queue, on none twice, and its retries of an event are over when the next one is
    started. -/
structure OrderedDelivery (s : MemoryBus) (id : Uuid) : Prop where
  subsequence : (s.journal id).started.Sublist s.entered
  once : (s.journal id).started.Nodup
  inTurn : Journal.InTurn (s.journal id).entries

section Runs

variable {config : EventBusConfig} {s : MemoryBus} {as : List Action}

theorem inOrder_exec (hexec : exec config (build config) as = some s) : s.InOrder :=
  (Transition.invariant (I := fun s : MemoryBus => s.Registered ∧ s.InOrder)
    (fun _ _ _ h hstep => ⟨h.1.step hstep, h.2.step h.1 hstep⟩)
    ⟨registered_build, inOrder_build⟩ hexec).2

theorem inTurn_exec (hexec : exec config (build config) as = some s) (id : Uuid) :
    Journal.InTurn (s.journal id).entries := by
  refine (Transition.invariant
    (I := fun s : MemoryBus => (∀ id, (s.journal id).Sound) ∧
      ∀ id, Journal.InTurn (s.journal id).entries)
    (fun _ _ _ h hstep => ⟨fun id => (h.1 id).step (journal_step hstep id),
      fun id => (h.2 id).step (h.1 id) (journal_step hstep id)⟩)
    ⟨sound_build, fun id => ?_⟩ hexec).2 id
  rw [journal_build]
  intro before event after heq
  simp at heq

/-- **Ordered delivery.** In every run, for every subscription. -/
theorem orderedDelivery_exec (hexec : exec config (build config) as = some s) (id : Uuid) :
    s.OrderedDelivery id := by
  have hsub : (s.journal id).started.Sublist s.entered :=
    (sound_exec hexec sound_build id).taken.sublist.trans
      ((List.sublist_append_left _ _).trans ((inOrder_exec hexec).sublist id))
  have hnodup : s.entered.Nodup := (named_exec hexec).nodup.of_append_left
  exact ⟨hsub, hsub.nodup hnodup, inTurn_exec hexec id⟩

/-- An order of type 1. -/
def order (eventId : Uuid) : EventEnvelope :=
  .withMetadata 1 "OrderEvent" .ok [] { eventId := eventId, timestamp := 0 }

/-- A publish call that finds room. -/
def publishSteps (n : Nat) (envelope : EventEnvelope) : List Action :=
  [.publisher (.publish envelope false), .publisher (.acquire n), .publisher (.dispatch n 0),
    .publisher (.send n)]

/-- The worker takes the next event and pushes it to some subscriptions. -/
def dispatchSteps (ids : List Uuid) : List Action :=
  [.worker .recv, .worker .select] ++ ids.map (fun id => .worker (.push id))

/-- Two orders for subscription 10, which fails on the first one once. -/
def retriedOrders : List Action :=
  [.subscriber (.subscribe 1 "OrderEvent" { id := 10 })] ++ publishSteps 0 (order 7)
    ++ publishSteps 1 (order 8) ++ dispatchSteps [10] ++ [.worker .finish]
    ++ dispatchSteps [10] ++ [.worker .finish]
    ++ [.handler 10 .recv, .handler 10 (.outcome .error), .handler 10 .retry,
      .handler 10 (.outcome .ok), .handler 10 .recv]

theorem orderedDelivery_retriedOrders :
    ∃ s, exec {} (build {}) retriedOrders = some s ∧ s.OrderedDelivery 10 ∧
      (s.journal 10).started = [0, 1] := by
  obtain ⟨s, hs⟩ := Option.isSome_iff_exists.mp
    (by decide +kernel : (exec {} (build {}) retriedOrders).isSome = true)
  refine ⟨s, hs, orderedDelivery_exec hs 10, ?_⟩
  have hstarted : (exec {} (build {}) retriedOrders).map (fun s => (s.journal 10).started)
      = some [0, 1] := by decide +kernel
  rw [hs] at hstarted
  exact Option.some.inj hstarted

end Runs
end MemoryBus
end TokioEvents
