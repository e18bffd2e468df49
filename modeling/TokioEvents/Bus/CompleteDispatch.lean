/-
  TokioEvents.Bus.CompleteDispatch

  The worker moves on when it has pushed an event to every subscription that `dispatch`
  selected, as `EventBusConfig::reliable` needs it, unless the timeout around `dispatch`
  strikes while a live subscription has no room: the sends that are left are dropped.
-/

import TokioEvents.Bus.OrderedDelivery

namespace TokioEvents

/-- The event the worker is through with. -/
def Observation.leaves : Observation → Option Nat
  | .dispatched event => some event
  | _ => none

/-- The event in the hands of the worker. -/
def DispatchWorker.hand : DispatchWorker → List Nat
  | .received event => [event.addr]
  | .dispatching event _ => [event.addr]
  | _ => []

namespace MemoryBus

/-- The events the worker is through with, in order. -/
def through (s : MemoryBus) : List Nat := s.log.filterMap Observation.leaves

/-- The handler task of the subscription has its receiver. -/
def live (s : MemoryBus) (id : Uuid) : Bool := s.tasks[id]?.any fun task => task.channel.receiver

/-- Every event the worker has moved on from was pushed to every live subscription that was
    selected for it. -/
def Delivered (s : MemoryBus) : Prop :=
  ∀ event ids, .selected event ids ∈ s.log → .dispatched event ∈ s.log →
    ∀ id ∈ ids, s.live id = true → .marked .pushed id event ∈ s.log

/-- The timeout strikes only when the sends that are left are to subscriptions that are
    gone. -/
def CompletesSends (s : MemoryBus) : Action → Prop
  | .worker .timeout => ∀ id ∈ s.worker.sends, s.live id = false
  | _ => True

instance (s : MemoryBus) : (a : Action) → Decidable (s.CompletesSends a)
  -- the sends are gone through, and not all ids
  | .worker .timeout => List.decidableBAll (fun id => s.live id = false) s.worker.sends
  | .worker .recv => isTrue trivial
  | .worker .select => isTrue trivial
  | .worker (.push _) => isTrue trivial
  | .worker .finish => isTrue trivial
  | .worker .panic => isTrue trivial
  | .publisher _ => isTrue trivial
  | .handler _ _ => isTrue trivial
  | .subscriber _ => isTrue trivial
  | .shutdown _ => isTrue trivial

/-! ## The queue -/

/-- The events that entered the queue: those the worker is through with, the one it holds,
    and those in the queue. A worker that ends drops the rest. -/
structure Queued (s : MemoryBus) : Prop where
  working : s.worker.ended = false → s.queue.receiver = true ∧
    s.entered = s.through ++ (s.worker.hand ++ s.queue.buffer.map (·.addr))
  ended : s.worker.ended = true → s.queue.receiver = false ∧ s.queue.buffer = [] ∧
    s.through <+: s.entered

section Queue

variable {config : EventBusConfig} {s s' : MemoryBus}

theorem queued_build : (build config).Queued := by
  constructor <;>
    simp [build, DispatchWorker.ended, DispatchWorker.hand, entered, through, Mpsc.Channel.new]

theorem through_of_log {observations : Log} (hlog : s'.log = s.log ++ observations)
    (h : ∀ o ∈ observations, o.leaves = none) : s'.through = s.through := by
  rw [through, hlog, List.filterMap_append, List.filterMap_eq_nil_iff.mpr h, List.append_nil,
    through]

theorem through_of_not_worker {a : Action} (h : step config s a = some s')
    (ha : ∀ b, a ≠ .worker b) : s'.through = s.through := by
  obtain ⟨os, hlog, hos⟩ := log_of_not_worker h ha
  refine through_of_log hlog fun o ho => ?_
  rcases hos o ho with ⟨_, rfl⟩ | ⟨_, _, _, -, rfl⟩ | ⟨_, rfl⟩ <;> rfl

theorem Queued.through_prefix (h : s.Queued) : s.through <+: s.entered := by
  cases hended : s.worker.ended with
  | true => exact (h.ended hended).2.2
  | false => exact ⟨_, (h.working hended).2.symm⟩

/-- One more event in the queue. -/
theorem Queued.push (h : s.Queued) {event : ArcEnvelope} (haccepts : s.queue.Accepts)
    (hworker : s'.worker = s.worker) (hqueue : s'.queue = s.queue.push event)
    (hthrough : s'.through = s.through) (hentered : s'.entered = s.entered ++ [event.addr]) :
    s'.Queued := by
  have hworking : s.worker.ended = false := by
    cases hended : s.worker.ended with
    | false => rfl
    | true => exact absurd haccepts.1 (by simp [(h.ended hended).1])
  constructor
  · intro _
    obtain ⟨hreceiver, heq⟩ := h.working hworking
    rw [hworker, hqueue, hthrough, hentered, heq]
    exact ⟨hreceiver, by simp⟩
  · intro hended
    rw [hworker, hworking] at hended
    cases hended

theorem Queued.congr (h : s.Queued) (hworker : s'.worker = s.worker) (hqueue : s'.queue = s.queue)
    (hthrough : s'.through = s.through) (hentered : s'.entered = s.entered) : s'.Queued := by
  constructor
  · rw [hworker, hqueue, hthrough, hentered]
    exact h.working
  · rw [hworker, hqueue, hthrough, hentered]
    exact h.ended

theorem WorkerStep.queued {a : WorkerAction} (h : WorkerStep config s a s') (hs : s.Queued) :
    s'.Queued := by
  have hentered := h.entered_eq
  -- the worker stays with its event, or goes on to the next one
  have hwork : s.worker.ended = false → s'.worker.ended = false →
      s'.queue.receiver = s.queue.receiver →
      s'.through ++ (s'.worker.hand ++ s'.queue.buffer.map (·.addr))
        = s.through ++ (s.worker.hand ++ s.queue.buffer.map (·.addr)) → s'.Queued := by
    intro hworking hworking' hreceiver heq
    constructor
    · intro _
      obtain ⟨hopen, hall⟩ := hs.working hworking
      exact ⟨hreceiver.trans hopen, by rw [hentered, hall, heq]⟩
    · intro hended
      rw [hworking'] at hended
      cases hended
  have hstop : s' = s.stopWorker → s'.Queued := by
    rintro rfl
    exact ⟨(fun h => nomatch h), fun _ => ⟨rfl, rfl, hs.through_prefix⟩⟩
  have hthrough : ∀ event : ArcEnvelope, (s.leaveDispatch event).through
      = s.through ++ [event.addr] := by
    intro event
    simp [through, leaveDispatch, observe, Observation.leaves]
  have hleave : ∀ (event : ArcEnvelope) sends, s.worker = .dispatching event sends →
      s' = s.leaveDispatch event → s'.Queued := by
    rintro event sends hworker rfl
    refine hwork (by simp [hworker, DispatchWorker.ended]) rfl rfl ?_
    rw [hthrough, hworker]
    simp [leaveDispatch, observe, DispatchWorker.hand]
  cases h with
  | recv hworker hbuffer =>
    refine hwork (by simp [hworker, DispatchWorker.ended]) rfl rfl ?_
    rw [hworker, hbuffer]
    rfl
  | drained => exact hstop rfl
  | select hworker hrunning =>
    refine hwork (by simp [hworker, DispatchWorker.ended]) rfl rfl ?_
    rw [hworker, through_of_log rfl (by simp [Observation.leaves])]
    rfl
  | halt => exact hstop rfl
  | push hworker hid htask haccepts =>
    refine hwork (by simp [hworker, DispatchWorker.ended]) rfl rfl ?_
    rw [hworker, through_of_log rfl (by simp [Observation.leaves])]
    rfl
  | miss hworker hid htask =>
    refine hwork (by simp [hworker, DispatchWorker.ended]) rfl rfl ?_
    rw [hworker]
    rfl
  | finish hworker => exact hleave _ _ hworker rfl
  | timeout hworker htimeout => exact hleave _ _ hworker rfl
  | panic => exact hstop rfl

theorem PublisherStep.queued (h : PublisherStep config s s') (hs : s.Queued) : s'.Queued := by
  have hthrough : s'.through = s.through := by
    obtain ⟨events, hlog⟩ := h.log
    refine through_of_log hlog fun o ho => ?_
    obtain ⟨event, -, rfl⟩ := List.mem_map.mp ho
    rfl
  cases h with
  | @enter n call hcall hguarded haccepts =>
    exact hs.push haccepts rfl rfl hthrough (entered_observe_entered (s := s) n)
  | @wake index event hevent haccepts =>
    exact hs.push haccepts rfl rfl hthrough (entered_observe_entered (s := s) event.addr)
  | _ => exact hs.congr rfl rfl hthrough rfl

/-- **The worker takes the events one after the other.** -/
theorem Queued.step {a : Action} (hs : s.Queued) (h : step config s a = some s') : s'.Queued := by
  cases a with
  | publisher a => exact (stepPublisher_cases h).queued hs
  | worker a => exact (stepWorker_cases h).queued hs
  | _ =>
    exact hs.congr (worker_of_not_worker h (by simp)) (queue_of_other h (by simp) (by simp))
      (through_of_not_worker h (by simp)) (of_not_publisher h (by simp)).1

end Queue

/-! ## The sends -/

/-- What the log says about the event the worker is dispatching, and about selected
    subscriptions. -/
structure Dispatching (s : MemoryBus) : Prop where
  tasks : ∀ event ids, .selected event ids ∈ s.log → ∀ id ∈ ids, (s.tasks[id]?).isSome
  selected : ∀ event ids, .selected event ids ∈ s.log →
    event ∈ s.through ∨ ∃ e sends, s.worker = .dispatching e sends ∧ e.addr = event
  chosen : ∀ e sends, s.worker = .dispatching e sends →
    ∀ id ∈ sends, ∃ ids, .selected e.addr ids ∈ s.log ∧ id ∈ ids
  completed : ∀ e sends, s.worker = .dispatching e sends →
    ∀ ids, .selected e.addr ids ∈ s.log → ∀ id ∈ ids, id ∉ sends → s.live id = true →
      .marked .pushed id e.addr ∈ s.log

section Sends

variable {config : EventBusConfig} {s s' : MemoryBus}

theorem dispatching_build : (build config).Dispatching := by
  constructor <;> simp [build]

theorem mem_through {event : Nat} : event ∈ s.through ↔ .dispatched event ∈ s.log := by
  simp only [through, List.mem_filterMap]
  constructor
  · rintro ⟨o, ho, heq⟩
    cases o with
    | dispatched n =>
      cases heq
      exact ho
    | _ => cases heq
  · intro ho
    exact ⟨_, ho, rfl⟩

/-- A receiver that was dropped stays dropped. -/
theorem live_of_step {a : Action} (h : step config s a = some s') {id : Uuid}
    (htask : (s.tasks[id]?).isSome) (hlive : s'.live id = true) : s.live id = true := by
  have hjournal : ∀ (s : MemoryBus) channel phase, (s.journal id).task = some (channel, phase) →
      s.live id = channel.receiver := by
    intro s channel phase hs
    obtain ⟨task, htask, heq⟩ := Option.map_eq_some_iff.mp hs
    cases heq
    rw [live, htask]
    rfl
  obtain ⟨task, htask⟩ := Option.isSome_iff_exists.mp htask
  have hbefore : (s.journal id).task = some (task.channel, task.phase) := by
    simp [journal, htask]
  rw [hjournal s _ _ hbefore]
  cases hreceiver : task.channel.receiver with
  | true => rfl
  | false =>
    obtain ⟨channel, phase, hafter, hclosed⟩ := (journal_step h id).receiver hbefore hreceiver
    rw [hjournal s' _ _ hafter, hclosed] at hlive
    cases hlive

theorem subscribed_of_mem_senders {envelope : EventEnvelope} {id : Uuid}
    (h : id ∈ s.senders envelope) : id ∈ s.subscriptions := by
  obtain ⟨-, -, -, -, hsub⟩ := SubscriptionManager.mem_sendersOf.mp h
  exact of_decide_eq_true hsub

/-- The event in the hands of the worker is not one it is through with. -/
theorem Queued.hand_disjoint (h : s.Queued) (hnamed : s.Named) {event : Nat}
    (hhand : event ∈ s.worker.hand) : event ∉ s.through := by
  have hworking : s.worker.ended = false := by
    cases hworker : s.worker with
    | stopped => simp [hworker, DispatchWorker.hand] at hhand
    | _ => rfl
  have hnodup : s.entered.Nodup := hnamed.nodup.of_append_left
  rw [(h.working hworking).2] at hnodup
  intro hthrough
  exact (List.nodup_append.mp hnodup).2.2 event hthrough event (List.mem_append_left _ hhand) rfl

/-- Only the worker records selections. -/
theorem selected_of_not_worker {a : Action} (h : step config s a = some s')
    (ha : ∀ b, a ≠ .worker b) {event : Nat} {ids : List Uuid}
    (hmem : .selected event ids ∈ s'.log) : .selected event ids ∈ s.log := by
  obtain ⟨os, hlog, hos⟩ := log_of_not_worker h ha
  rw [hlog] at hmem
  rcases List.mem_append.mp hmem with hold | hnew
  · exact hold
  · rcases hos _ hnew with ⟨_, h⟩ | ⟨_, _, _, -, h⟩ | ⟨_, h⟩ <;> cases h

/-- A step that leaves the worker alone. -/
theorem Dispatching.of_not_worker (hs : s.Dispatching) {a : Action}
    (h : step config s a = some s') (ha : ∀ b, a ≠ .worker b) : s'.Dispatching := by
  have hselected : ∀ event ids, .selected event ids ∈ s'.log → .selected event ids ∈ s.log :=
    fun event ids hmem => selected_of_not_worker h ha hmem
  have hworker := worker_of_not_worker h ha
  have hthrough := through_of_not_worker h ha
  refine ⟨fun event ids hmem id hid => ?_, fun event ids hmem => ?_, fun e sends hw id hid => ?_,
    fun e sends hw ids hmem id hid hnot hlive => ?_⟩
  · exact isSome_task_step h (hs.tasks event ids (hselected _ _ hmem) id hid)
  · rw [hthrough, hworker]
    exact hs.selected event ids (hselected _ _ hmem)
  · obtain ⟨ids, hmem, hids⟩ := hs.chosen e sends (hworker ▸ hw) id hid
    exact ⟨ids, mem_log_step h hmem, hids⟩
  · have hold := hselected _ _ hmem
    have htask := hs.tasks _ _ hold id hid
    exact mem_log_step h
      (hs.completed e sends (hworker ▸ hw) ids hold id hid hnot (live_of_step h htask hlive))

/-- What the log says about selections, when a step records none. -/
theorem WorkerStep.selected_of_ne {a : WorkerAction} (h : WorkerStep config s a s')
    (ha : a ≠ .select) {event : Nat} {ids : List Uuid} (hmem : .selected event ids ∈ s'.log) :
    .selected event ids ∈ s.log := by
  have hold : ∀ {o : Observation}, (∀ event ids, o ≠ .selected event ids) →
      .selected event ids ∈ s.log ++ [o] → .selected event ids ∈ s.log := by
    intro o ho hmem
    rcases List.mem_append.mp hmem with hold | hnew
    · exact hold
    · exact absurd (List.mem_singleton.mp hnew).symm (ho _ _)
  cases h with
  | select => exact absurd rfl ha
  | halt => exact absurd rfl ha
  | push => exact hold (by simp) hmem
  | finish => exact hold (by simp) hmem
  | timeout => exact hold (by simp) hmem
  | _ => exact hmem

theorem WorkerStep.dispatching {a : WorkerAction} (hstep : WorkerStep config s a s')
    (h : step config s (.worker a) = some s') (hs : s.Dispatching) (hqueued : s.Queued)
    (hnamed : s.Named) (hsubscribed : s.Subscribed) : s'.Dispatching := by
  have htasks : a ≠ .select → ∀ event ids, .selected event ids ∈ s'.log →
      ∀ id ∈ ids, (s'.tasks[id]?).isSome :=
    fun ha event ids hmem id hid =>
      isSome_task_step h (hs.tasks event ids (hstep.selected_of_ne ha hmem) id hid)
  have hthrough : ∀ event ∈ s.through, event ∈ s'.through :=
    fun event hmem => mem_through.mpr (mem_log_step h (mem_through.mp hmem))
  -- a worker that has no event in hand
  have hfree : a ≠ .select → (∀ e sends, s'.worker ≠ .dispatching e sends) →
      (∀ e sends, s.worker = .dispatching e sends → e.addr ∈ s'.through) → s'.Dispatching := by
    intro ha hworker' hleft
    refine ⟨htasks ha, fun event ids hmem => ?_, fun e sends hw => absurd hw (hworker' e sends),
      fun e sends hw => absurd hw (hworker' e sends)⟩
    rcases hs.selected event ids (hstep.selected_of_ne ha hmem) with hold | ⟨e, sends, hw, rfl⟩
    · exact .inl (hthrough _ hold)
    · exact .inl (hleft e sends hw)
  have hidle : (∀ e sends, s.worker ≠ .dispatching e sends) → a ≠ .select →
      (∀ e sends, s'.worker ≠ .dispatching e sends) → s'.Dispatching :=
    fun hworker ha hworker' => hfree ha hworker' fun e sends hw => absurd hw (hworker e sends)
  have hleave : ∀ (event : ArcEnvelope) sends, s.worker = .dispatching event sends →
      s' = s.leaveDispatch event → a ≠ .select → s'.Dispatching := by
    rintro event sends hworker rfl ha
    refine hfree ha (by simp [leaveDispatch, observe]) fun e sends' hw => ?_
    cases hworker.symm.trans hw
    exact mem_through.mpr (by simp [leaveDispatch, observe])
  have hsent : ∀ {event : ArcEnvelope} {sends : List Uuid} {i : Uuid}, a ≠ .select →
      s.worker = .dispatching event sends → s'.worker = .dispatching event (sends.erase i) →
      (s'.live i = true → .marked .pushed i event.addr ∈ s'.log) → s'.Dispatching := by
    intro event sends i ha hworker hworker' hone
    refine ⟨htasks ha, fun n ids hmem => ?_, fun e sends' hw id hid => ?_,
      fun e sends' hw ids hmem id hid hnot hlive => ?_⟩
    · rcases hs.selected n ids (hstep.selected_of_ne ha hmem) with hold | ⟨e, sends', hw, rfl⟩
      · exact .inl (hthrough _ hold)
      · cases hworker.symm.trans hw
        exact .inr ⟨event, _, hworker', rfl⟩
    · cases hworker'.symm.trans hw
      obtain ⟨ids, hmem, hids⟩ := hs.chosen _ _ hworker id (List.mem_of_mem_erase hid)
      exact ⟨ids, mem_log_step h hmem, hids⟩
    · cases hworker'.symm.trans hw
      by_cases hi : id = i
      · subst hi
        exact hone hlive
      · have hold := hstep.selected_of_ne ha hmem
        have hlive' := live_of_step h (hs.tasks _ _ hold id hid) hlive
        rw [List.mem_erase_of_ne hi] at hnot
        exact mem_log_step h (hs.completed _ _ hworker ids hold id hid hnot hlive')
  cases hstep with
  | recv hworker => exact hidle (by simp [hworker]) (by simp) (by simp)
  | drained hworker => exact hidle (by simp [hworker]) (by simp) (by simp [stopWorker])
  | halt hworker =>
    refine ⟨hs.tasks, fun n ids hmem => ?_, (fun e sends hw => DispatchWorker.noConfusion hw),
      (fun e sends hw => DispatchWorker.noConfusion hw)⟩
    rcases hs.selected n ids hmem with hold | ⟨e, sends, hw, -⟩
    · exact .inl hold
    · cases hworker.symm.trans hw
  | panic hworker => exact hidle (by simp [hworker]) (by simp) (by simp [stopWorker])
  | @select event hworker hrunning =>
    have hmem : ∀ {n : Nat} {ids : List Uuid}, Observation.selected n ids ∈
        s.log ++ [.selected event.addr (s.senders event.envelope)] →
        .selected n ids ∈ s.log ∨ n = event.addr ∧ ids = s.senders event.envelope := by
      intro n ids hmem
      simpa using hmem
    have hnew : event.addr ∉ s.through :=
      hqueued.hand_disjoint hnamed (by simp [hworker, DispatchWorker.hand])
    -- so it has not been selected for before
    have hfirst : ∀ ids, .selected event.addr ids ∉ s.log := by
      intro ids hold
      rcases hs.selected _ _ hold with hmem | ⟨e, sends, hw, -⟩
      · exact hnew hmem
      · cases hworker.symm.trans hw
    refine ⟨fun n ids ho id hid => ?_, fun n ids ho => ?_, fun e sends hw id hid => ?_,
      fun e sends hw ids ho id hid hnot => ?_⟩
    · rcases hmem ho with hold | ⟨-, rfl⟩
      · exact hs.tasks n ids hold id hid
      · exact hsubscribed id (subscribed_of_mem_senders hid)
    · rcases hmem ho with hold | ⟨rfl, -⟩
      · rcases hs.selected n ids hold with hmem | ⟨e, sends, hw, -⟩
        · exact .inl (hthrough _ hmem)
        · cases hworker.symm.trans hw
      · exact .inr ⟨event, _, rfl, rfl⟩
    · cases hw
      exact ⟨_, List.mem_append_right _ (List.mem_singleton_self _), hid⟩
    · cases hw
      rcases hmem ho with hold | ⟨-, rfl⟩
      · exact absurd hold (hfirst ids)
      · exact absurd hid hnot
  | push hworker hid htask haccepts =>
    exact hsent (by simp) hworker rfl fun _ => by simp [observe]
  | @miss event sends i hworker hid htask =>
    refine hsent (by simp) hworker rfl fun hlive => ?_
    obtain ⟨task, heq, hreceiver⟩ := (Option.any_eq_true _ _).mp hlive
    rw [htask task heq] at hreceiver
    cases hreceiver
  | finish hworker => exact hleave _ _ hworker rfl (by simp)
  | timeout hworker => exact hleave _ _ hworker rfl (by simp)

/-! ## Every run -/

/-- What the deliveries rest on. -/
structure Orderly (s : MemoryBus) : Prop where
  registered : s.Registered
  named : s.Named
  subscribed : s.Subscribed
  inOrder : s.InOrder
  queued : s.Queued
  dispatching : s.Dispatching

theorem orderly_build : (build config).Orderly :=
  ⟨registered_build, named_build, by simp [Subscribed, build], inOrder_build, queued_build,
    dispatching_build⟩

theorem Orderly.step {a : Action} (hs : s.Orderly) (h : step config s a = some s') :
    s'.Orderly where
  registered := hs.registered.step h
  named := hs.named.step h
  subscribed := hs.subscribed.step h
  inOrder := hs.inOrder.step hs.registered h
  queued := hs.queued.step h
  dispatching := by
    by_cases hworker : ∃ b, a = .worker b
    · obtain ⟨b, rfl⟩ := hworker
      exact (stepWorker_cases h).dispatching h hs.dispatching hs.queued hs.named hs.subscribed
    · exact hs.dispatching.of_not_worker h fun b hb => hworker ⟨b, hb⟩

theorem orderly_exec {as : List Action} (hexec : exec config (build config) as = some s) :
    s.Orderly :=
  Transition.invariant (fun _ _ _ h hstep => h.step hstep) orderly_build hexec

/-- The worker is through with an event when its sends have completed, or when the timeout
    strikes. -/
theorem WorkerStep.through_cases {a : WorkerAction} (h : WorkerStep config s a s') :
    s'.through = s.through ∨ ∃ e sends, s.worker = .dispatching e sends ∧
      s'.through = s.through ++ [e.addr] ∧ (sends = [] ∨ a = .timeout) := by
  have hleave : ∀ event : ArcEnvelope, (s.leaveDispatch event).through
      = s.through ++ [event.addr] := by
    intro event
    simp [through, leaveDispatch, observe, Observation.leaves]
  cases h with
  | @select e => exact .inl (through_of_log rfl (by simp [Observation.leaves]))
  | push => exact .inl (through_of_log rfl (by simp [Observation.leaves]))
  | finish hworker => exact .inr ⟨_, _, hworker, hleave _, .inl rfl⟩
  | timeout hworker => exact .inr ⟨_, _, hworker, hleave _, .inr rfl⟩
  | _ => exact .inl rfl

/-- An event the worker is through with is not selected for again. -/
theorem Orderly.selected_of_through (hs : s.Orderly) {a : WorkerAction}
    (h : WorkerStep config s a s') {event : Nat} {ids : List Uuid} (hthrough : event ∈ s.through)
    (hmem : .selected event ids ∈ s'.log) : .selected event ids ∈ s.log := by
  by_cases ha : a = .select
  · subst ha
    cases h with
    | halt => exact hmem
    | @select e hworker =>
      rcases List.mem_append.mp hmem with hold | hnew
      · exact hold
      · cases List.mem_singleton.mp hnew
        refine absurd hthrough (hs.queued.hand_disjoint hs.named ?_)
        simp [hworker, DispatchWorker.hand]
  · exact h.selected_of_ne ha hmem

/-- **The worker moves on when the sends have completed.** -/
theorem Delivered.step {a : Action} (h : s.Delivered) (hs : s.Orderly)
    (hstep : MemoryBus.step config s a = some s') (hC : s.CompletesSends a) : s'.Delivered := by
  intro event ids hselected hdispatched id hid hlive
  have hthrough : event ∈ s'.through := mem_through.mpr hdispatched
  -- what was delivered before
  have hold : .selected event ids ∈ s.log → event ∈ s.through →
      .marked .pushed id event ∈ s'.log := by
    intro hsel hthr
    have hlive' := live_of_step hstep (hs.dispatching.tasks event ids hsel id hid) hlive
    exact mem_log_step hstep (h event ids hsel (mem_through.mp hthr) id hid hlive')
  by_cases hworker : ∃ b, a = .worker b
  · obtain ⟨b, rfl⟩ := hworker
    have hcase := stepWorker_cases hstep
    rcases hcase.through_cases with hsame | ⟨e, sends, hw, hnew, hsends⟩
    · rw [hsame] at hthrough
      exact hold (hs.selected_of_through hcase hthrough hselected) hthrough
    · have hsel : .selected event ids ∈ s.log := by
        refine hcase.selected_of_ne ?_ hselected
        rintro rfl
        cases hcase with
        | select hreceived => cases hw.symm.trans hreceived
        | halt hreceived => cases hw.symm.trans hreceived
      rw [hnew] at hthrough
      rcases List.mem_append.mp hthrough with hthr | hthr
      · exact hold hsel hthr
      · obtain rfl := List.mem_singleton.mp hthr
        have hlive' := live_of_step hstep (hs.dispatching.tasks _ ids hsel id hid) hlive
        have hnot : id ∉ sends := by
          rcases hsends with rfl | rfl
          · exact List.not_mem_nil
          · intro hsend
            have hdead := hC id (by rwa [hw])
            rw [hlive'] at hdead
            cases hdead
        exact mem_log_step hstep (hs.dispatching.completed e sends hw ids hsel id hid hnot hlive')
  · have hother : ∀ b, a ≠ .worker b := fun b hb => hworker ⟨b, hb⟩
    rw [through_of_not_worker hstep hother] at hthrough
    exact hold (selected_of_not_worker hstep hother hselected) hthrough

/-- What the worker has not sent yet, it has not pushed. -/
theorem Orderly.not_pushed (hs : s.Orderly) {e : ArcEnvelope} {sends : List Uuid}
    (hworker : s.worker = .dispatching e sends) {id : Uuid} (hid : id ∈ sends) :
    .marked .pushed id e.addr ∉ s.log := by
  intro hpushed
  have hnodup := (hs.inOrder.sublist id).nodup hs.named.nodup.of_append_left
  refine (List.nodup_append.mp hnodup).2.2 e.addr (mem_pushed.mpr hpushed) e.addr ?_ rfl
  simp [underway, hworker, DispatchWorker.underway, hid]

/-- A timeout that leaves a live subscription out breaks the delivery. -/
theorem Delivered.completesSends {a : Action} (h : s'.Delivered) (hs : s.Orderly)
    (hstep : MemoryBus.step config s a = some s') : s.CompletesSends a := by
  cases a with
  | worker b =>
    cases b with
    | timeout =>
      cases stepWorker_cases (a := .timeout) hstep with
      | @timeout e sends hworker htimeout =>
        intro id hid
        rw [hworker] at hid
        obtain ⟨ids, hselected, hmem⟩ := hs.dispatching.chosen e sends hworker id hid
        have hdispatched : .dispatched e.addr ∈ (s.leaveDispatch e).log := by
          simp [leaveDispatch, observe]
        refine Bool.eq_false_iff.mpr fun hlive => ?_
        have hpushed := h e.addr ids (mem_log_step hstep hselected) hdispatched id hmem hlive
        rcases List.mem_append.mp hpushed with hold | hnew
        · exact hs.not_pushed hworker hid hold
        · cases List.mem_singleton.mp hnew
    | _ => trivial
  | _ => trivial

/-- **Complete dispatch.** Throughout a run, the worker moves on from no event that it has
    not pushed to every live subscription selected for it, exactly when the timeout never
    leaves such a subscription out. -/
theorem throughout_delivered_iff {as : List Action}
    (hexec : exec config (build config) as = some s) :
    Transition.Throughout (step config) Delivered (build config) as
      ↔ Transition.Along (step config) CompletesSends (build config) as :=
  Transition.throughout_iff_along (fun _ _ _ hs hstep => hs.step hstep)
    (fun _ _ _ hs h hstep => ⟨fun h' => h'.completesSends hs hstep, h.step hs hstep⟩)
    orderly_build (by simp [Delivered, build]) hexec

/-- Subscription 20 leaves order 7 in its channel of one place, and the worker waits for room
    for order 8 when 20 is unsubscribed; the timeout strikes after its task has ended. -/
def partedSubscriber : List Action :=
  [.subscriber (.subscribe 1 "OrderEvent" { id := 10 }),
    .subscriber (.subscribe 1 "OrderEvent" { id := 20 })] ++ publishSteps 0 (order 7)
    ++ publishSteps 1 (order 8) ++ publishSteps 2 (order 9)
    ++ dispatchSteps [10, 20] ++ [.worker .finish, .handler 10 .recv] ++ dispatchSteps [10]
    ++ [.subscriber (.unsubscribe 20), .handler 20 .cancelled, .worker .timeout,
      .handler 10 (.outcome .ok), .handler 10 .recv]
    ++ dispatchSteps [10] ++ [.worker .finish]

/-- Subscription 10 gets all three orders. -/
theorem throughout_delivered_partedSubscriber :
    ∃ s, exec { handlerChannelSize := 1 } (build { handlerChannelSize := 1 }) partedSubscriber
        = some s ∧
      .selected 1 [10, 20] ∈ s.log ∧ .dispatched 1 ∈ s.log ∧ .marked .pushed 20 1 ∉ s.log ∧
      .marked .pushed 10 1 ∈ s.log ∧ .marked .pushed 10 2 ∈ s.log ∧
      Transition.Throughout (step { handlerChannelSize := 1 }) Delivered
        (build { handlerChannelSize := 1 }) partedSubscriber := by
  obtain ⟨s, hs, hseen⟩ := Option.map_eq_some_iff.mp
    (by decide +kernel : (exec { handlerChannelSize := 1 } (build { handlerChannelSize := 1 })
      partedSubscriber).map (fun s => (decide (.selected 1 [10, 20] ∈ s.log),
        decide (.dispatched 1 ∈ s.log), decide (.marked .pushed 20 1 ∈ s.log),
        decide (.marked .pushed 10 1 ∈ s.log), decide (.marked .pushed 10 2 ∈ s.log)))
      = some (true, true, false, true, true))
  simp only [Prod.mk.injEq, decide_eq_true_eq, decide_eq_false_iff_not] at hseen
  obtain ⟨hselected, hdispatched, hnot, hsecond, hthird⟩ := hseen
  exact ⟨s, hs, hselected, hdispatched, hnot, hsecond, hthird,
    (throughout_delivered_iff hs).mpr (of_decide_eq_true (by decide +kernel))⟩

/-- The handler of subscription 10 is busy, its channel of one place is full, and the timeout
    strikes while the worker waits for room for the third event. -/
def overloadedHandler : List Action :=
  [.subscriber (.subscribe 1 "OrderEvent" { id := 10 })] ++ publishSteps 0 (order 7)
    ++ publishSteps 1 (order 8) ++ publishSteps 2 (order 9)
    ++ dispatchSteps [10] ++ [.worker .finish, .handler 10 .recv]
    ++ dispatchSteps [10] ++ [.worker .finish] ++ dispatchSteps [] ++ [.worker .timeout]

theorem not_delivered_overloadedHandler :
    ¬ ∀ (config : EventBusConfig) (as : List Action) (s : MemoryBus),
      config.dropOnFull = false → exec config (build config) as = some s → s.Delivered := by
  intro h
  obtain ⟨s, hs⟩ := Option.isSome_iff_exists.mp
    (by decide +kernel : (exec { handlerChannelSize := 1 } (build { handlerChannelSize := 1 })
      overloadedHandler).isSome = true)
  have hseen : (exec { handlerChannelSize := 1 } (build { handlerChannelSize := 1 })
      overloadedHandler).map (fun s => (decide (.selected 2 [10] ∈ s.log),
        decide (.dispatched 2 ∈ s.log), s.live 10, decide (.marked .pushed 10 2 ∈ s.log)))
      = some (true, true, true, false) := by decide +kernel
  rw [hs] at hseen
  simp only [Option.map_some, Option.some.injEq, Prod.mk.injEq, decide_eq_true_eq,
    decide_eq_false_iff_not] at hseen
  obtain ⟨hselected, hdispatched, hlive, hnot⟩ := hseen
  exact hnot (h _ _ s rfl hs 2 [10] hselected hdispatched 10 (List.mem_singleton_self _) hlive)

end Sends
end MemoryBus
end TokioEvents
