/-
  TokioEvents.Bus.Provenance

  Where the events on an in-memory bus come from.  Whatever is queued, held, handled or
  dead-lettered is the event of a publish call that returned `Ok` with its id; a call that
  was refused, that was given up, or that has not returned yet, has left no trace.
-/

import TokioEvents.Bus.Capacity
import TokioEvents.Bus.GracefulShutdown

namespace TokioEvents

/-- The event that an observation is about. -/
def Observation.event : Observation → Option Nat
  | .entered event => some event
  | .selected event _ => some event
  | .dispatched event => some event
  | .marked _ _ event => some event
  | .hooked _ => none

namespace MemoryBus

/-- The publish call has returned `Ok` with the id of its event. -/
def Published (s : MemoryBus) (n : Nat) : Prop :=
  ∃ call, s.calls[n]? = some call ∧ call.phase = .returned (.ok call.envelope.eventId)

/-- The events that have left their publish calls. -/
def left (s : MemoryBus) : List Nat := s.entered ++ s.sleepers.map (·.addr)

variable {config : EventBusConfig} {s s' : MemoryBus}

/-! ## The publish calls -/

theorem PublisherStep.published (h : PublisherStep config s s') {n : Nat} (hn : s.Published n) :
    s'.Published n := by
  obtain ⟨call, hcall, hphase⟩ := hn
  exact ⟨call, h.returned hcall (by simp [PublishCall.pending, hphase]), hphase⟩

theorem Published.step {a : Action} {n : Nat} (hn : s.Published n)
    (h : step config s a = some s') : s'.Published n := by
  by_cases hpublisher : ∃ b, a = .publisher b
  · obtain ⟨b, rfl⟩ := hpublisher
    exact (stepPublisher_cases h).published hn
  · unfold Published
    rw [(of_not_publisher h fun b hb => hpublisher ⟨b, hb⟩).2.2]
    exact hn

/-- A call that leaves its event returns `Ok`. -/
theorem PublisherStep.left_published (h : PublisherStep config s s')
    (hs : ∀ n ∈ s.left, s.Published n) : ∀ n ∈ s'.left, s'.Published n := by
  have hkeep : ∀ n ∈ s.left, s'.Published n := fun n hn => h.published (hs n hn)
  have hreturn : ∀ {m : Nat} {call : PublishCall}, s.calls[m]? = some call →
      s'.calls = s.calls.set m { call with phase := .returned (.ok call.envelope.eventId) } →
      s'.Published m := by
    intro m call hcall hcalls
    refine ⟨{ call with phase := .returned (.ok call.envelope.eventId) }, ?_, rfl⟩
    rw [hcalls]
    exact List.getElem?_set_self (List.getElem?_eq_some_iff.mp hcall).1
  cases h with
  | @schedule m call dispatcher hcall hphase hdispatcher sleepers hsleepers =>
    intro n hn
    have hmem : n ∈ s.entered ++ sleepers.map (·.addr) := hn
    rw [hsleepers] at hmem
    split at hmem
    · rw [List.map_append, ← List.append_assoc] at hmem
      rcases List.mem_append.mp hmem with hold | hnew
      · exact hkeep n hold
      · obtain rfl := List.mem_singleton.mp hnew
        exact hreturn hcall rfl
    · exact hkeep n hmem
  | @enter m call hcall hguarded haccepts =>
    intro n hn
    have hentered : ((s.enqueue m (s.queue.push ⟨m, call.envelope⟩)).finish m call
        (.ok call.envelope.eventId)).entered = s.entered ++ [m] :=
      entered_observe_entered (s := s) m
    rw [MemoryBus.left, hentered, List.append_assoc] at hn
    rcases List.mem_append.mp hn with hold | hrest
    · exact hkeep n (List.mem_append_left _ hold)
    rcases List.mem_append.mp hrest with hnew | hold
    · obtain rfl := List.mem_singleton.mp hnew
      exact hreturn hcall rfl
    · exact hkeep n (List.mem_append_right _ hold)
  | @wake index event hevent haccepts =>
    intro n hn
    obtain ⟨hlt, rfl⟩ := List.getElem?_eq_some_iff.mp hevent
    have hperm := (List.getElem_cons_eraseIdx_perm hlt).map (·.addr)
    rw [MemoryBus.left, enqueue, entered_observe_entered, List.append_assoc] at hn
    exact hkeep n (((hperm.append_left s.entered).mem_iff).mp hn)
  | @lose index event hevent hclosed =>
    intro n hn
    have hsub : (s.sleepers.eraseIdx index).map (·.addr) |>.Sublist (s.sleepers.map (·.addr)) :=
      (List.eraseIdx_sublist _ _).map _
    exact hkeep n ((hsub.append_left s.entered).subset hn)
  | _ => exact hkeep

/-! ## The log -/

/-- What is recorded is about events that entered the queue. -/
def Recorded (s : MemoryBus) : Prop := ∀ o ∈ s.log, ∀ n, o.event = some n → n ∈ s.entered

theorem mem_entered {n : Nat} : n ∈ s.entered ↔ .entered n ∈ s.log := by
  simp only [entered, List.mem_filterMap]
  constructor
  · rintro ⟨o, ho, heq⟩
    cases o with
    | entered m =>
      cases heq
      exact ho
    | _ => cases heq
  · exact fun h => ⟨_, h, rfl⟩

/-- The events on their way to a handler have entered the queue. -/
theorem Orderly.mem_entered (hs : s.Orderly) {event : ArcEnvelope}
    (hevent : event ∈ s.queue.buffer ∨ s.worker.event = some event) : event.addr ∈ s.entered := by
  have hunderway : event.addr ∈ s.worker.hand ++ s.queue.buffer.map (·.addr) := by
    rcases hevent with hqueued | hhand
    · exact List.mem_append_right _ (List.mem_map_of_mem hqueued)
    · refine List.mem_append_left _ ?_
      cases hworker : s.worker with
      | received e => simp_all [DispatchWorker.event, DispatchWorker.hand]
      | dispatching e sends => simp_all [DispatchWorker.event, DispatchWorker.hand]
      | _ => simp [hworker, DispatchWorker.event] at hhand
  cases hended : s.worker.ended with
  | false =>
    rw [(hs.queued.working hended).2]
    exact List.mem_append_right _ hunderway
  | true =>
    cases hworker : s.worker with
    | stopped =>
      rw [hworker, (hs.queued.ended hended).2.1] at hunderway
      cases hunderway
    | _ => simp [hworker, DispatchWorker.ended] at hended

/-- So have the events of a handler task. -/
theorem Orderly.held_entered (hs : s.Orderly) (hsound : ∀ id, (s.journal id).Sound) {id : Uuid}
    {task : HandlerTask} (htask : s.tasks[id]? = some task) {event : ArcEnvelope}
    (hevent : event ∈ task.held) : event.addr ∈ s.entered := by
  have hjournal : (s.journal id).task = some (task.channel, task.phase) := journal_task htask
  have hsub : (s.journal id).pushed ⊆ s.entered :=
    ((List.sublist_append_left _ _).trans (hs.inOrder.sublist id)).subset
  refine hsub ?_
  by_cases hphase : task.phase = .ended
  · obtain ⟨-, hbuffer⟩ := (hsound id).closed task.channel (hphase ▸ hjournal)
    simp [HandlerTask.held, hbuffer, hphase, HandlerPhase.event] at hevent
  · rw [(hsound id).buffered _ _ hjournal hphase, (hsound id).busy _ _ hjournal hphase]
    rcases List.mem_append.mp hevent with hbuffered | hbusy
    · exact List.mem_append_right _ (List.mem_map_of_mem hbuffered)
    · refine List.mem_append_left _ (List.mem_append_right _ ?_)
      rw [Option.mem_toList] at hbusy
      simp [Option.mem_def.mp hbusy]

theorem Recorded.step {a : Action} (hs : s.Recorded) (horderly : s.Orderly)
    (hsound : ∀ id, (s.journal id).Sound) (h : step config s a = some s') : s'.Recorded := by
  have hmono : ∀ n ∈ s.entered, n ∈ s'.entered :=
    fun n hn => mem_entered.mpr (mem_log_step h (mem_entered.mp hn))
  -- the observations of a step are about what the party has in its hands
  have hnew : ∀ observations : Log, s'.log = s.log ++ observations →
      (∀ o ∈ observations, ∀ n, o.event = some n → n ∈ s'.entered) → s'.Recorded := by
    intro observations hlog hobservations o ho n hn
    rw [hlog] at ho
    rcases List.mem_append.mp ho with hold | hnew
    · exact hmono n (hs o hold n hn)
    · exact hobservations o hnew n hn
  have hnone : s'.log = s.log → s'.Recorded :=
    fun hlog => hnew [] (by rw [hlog, List.append_nil]) (by simp)
  have hone : ∀ (o : Observation) (m : Nat), s'.log = s.log ++ [o] → o.event = some m →
      m ∈ s'.entered → s'.Recorded := by
    intro o m hlog hm hmem
    refine hnew [o] hlog fun o' ho' n hn => ?_
    rw [List.mem_singleton.mp ho', hm] at hn
    exact Option.some.inj hn ▸ hmem
  cases a with
  | publisher b =>
    obtain ⟨events, hlog⟩ := (stepPublisher_cases h).log
    refine hnew _ hlog fun o ho n hn => ?_
    obtain ⟨event, -, rfl⟩ := List.mem_map.mp ho
    cases hn
    exact mem_entered.mpr (hlog ▸ List.mem_append_right _ ho)
  | worker b =>
    have hhand : ∀ event, s.worker.event = some event → event.addr ∈ s'.entered :=
      fun event hevent => hmono _ (horderly.mem_entered (.inr hevent))
    cases stepWorker_cases h with
    | @select event hworker => exact hone _ _ rfl rfl (hhand event (by rw [hworker]; rfl))
    | @push event sends id task hworker =>
      exact hone _ _ rfl rfl (hhand event (by rw [hworker]; rfl))
    | @finish event hworker => exact hone _ _ rfl rfl (hhand event (by rw [hworker]; rfl))
    | @timeout event sends hworker => exact hone _ _ rfl rfl (hhand event (by rw [hworker]; rfl))
    | _ => exact hnone rfl
  | handler id b =>
    obtain ⟨task, htask, hstep⟩ := stepHandler_cases h
    have hheld : ∀ event ∈ task.held, event.addr ∈ s'.entered :=
      fun event hevent => hmono _ (horderly.held_entered hsound htask hevent)
    have hbusy : ∀ event, task.phase.event = some event → event.addr ∈ s'.entered :=
      fun event hevent => hheld event (List.mem_append_right _ (by simp [hevent]))
    cases hstep with
    | @recv event rest hphase hbuffer =>
      refine hnew [.marked .started id event.addr, .marked .attempted id event.addr]
        (List.append_assoc _ _ _) fun o ho n hn => ?_
      have hevent := hheld event (List.mem_append_left _ (by rw [hbuffer]; exact List.mem_cons_self))
      simp only [List.mem_cons, List.not_mem_nil, or_false] at ho
      rcases ho with rfl | rfl <;> cases hn <;> exact hevent
    | @ack event n hphase => exact hone _ _ rfl rfl (hbusy event (by rw [hphase]; rfl))
    | @fail event n hphase => exact hone _ _ rfl rfl (hbusy event (by rw [hphase]; rfl))
    | @deadLetter event dlq dlq' hphase =>
      refine hnew [.marked .deadLettered id event.addr, .marked .failed id event.addr]
        (List.append_assoc _ _ _) fun o ho n hn => ?_
      have hevent := hbusy event (by rw [hphase]; rfl)
      simp only [List.mem_cons, List.not_mem_nil, or_false] at ho
      rcases ho with rfl | rfl <;> cases hn <;> exact hevent
    | @retry event n hphase => exact hone _ _ rfl rfl (hbusy event (by rw [hphase]; rfl))
    | _ => exact hnone rfl
  | subscriber b => exact hnone (stepSubscriber_cases h).log_eq
  | shutdown b =>
    obtain ⟨hooks, hlog⟩ := (stepShutdown_cases h).log
    refine hnew _ hlog fun o ho n hn => ?_
    obtain ⟨hook, -, rfl⟩ := List.mem_map.mp ho
    cases hn

/-! ## The dead letter queue -/

/-- `P` holds of every event in the dead letter queue. -/
def DeadLetters (P : ArcEnvelope → Prop) (s : MemoryBus) : Prop :=
  ∀ dlq, s.dlq = some dlq → ∀ event ∈ dlq.buffer, P event

/-- **The dead letter queue** is filled by handler tasks only, with what they hold. -/
theorem DeadLetters.step {P : ArcEnvelope → Prop} {a : Action} (hs : s.DeadLetters P)
    (hheld : ∀ (id : Uuid) (task : HandlerTask) (event : ArcEnvelope),
      s.tasks[id]? = some task → task.phase = .deadLettering event → a = .handler id .deadLetter →
      P event) (h : step config s a = some s') : s'.DeadLetters P := by
  cases a with
  | publisher b =>
    obtain ⟨_, _, _, _, rfl⟩ := (stepPublisher_cases h).frame
    exact hs
  | worker b =>
    obtain ⟨_, _, _, _, rfl⟩ := (stepWorker_cases h).frame
    exact hs
  | handler id b =>
    obtain ⟨task, htask, hstep⟩ := stepHandler_cases h
    cases hstep with
    | @deadLetter event dlq dlq' hphase hdlq hsend =>
      intro after hafter e he
      obtain rfl : dlq' = after := Option.some.inj hafter
      rcases hsend with ⟨-, rfl⟩ | ⟨-, rfl⟩
      · rcases List.mem_append.mp he with hold | hnew
        · exact hs dlq hdlq e hold
        · rw [List.mem_singleton.mp hnew]
          exact hheld id task event htask hphase rfl
      · exact hs _ hdlq e he
    | _ => exact hs
  | subscriber b =>
    cases stepSubscriber_cases h with
    | unsubscribe =>
      unfold DeadLetters
      rw [dlq_abort]
      exact hs
    | autoUnsubscribe =>
      unfold DeadLetters
      rw [dlq_abort]
      exact hs
    | @takeDlq dlq hdlq =>
      intro after hafter e he
      obtain rfl := Option.some.inj hafter
      exact hs dlq hdlq e (List.mem_of_mem_tail he)
    | dropDlq =>
      intro after hafter e he
      obtain ⟨dlq, -, rfl⟩ := Option.map_eq_some_iff.mp hafter
      cases he
    | _ => exact hs
  | shutdown b =>
    obtain ⟨_, _, _, _, _, _, _, _, _, rfl⟩ := (stepShutdown_cases h).frame
    exact hs

/-! ## Every run -/

/-- The event is that of a publish call, which has returned `Ok` with its id. -/
def Genuine (s : MemoryBus) (event : ArcEnvelope) : Prop :=
  s.Published event.addr ∧ s.Names event

/-- No event on the bus, nor in its record, is made up. -/
structure Authentic (s : MemoryBus) : Prop where
  carried : s.Carries s.Genuine
  deadLetters : s.DeadLetters s.Genuine
  recorded : ∀ o ∈ s.log, ∀ n, o.event = some n → s.Published n
  once : s.left.Nodup

/-- What the provenance rests on. -/
structure Sourced (s : MemoryBus) : Prop where
  orderly : s.Orderly
  sound : ∀ id, (s.journal id).Sound
  traced : s.Traced
  left : ∀ n ∈ s.left, s.Published n
  recorded : s.Recorded
  deadLetters : s.DeadLetters fun event => s.Names event ∧ event.addr ∈ s.entered

theorem sourced_build : (build config).Sourced where
  orderly := orderly_build
  sound := sound_build
  traced := traced_build
  left := by simp [left, build, entered]
  recorded := by simp [Recorded, build]
  deadLetters := by
    rintro dlq hdlq event hevent
    cases hdlq
    cases hevent

theorem Sourced.step {a : Action} (hs : s.Sourced) (h : MemoryBus.step config s a = some s') :
    s'.Sourced where
  orderly := hs.orderly.step h
  sound id := (hs.sound id).step (journal_step h id)
  traced := hs.traced.step h
  left := by
    by_cases hpublisher : ∃ b, a = .publisher b
    · obtain ⟨b, rfl⟩ := hpublisher
      exact (stepPublisher_cases h).left_published hs.left
    · obtain ⟨hentered, hsleepers, -⟩ := of_not_publisher h fun b hb => hpublisher ⟨b, hb⟩
      intro n hn
      rw [MemoryBus.left, hentered, hsleepers] at hn
      exact (hs.left n hn).step h
  recorded := hs.recorded.step hs.orderly hs.sound h
  deadLetters := by
    have hentered : ∀ n ∈ s.entered, n ∈ s'.entered := fun n hn =>
      mem_entered.mpr (mem_log_step h (mem_entered.mp hn))
    refine DeadLetters.step (fun dlq hdlq event hevent => ?_)
      (fun id task event htask hphase _ => ?_) h
    · obtain ⟨hnames, hmem⟩ := hs.deadLetters dlq hdlq event hevent
      exact ⟨hnames.step h, hentered _ hmem⟩
    · have hheld : event ∈ task.held :=
        List.mem_append_right _ (by simp [hphase, HandlerPhase.event])
      exact ⟨(hs.traced.held id task htask event hheld).step h,
        hentered _ (hs.orderly.held_entered hs.sound htask hheld)⟩

theorem Sourced.authentic (hs : s.Sourced) : s.Authentic where
  carried := by
    have hentered : ∀ event : ArcEnvelope, event.addr ∈ s.entered → s.Published event.addr :=
      fun event hmem => hs.left _ (List.mem_append_left _ hmem)
    constructor
    · exact fun event hevent => ⟨hentered event (hs.orderly.mem_entered (.inl hevent)),
        hs.traced.queued event hevent⟩
    · exact fun event hevent => ⟨hs.left _ (List.mem_append_right _ (List.mem_map_of_mem hevent)),
        hs.traced.asleep event hevent⟩
    · exact fun event hevent => ⟨hentered event (hs.orderly.mem_entered (.inr hevent)),
        hs.traced.inHand event hevent⟩
    · exact fun id task htask event hevent =>
        ⟨hentered event (hs.orderly.held_entered hs.sound htask hevent),
          hs.traced.held id task htask event hevent⟩
  deadLetters dlq hdlq event hevent := by
    obtain ⟨hnames, hmem⟩ := hs.deadLetters dlq hdlq event hevent
    exact ⟨hs.left _ (List.mem_append_left _ hmem), hnames⟩
  recorded o ho n hn := hs.left n (List.mem_append_left _ (hs.recorded o ho n hn))
  once := hs.orderly.named.nodup

/-- **Provenance.** In every run, with calls refused, given up or still waiting, whatever the
    bus carries, dead-letters or records is the event of a call that returned `Ok`. -/
theorem authentic_exec {as : List Action} (hexec : exec config (build config) as = some s) :
    s.Authentic :=
  (Transition.invariant (fun _ _ _ hs h => hs.step h) sourced_build hexec).authentic

/-- An order that finds room, one for which there is none, and one whose publisher gives up. -/
def refusedOrders : List Action :=
  publishSteps 0 (order 7)
    ++ [.publisher (.publish (order 8) true), .publisher (.acquire 1), .publisher (.dispatch 1 0)]
    ++ [.publisher (.publish (order 9) false), .publisher (.acquire 2),
      .publisher (.dispatch 2 0), .publisher (.cancel 2)]

theorem authentic_refusedOrders :
    ∃ s, exec { maxQueueSize := 1 } (build { maxQueueSize := 1 }) refusedOrders = some s ∧
      s.Authentic ∧ s.entered = [0] ∧ s.calls.map (·.phase)
        = [.returned (.ok 7), .returned (.tryError .backpressure), .cancelled] := by
  obtain ⟨s, hs⟩ := Option.isSome_iff_exists.mp
    (by decide +kernel :
      (exec { maxQueueSize := 1 } (build { maxQueueSize := 1 }) refusedOrders).isSome = true)
  have hseen : (exec { maxQueueSize := 1 } (build { maxQueueSize := 1 }) refusedOrders).map
      (fun s => (s.entered, s.calls.map (·.phase))) = some ([0],
        [.returned (.ok 7), .returned (.tryError .backpressure), .cancelled]) := by decide +kernel
  rw [hs] at hseen
  obtain ⟨hentered, hphases⟩ := Prod.mk.inj (Option.some.inj hseen)
  exact ⟨s, hs, authentic_exec hs, hentered, hphases⟩

end MemoryBus
end TokioEvents
