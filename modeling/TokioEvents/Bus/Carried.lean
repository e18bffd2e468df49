/-
  TokioEvents.Bus.Carried

  Where the events on their way to the handlers come from: each is the event of the
  publish call it is named after (`Traced`), and what reaches the handler of a topic
  subscription was published to a topic that its pattern matches (`Tuned`).
-/

import TokioEvents.Bus.PublishCalls

namespace TokioEvents

/-- The event the worker has in hand. -/
def DispatchWorker.event : DispatchWorker → Option ArcEnvelope
  | .received event => some event
  | .dispatching event _ => some event
  | _ => none

/-- The events a handler task has not settled. -/
def HandlerTask.held (task : HandlerTask) : List ArcEnvelope :=
  task.channel.buffer ++ task.phase.event.toList

namespace MemoryBus

open DashMapRegistry SubscriptionManager

variable {config : EventBusConfig} {s s' : MemoryBus}

/-! ## The published events -/

/-- The events of the publish calls, in the order of their numbers. -/
def published (s : MemoryBus) : List EventEnvelope := s.calls.map (·.envelope)

/-- The event that an action publishes. -/
def Action.publishes : Action → List EventEnvelope
  | .publisher (.publish envelope _) => [envelope]
  | _ => []

theorem published_set {n : Nat} {call : PublishCall} {phase : PublishPhase}
    (hcall : s.calls[n]? = some call)
    (hcalls : s'.calls = s.calls.set n { call with phase := phase }) :
    s'.published = s.published := by
  obtain ⟨hlt, rfl⟩ := List.getElem?_eq_some_iff.mp hcall
  rw [published, hcalls, List.map_set, published]
  have hlt' : n < (s.calls.map (·.envelope)).length := by rwa [List.length_map]
  have hself : s.calls[n].envelope = (s.calls.map (·.envelope))[n] := (List.getElem_map ..).symm
  show (s.calls.map (·.envelope)).set n s.calls[n].envelope = _
  rw [hself, List.set_getElem_self]

/-- **Calls are made by `publish` only**, and they keep their events. -/
theorem published_step {a : Action} (h : step config s a = some s') :
    s'.published = s.published ++ a.publishes := by
  have hsame : s'.published = s.published → s'.published = s.published ++ [] := by
    rw [List.append_nil]
    exact id
  cases a with
  | publisher b =>
    cases b with
    | publish envelope nonBlocking =>
      cases h
      exact List.map_append
    | acquire n =>
      obtain ⟨call, hcall, -, rfl⟩ := acquire_eq_some h
      exact hsame (published_set hcall rfl)
    | dispatch n now =>
      obtain ⟨call, phase, hcall, hcalls⟩ := calls_dispatch h
      exact hsame (published_set hcall hcalls)
    | send n =>
      obtain ⟨call, phase, hcall, hcalls⟩ := calls_send h
      exact hsame (published_set hcall hcalls)
    | cancel n =>
      obtain ⟨call, hcall, -, rfl⟩ := cancel_eq_some h
      exact hsame (published_set hcall rfl)
    | wake index =>
      simp only [step, stepPublisher, wake] at h
      split at h
      · split at h <;> cases h <;> exact hsame rfl
      · cases h
  | _ =>
    apply hsame
    rw [published, (of_not_publisher h (by simp)).2.2, published]

/-! ## The events in the tasks -/

/-- A handler task has no more events after a step than before, unless the worker pushes
    one to it. -/
theorem held_step {a : Action} (h : step config s a = some s') {id : Uuid} {task' : HandlerTask}
    (htask' : s'.tasks[id]? = some task') {event : ArcEnvelope} (hevent : event ∈ task'.held) :
    (∃ task, s.tasks[id]? = some task ∧ event ∈ task.held) ∨
      ∃ sends, s.worker = .dispatching event sends ∧ id ∈ sends := by
  -- a task is a channel and a phase, as its journal has them
  have hjournal : (s'.journal id).task = (s.journal id).task →
      ∃ task, s.tasks[id]? = some task ∧ event ∈ task.held := by
    intro heq
    simp only [journal, htask', Option.map_some] at heq
    obtain ⟨task, htask, hsame⟩ := Option.map_eq_some_iff.mp heq.symm
    refine ⟨task, htask, ?_⟩
    rw [Prod.mk.injEq] at hsame
    unfold HandlerTask.held at hevent ⊢
    rwa [hsame.1, hsame.2]
  -- one task goes on, with no event that it did not have
  have hinsert : ∀ {i : Uuid} {task task₁ : HandlerTask}, s.tasks[i]? = some task →
      s'.tasks = s.tasks.insert i task₁ → (event ∈ task₁.held → event ∈ task.held) →
      ∃ task, s.tasks[id]? = some task ∧ event ∈ task.held := by
    intro i task task₁ htask htasks hsub
    rw [htasks, Std.ExtTreeMap.getElem?_insert] at htask'
    split at htask'
    · rename_i heq
      obtain rfl : i = id := by simpa using heq
      cases htask'
      exact ⟨task, htask, hsub hevent⟩
    · exact ⟨task', htask', hevent⟩
  cases a with
  | publisher b => exact .inl (hjournal (by rw [(stepPublisher_cases h).journal_eq]))
  | shutdown b => exact .inl (hjournal (by rw [(stepShutdown_cases h).journal_eq]))
  | worker b =>
    cases stepWorker_cases h with
    | @push e sends i task hworker hi htask haccepts =>
      by_cases hpushed : i = id ∧ event = e
      · obtain ⟨rfl, rfl⟩ := hpushed
        exact .inr ⟨sends, hworker, hi⟩
      · refine .inl ?_
        replace htask' : (s.tasks.insert i { task with channel := task.channel.push e })[id]?
            = some task' := htask'
        rw [Std.ExtTreeMap.getElem?_insert] at htask'
        split at htask'
        · rename_i heq
          obtain rfl : i = id := by simpa using heq
          cases htask'
          refine ⟨task, htask, ?_⟩
          have hne : event ≠ e := fun heq => hpushed ⟨rfl, heq⟩
          simpa [HandlerTask.held, Mpsc.Channel.push, hne] using hevent
        · exact ⟨task', htask', hevent⟩
    | _ => exact .inl ⟨task', htask', hevent⟩
  | handler i b =>
    obtain ⟨task, htask, hstep⟩ := stepHandler_cases h
    refine .inl ?_
    cases hstep with
    | recv hphase hbuffer =>
      exact hinsert htask rfl (by simp [HandlerTask.held, hphase, hbuffer, HandlerPhase.event,
        or_comm])
    | closed hphase hbuffer =>
      exact hinsert htask rfl (by simp [HandlerTask.held, HandlerPhase.event,
        Mpsc.Channel.dropReceiver])
    | interrupt hphase =>
      exact hinsert htask rfl (by simp [HandlerTask.held, HandlerPhase.event,
        Mpsc.Channel.dropReceiver])
    | ack hphase =>
      exact hinsert htask rfl (by simp +contextual [HandlerTask.held, HandlerPhase.event])
    | giveUp hphase hafter hdlq =>
      exact hinsert htask rfl (by simp [HandlerTask.held, HandlerPhase.event, hphase])
    | fail hphase hafter hdlq =>
      exact hinsert htask rfl (by simp +contextual [HandlerTask.held, HandlerPhase.event])
    | backOff hphase hafter =>
      exact hinsert htask rfl (by simp [HandlerTask.held, HandlerPhase.event, hphase])
    | overflow hphase hafter =>
      exact hinsert htask rfl (by simp [HandlerTask.held, HandlerPhase.event,
        Mpsc.Channel.dropReceiver])
    | panic hphase =>
      exact hinsert htask rfl (by simp [HandlerTask.held, HandlerPhase.event,
        Mpsc.Channel.dropReceiver])
    | deadLetter hphase hdlq =>
      exact hinsert htask rfl (by simp +contextual [HandlerTask.held, HandlerPhase.event])
    | retry hphase =>
      exact hinsert htask rfl (by simp [HandlerTask.held, HandlerPhase.event, hphase])
    | cancelled hphase =>
      exact hinsert htask rfl (by simp [HandlerTask.held, HandlerPhase.event,
        Mpsc.Channel.dropReceiver])
  | subscriber b =>
    refine .inl ?_
    cases stepSubscriber_cases h with
    | @subscribe eventType typeName entry hfresh =>
      replace htask' : (s.tasks.insert entry.id
          ⟨.new config.handlerChannelSize, .selecting, false, false⟩)[id]? = some task' := htask'
      rw [Std.ExtTreeMap.getElem?_insert] at htask'
      split at htask'
      · cases htask'
        cases hevent
      · exact ⟨task', htask', hevent⟩
    | signal htask => exact hinsert htask rfl fun h => h
    | unsubscribe => exact hjournal (by rw [journal_abort]; rfl)
    | autoUnsubscribe => exact hjournal (by rw [journal_abort]; rfl)
    | _ => exact ⟨task', htask', hevent⟩

/-! ## The events of the bus -/

/-- `P` holds of every event on its way to a handler. -/
structure Carries (P : ArcEnvelope → Prop) (s : MemoryBus) : Prop where
  queued : ∀ event ∈ s.queue.buffer, P event
  asleep : ∀ event ∈ s.sleepers, P event
  inHand : ∀ event, s.worker.event = some event → P event
  held : ∀ (id : Uuid) (task : HandlerTask), s.tasks[id]? = some task →
    ∀ event ∈ task.held, P event

theorem Carries.imp {P Q : ArcEnvelope → Prop} (hPQ : ∀ event, P event → Q event)
    (h : s.Carries P) : s.Carries Q where
  queued event hevent := hPQ event (h.queued event hevent)
  asleep event hevent := hPQ event (h.asleep event hevent)
  inHand event hevent := hPQ event (h.inHand event hevent)
  held id task htask event hevent := hPQ event (h.held id task htask event hevent)

theorem carries_build (P : ArcEnvelope → Prop) : (build config).Carries P where
  queued event hevent := by cases hevent
  asleep event hevent := by cases hevent
  inHand event hevent := by cases hevent
  held id task htask := by simp [build] at htask

section Carries

variable {P : ArcEnvelope → Prop}

theorem PublisherStep.carried (h : PublisherStep config s s') (hs : s.Carries P)
    (hcalls : ∀ n call, s.calls[n]? = some call → P ⟨n, call.envelope⟩) :
    (∀ event ∈ s'.queue.buffer, P event) ∧ ∀ event ∈ s'.sleepers, P event := by
  have hpush : ∀ {event : ArcEnvelope}, P event →
      ∀ e ∈ (s.queue.push event).buffer, P e := by
    intro event hevent e he
    rcases List.mem_append.mp he with hold | hnew
    · exact hs.queued e hold
    · rwa [List.mem_singleton.mp hnew]
  have herase : ∀ index, ∀ event ∈ s.sleepers.eraseIdx index, P event :=
    fun index event hevent => hs.asleep event (List.mem_of_mem_eraseIdx hevent)
  cases h with
  | @schedule n call dispatcher hcall hphase hdispatcher sleepers hsleepers =>
    refine ⟨hs.queued, fun event hevent => ?_⟩
    replace hevent : event ∈ sleepers := hevent
    rw [hsleepers] at hevent
    split at hevent
    · rcases List.mem_append.mp hevent with hold | hnew
      · exact hs.asleep event hold
      · rw [List.mem_singleton.mp hnew]
        exact hcalls n call hcall
    · exact hs.asleep event hevent
  | enter hcall => exact ⟨hpush (hcalls _ _ hcall), hs.asleep⟩
  | wake hevent => exact ⟨hpush (hs.asleep _ (List.mem_of_getElem? hevent)), herase _⟩
  | lose hevent => exact ⟨hs.queued, herase _⟩
  | _ => exact ⟨hs.queued, hs.asleep⟩

theorem WorkerStep.carried {a : WorkerAction} (h : WorkerStep config s a s') (hs : s.Carries P) :
    (∀ event ∈ s'.queue.buffer, P event) ∧ ∀ event, s'.worker.event = some event → P event := by
  have hnone : ∀ event, none = some event → P event := fun _ h => by cases h
  have hempty : ∀ event ∈ ([] : List ArcEnvelope), P event := fun _ h => by cases h
  cases h with
  | recv hworker hbuffer =>
    have hbefore := hs.queued
    rw [hbuffer] at hbefore
    refine ⟨fun e he => hbefore e (List.mem_cons_of_mem _ he), fun e he => ?_⟩
    cases he
    exact hbefore _ List.mem_cons_self
  | drained => exact ⟨hempty, hnone⟩
  | halt => exact ⟨hempty, hnone⟩
  | panic => exact ⟨hempty, hnone⟩
  | finish => exact ⟨hs.queued, hnone⟩
  | timeout => exact ⟨hs.queued, hnone⟩
  | select hworker => exact ⟨hs.queued, fun e he => hs.inHand e (by rw [hworker]; exact he)⟩
  | push hworker => exact ⟨hs.queued, fun e he => hs.inHand e (by rw [hworker]; exact he)⟩
  | miss hworker => exact ⟨hs.queued, fun e he => hs.inHand e (by rw [hworker]; exact he)⟩

/-- **No step makes an event up**: the bus carries what it carried, and the events of its
    publish calls. -/
theorem Carries.step {a : Action} (hs : s.Carries P)
    (hcalls : ∀ n call, s.calls[n]? = some call → P ⟨n, call.envelope⟩)
    (h : MemoryBus.step config s a = some s') : s'.Carries P := by
  have hheld : ∀ (id : Uuid) (task : HandlerTask), s'.tasks[id]? = some task →
      ∀ event ∈ task.held, P event := by
    intro id task htask event hevent
    rcases held_step h htask hevent with ⟨task₁, htask₁, hold⟩ | ⟨sends, hworker, -⟩
    · exact hs.held id task₁ htask₁ event hold
    · exact hs.inHand event (by rw [hworker]; rfl)
  cases a with
  | publisher b =>
    obtain ⟨hqueued, hasleep⟩ := (stepPublisher_cases h).carried hs hcalls
    exact ⟨hqueued, hasleep, by rw [worker_of_not_worker h (by simp)]; exact hs.inHand, hheld⟩
  | worker b =>
    obtain ⟨hqueued, hhand⟩ := (stepWorker_cases h).carried hs
    exact ⟨hqueued, by rw [(of_not_publisher h (by simp)).2.1]; exact hs.asleep, hhand, hheld⟩
  | _ =>
    refine ⟨?_, ?_, ?_, hheld⟩
    · rw [queue_of_other h (by simp) (by simp)]
      exact hs.queued
    · rw [(of_not_publisher h (by simp)).2.1]
      exact hs.asleep
    · rw [worker_of_not_worker h (by simp)]
      exact hs.inHand

end Carries

/-- An event is the event of the call it is named after. -/
def Names (s : MemoryBus) (event : ArcEnvelope) : Prop :=
  s.published[event.addr]? = some event.envelope

/-- All the events on their way are. -/
def Traced (s : MemoryBus) : Prop := s.Carries s.Names

theorem Names.step {a : Action} {event : ArcEnvelope} (hs : s.Names event)
    (h : MemoryBus.step config s a = some s') : s'.Names event := by
  unfold Names at hs ⊢
  rw [published_step h, List.getElem?_append_left (List.getElem?_eq_some_iff.mp hs).1]
  exact hs

theorem traced_build : (build config).Traced := carries_build _

theorem Traced.step {a : Action} (hs : s.Traced) (h : MemoryBus.step config s a = some s') :
    s'.Traced := by
  refine Carries.imp (fun event hevent => hevent.step h) (Carries.step hs ?_ h)
  intro n call hcall
  show (s.calls.map (·.envelope))[n]? = some call.envelope
  rw [List.getElem?_map, hcall]
  rfl

end MemoryBus
end TokioEvents
