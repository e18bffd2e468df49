/-
  TokioEvents.Persistence.OrderedDelivery

  Events reach every handler of a persistent bus in the order of the dispatcher queue.

  Batches, the duplicate check, the write transaction and the dispatch loop keep the order
  of the messages, and so do the channel of a subscription and what is left of it when it
  is closed.  So the events a handler has taken, then those in its channel, then the one
  that `dispatch` holds for it, then the batch and the queue, form a subsequence of what
  publishers, the scheduler and replay calls have put into the queue.
-/

import TokioEvents.Persistence.Bus.Crowd
import TokioEvents.Persistence.Bus.Ring

namespace TokioEvents

/-- The events taken up by the handler of the subscription, in turn. -/
def Log.takenBy (log : Log) (i : Uuid) : List Uuid :=
  (log.taken.filter fun pair => pair.1 = i).map (·.2)

/-- The event that `dispatch` holds for the subscription. -/
def Worker.underway (i : Uuid) : Worker → List Uuid
  | .dispatching envelope sends _ => if i ∈ sends then [envelope.eventId] else []
  | _ => []

namespace PersistentBus

variable {json : SerdeJson} {config : BusConfig} {s s' : PersistentBus} {log log' : Log}
  {queued queued' : List Uuid} {i : Uuid}

/-- The events with the worker and in the queue, oldest first. -/
def upcoming (s : PersistentBus) : List Uuid :=
  (s.worker.messages ++ s.queue.buffer).map (·.envelope.eventId)

/-- The events that wait for the handler of the subscription, oldest first. -/
def pending (s : PersistentBus) (i : Uuid) : List Uuid :=
  (s.closed[i]?.getD [] ++ s.manager.subscriptions[i]?.elim [] (·.channel)).map (·.eventId)

/-- What a step adds at the end of the queue. -/
def enqueued (s s' : PersistentBus) : List Uuid :=
  (s'.queue.buffer.drop s.queue.buffer.length).map (·.envelope.eventId)

/-- The log of a run beside the events that entered the queue. -/
def recordQueued (json : SerdeJson) (s : PersistentBus) (a : Action) (s' : PersistentBus)
    (h : Log × List Uuid) : Log × List Uuid :=
  (record json s a s' h.1, h.2 ++ s.enqueued s')

/-- The system with its log and the events that entered the queue. -/
def stepQueued (json : SerdeJson) (config : BusConfig) :
    PersistentBus × Log × List Uuid → Action → Option (PersistentBus × Log × List Uuid) :=
  Transition.withHistory (step json config) (recordQueued json)

/-- A subscription has an id of its own: it is not registered already, and no handler is
    still at work on a closed channel of this id. -/
def OwnId (s : PersistentBus) : Action → Prop
  | .handler (.registry (.register _ _ entry)) =>
    s.manager.registry.inner.subscriptionToType[entry.id]? = none
  | .handler (.openChannel id) => s.closed[id]? = none
  | _ => True

instance (s : PersistentBus) : (a : Action) → Decidable (s.OwnId a)
  | .handler (.registry (.register _ _ entry)) =>
    inferInstanceAs (Decidable (s.manager.registry.inner.subscriptionToType[entry.id]? = none))
  | .handler (.openChannel id) => inferInstanceAs (Decidable (s.closed[id]? = none))
  | .handler (.registry (.unregister _)) | .handler (.registry (.deactivate _))
  | .handler (.registry (.incrementProcessed _)) | .handler (.registry .clear)
  | .handler (.removeChannel _) | .handler (.closeChannel _) | .handler (.take _)
  | .handler (.complete _ _) | .handler (.exit _) | .handler (.ack _) => isTrue trivial
  | .publisher _ | .worker _ | .scheduler _ | .replay _ | .control _ => isTrue trivial

/-! ## The invariant -/

/-- Every handler gets events in the order of the queue, and so does `dispatch`. -/
structure InOrder (s : PersistentBus) (log : Log) (queued : List Uuid) : Prop where
  registered : ∃ live, s.manager.registry.inner.Refines live
  nodup : s.worker.sends.Nodup
  closed : ∀ i : Uuid, (s.manager.subscriptions[i]?).isSome → s.closed[i]? = none
  handed : (log.handed ++ s.upcoming).Sublist queued
  taken : ∀ i, (log.takenBy i ++ (s.pending i ++ (s.worker.underway i ++ s.upcoming))).Sublist
    queued

theorem inOrder_boot (json : SerdeJson) (config : BusConfig) (db : Db) :
    (boot json config db).InOrder .empty [] where
  registered := ⟨[], DashMapRegistry.refines_new⟩
  nodup := List.nodup_nil
  closed i h := by simp [boot] at h
  handed := by simp [boot, upcoming, Log.empty, Worker.messages]
  taken i := by
    simp [boot, upcoming, pending, Log.takenBy, Log.empty, Worker.messages, Worker.underway]

/-- A step that leaves the subscriptions alone. -/
structure SameSubscribers (s s' : PersistentBus) : Prop where
  manager : s'.manager = s.manager
  closed : s'.closed = s.closed

theorem SameSubscribers.pending (h : SameSubscribers s s') (i : Uuid) :
    s'.pending i = s.pending i := by
  unfold PersistentBus.pending
  rw [h.manager, h.closed]

theorem SameHandling.sameSubscribers (h : SameHandling s s') : SameSubscribers s s' :=
  ⟨h.manager, h.closed⟩

/-- A step of the worker that keeps what it has in order, or drops some of it. -/
theorem InOrder.shrink (hI : s.InOrder log queued) (hsame : SameSubscribers s s')
    (hnodup : s'.worker.sends.Nodup) (htaken : log'.taken = log.taken)
    (hhanded : (log'.handed ++ s'.upcoming).Sublist (log.handed ++ s.upcoming))
    (hunderway : ∀ i, (s'.worker.underway i ++ s'.upcoming).Sublist
      (s.worker.underway i ++ s.upcoming)) : s'.InOrder log' queued where
  registered := by rw [hsame.manager]; exact hI.registered
  nodup := hnodup
  closed := by rw [hsame.manager, hsame.closed]; exact hI.closed
  handed := hhanded.trans (hI.handed)
  taken i := by
    rw [hsame.pending, Log.takenBy, htaken]
    exact ((hunderway i).append_left _ |>.append_left _).trans (hI.taken i)

/-- A step that puts messages into the queue. -/
theorem InOrder.feed (hI : s.InOrder log queued) (hsame : SameHandling s s')
    {injected : List RedbDispatcherMessage} (hqueue : s'.queue.buffer = s.queue.buffer ++ injected)
    (htaken : log'.taken = log.taken) (hhanded : log'.handed = log.handed) :
    s'.InOrder log' (queued ++ s.enqueued s') := by
  have hupcoming : s'.upcoming = s.upcoming ++ s.enqueued s' := by
    simp [upcoming, enqueued, hsame.worker, hqueue]
  constructor
  case registered => rw [hsame.manager]; exact hI.registered
  case nodup => rw [hsame.worker]; exact hI.nodup
  case closed => rw [hsame.manager, hsame.closed]; exact hI.closed
  case handed =>
    rw [hhanded, hupcoming, ← List.append_assoc]
    exact hI.handed.append_right _
  case taken =>
    intro i
    rw [hupcoming, hsame.worker, hsame.sameSubscribers.pending i, Log.takenBy, htaken]
    have hmore := (hI.taken i).append_right (s.enqueued s')
    simp only [List.append_assoc] at hmore ⊢
    exact hmore

/-! ## The worker -/

/-- The last events in a channel come from `dispatch`. -/
theorem pending_push (envelope : EventEnvelope) (worker : Worker) (id i : Uuid) :
    ({ s with
      worker := worker
      manager := { s.manager with
        subscriptions := SubscriptionManager.push envelope s.manager.subscriptions id }
      closed := pushClosed envelope s id }).pending i = s.pending i ∨
    id = i ∧ ({ s with
      worker := worker
      manager := { s.manager with
        subscriptions := SubscriptionManager.push envelope s.manager.subscriptions id }
      closed := pushClosed envelope s id }).pending i = s.pending i ++ [envelope.eventId] := by
  unfold pending
  dsimp only
  rw [SubscriptionManager.getElem?_push, getElem?_pushClosed]
  by_cases hid : id = i
  · subst hid
    cases hdata : s.manager.subscriptions[id]? with
    | none =>
      -- the channel is left to its handler, or gone
      cases hclosed : s.closed[id]? with
      | none => exact .inl (by simp)
      | some channel => exact .inr ⟨rfl, by simp⟩
    | some data =>
      cases hlive : data.live with
      | false => exact .inl (by simp [hlive])
      | true => exact .inr ⟨rfl, by simp [hlive]⟩
  · exact .inl (by simp [hid])

/-- **One step of the worker** keeps the order. -/
theorem InOrder.stepWorker {a : WorkerAction} (hI : s.InOrder log queued)
    (h : s.stepWorker json config a = some s') :
    s'.InOrder (record json s (.worker a) s' log) queued := by
  have hnone : ∀ t : PersistentBus, t.upcoming = [] → t.worker.sends = [] →
      ∀ i, (t.worker.underway i ++ t.upcoming).Sublist (s.worker.underway i ++ s.upcoming) := by
    intro t hupcoming hsends i
    have hunderway : t.worker.underway i = [] := by
      unfold Worker.underway
      split
      · rename_i hphase
        rw [hphase] at hsends
        cases hsends
        rfl
      · rfl
    rw [hunderway, hupcoming]
    exact List.nil_sublist _
  have hstop : s.stopWorker.InOrder log queued := by
    have hupcoming : s.stopWorker.upcoming = [] := rfl
    refine hI.shrink ⟨rfl, rfl⟩ List.nodup_nil rfl ?_ (hnone _ hupcoming rfl)
    rw [hupcoming]
    exact (List.nil_sublist _).append_left _
  cases a with
  | recv =>
    obtain ⟨hphase, ⟨msg, rest, hqueue, rfl⟩ | ⟨-, rfl⟩⟩ := recv_cases h
    · refine hI.shrink ⟨rfl, rfl⟩ List.nodup_nil rfl ?_ fun i => ?_
      · simp [record, upcoming, hphase, hqueue, Worker.messages]
      · simp [upcoming, hphase, hqueue, Worker.messages, Worker.underway]
    · exact hstop
  | tryRecv =>
    obtain ⟨batch, msg, rest, hphase, hqueue, rfl⟩ := tryRecv_cases h
    refine hI.shrink ⟨rfl, rfl⟩ List.nodup_nil rfl ?_ fun i => ?_
    · simp [record, upcoming, hphase, hqueue, Worker.messages]
    · simp [upcoming, hphase, hqueue, Worker.messages, Worker.underway]
  | check reads =>
    obtain ⟨batch, checked, hphase, rfl, rfl⟩ := check_cases h
    have hupcoming := ((DupCheck.valid_sublist RedbDispatcherMessage.idempotencyKey
      (fun key => reads key && s.db.keyRecorded key) batch).append_right s.queue.buffer).map
        (·.envelope.eventId)
    refine hI.shrink ⟨rfl, rfl⟩ List.nodup_nil rfl ?_ fun i => ?_
    · simpa [record, upcoming, hphase, Worker.messages] using hupcoming.append_left log.handed
    · simpa [upcoming, hphase, Worker.messages, Worker.underway] using hupcoming
  | count now =>
    obtain ⟨done, msg, rest, n, hphase, -, rfl⟩ := count_cases h
    refine hI.shrink ⟨rfl, rfl⟩ List.nodup_nil ?_ ?_ fun i => ?_
    · simp [record, hphase]
    · simp [record, upcoming, hphase, Worker.messages]
    · simp [upcoming, hphase, Worker.messages, Worker.underway]
  | write faults =>
    obtain ⟨done, hphase, ⟨hresult, rfl⟩ | ⟨msg, hresult, rfl⟩ | ⟨hresult, rfl⟩⟩ := write_cases h
    · refine hI.shrink ⟨rfl, rfl⟩ List.nodup_nil ?_ ?_ fun i => ?_
      · simp [record, hphase, hresult]
      · simp [record, hresult, upcoming, hphase, Worker.messages]
      · simp [upcoming, hphase, Worker.messages, Worker.underway]
    · refine hI.shrink ⟨rfl, rfl⟩ List.nodup_nil ?_ ?_ fun i => ?_
      · simp [record, hphase, hresult]
      · simp [record, hresult, upcoming, hphase, Worker.messages]
      · simp [upcoming, hphase, Worker.messages, Worker.underway]
    · -- the batch is given up
      refine hI.shrink ⟨rfl, rfl⟩ List.nodup_nil ?_ ?_ fun i => ?_
      · simp [record, hphase, hresult]
      · simp [record, hresult, upcoming, hphase, Worker.messages]
      · simp [upcoming, hphase, Worker.messages, Worker.underway]
  | deliver now =>
    obtain ⟨hphase, rfl⟩ | ⟨msg, rest, hphase, ⟨hscheduled, rfl⟩ | ⟨hdue, rfl⟩⟩ := deliver_cases h
    · refine hI.shrink ⟨rfl, rfl⟩ List.nodup_nil ?_ ?_ fun i => ?_
      · simp [record, hphase]
      · simp [record, upcoming, hphase, Worker.messages]
      · simp [upcoming, hphase, Worker.messages, Worker.underway]
    · refine hI.shrink ⟨rfl, rfl⟩ List.nodup_nil ?_ ?_ fun i => ?_
      · simp [record, hphase, hscheduled]
      · simp [record, hscheduled, upcoming, hphase, Worker.messages]
      · simp [upcoming, hphase, Worker.messages, Worker.underway]
    · obtain ⟨live, hrefines⟩ := hI.registered
      refine hI.shrink ⟨rfl, rfl⟩ (nodup_senders hrefines msg.envelope) ?_ ?_ fun i => ?_
      · simp [record, hphase, hdue]
      · simp [record, hdue, upcoming, hphase, Worker.messages]
      · simp only [upcoming, hphase, Worker.messages, Worker.underway]
        split
        · simp
        · simp
  | push id =>
    obtain ⟨envelope, sends, rest, hphase, hmem, rfl⟩ := push_cases h
    have hnodup : sends.Nodup := by simpa [hphase, Worker.sends] using hI.nodup
    have hsubscriptions := SubscriptionManager.getElem?_push envelope s.manager.subscriptions id
    constructor
    case registered => exact hI.registered
    case nodup => exact hnodup.erase id
    case closed =>
      intro i hsome
      have hclosed := hI.closed i (by simpa [hsubscriptions] using hsome)
      simp [getElem?_pushClosed, hclosed]
    case handed => simpa [record, upcoming, hphase, Worker.messages] using hI.handed
    case taken =>
      intro i
      refine List.Sublist.trans ?_ (hI.taken i)
      refine List.Sublist.append_left ?_ (log.takenBy i)
      have hupcoming : s.upcoming = (rest ++ s.queue.buffer).map (·.envelope.eventId) := by
        simp [upcoming, hphase, Worker.messages]
      have hunderway : s.worker.underway i = if i ∈ sends then [envelope.eventId] else [] := by
        rw [hphase, Worker.underway]
      rcases pending_push (s := s) envelope (.dispatching envelope (sends.erase id) rest) id i with
        hpending | ⟨rfl, hpending⟩
      · rw [hpending, hupcoming, hunderway]
        refine List.Sublist.append_left (List.Sublist.append_right ?_ _) _
        simp only [Worker.underway]
        split
        · rename_i hi
          rw [if_pos (List.mem_of_mem_erase hi)]
        · exact List.nil_sublist _
      · -- the event moves from `dispatch` to the channel
        rw [hpending, hupcoming, hunderway, if_pos hmem]
        simp [Worker.underway, hnodup.not_mem_erase, upcoming, Worker.messages]
  | dispatched =>
    obtain ⟨envelope, sends, rest, hphase, rfl⟩ := dispatched_cases h
    refine hI.shrink ⟨rfl, rfl⟩ List.nodup_nil rfl ?_ fun i => ?_
    · simp [record, upcoming, hphase, Worker.messages]
    · simp [upcoming, hphase, Worker.messages, Worker.underway]
  | panic =>
    obtain ⟨-, rfl⟩ := workerPanic_cases h
    exact hstop

/-! ## The handlers -/

/-- A step behind the manager, by what it does to each subscription: a handler moves the
    first of its pending events to the log, and the others only drop some of theirs. -/
theorem InOrder.handle (hI : s.InOrder log queued)
    (hregistered : ∃ live, s'.manager.registry.inner.Refines live) (hworker : s'.worker = s.worker)
    (hqueue : s'.queue = s.queue) (hhanded : log'.handed = log.handed)
    (hclosed : ∀ i : Uuid, (s'.manager.subscriptions[i]?).isSome → s'.closed[i]? = none)
    (htaken : ∀ i, (log'.takenBy i ++ s'.pending i).Sublist (log.takenBy i ++ s.pending i)) :
    s'.InOrder log' queued := by
  have hupcoming : s'.upcoming = s.upcoming := by rw [upcoming, upcoming, hworker, hqueue]
  refine ⟨hregistered, hworker ▸ hI.nodup, hclosed, ?_, fun i => ?_⟩
  · rw [hhanded, hupcoming]
    exact hI.handed
  · rw [hworker, hupcoming, ← List.append_assoc]
    have hbefore := hI.taken i
    rw [← List.append_assoc] at hbefore
    exact ((htaken i).append_right _).trans hbefore

theorem takenBy_concat (log : Log) (id i e : Uuid) (invoked : List (Uuid × String)) :
    ({ log with taken := log.taken ++ [(id, e)], invoked := invoked }).takenBy i
      = log.takenBy i ++ if id = i then [e] else [] := by
  unfold Log.takenBy
  by_cases hid : id = i <;> simp [hid]

theorem subscriptions_handlerExit (s : PersistentBus) (id i : Uuid) :
    (s.handlerExit id).manager.subscriptions[i]?
      = (s.manager.subscriptions[i]?).map fun data => if id = i then ⟨[], false⟩ else data := by
  unfold handlerExit
  dsimp only
  by_cases hid : id = i
  · subst hid
    cases hdata : s.manager.subscriptions[id]? <;> simp [hdata]
  · split <;> simp [Std.ExtTreeMap.getElem?_insert, hid]

theorem InOrder.stepHandler {a : HandlerAction} (hI : s.InOrder log queued)
    (hC : s.OwnId (.handler a)) (h : s.stepHandler a = some s') :
    s'.InOrder (record json s (.handler a) s' log) queued := by
  obtain ⟨live, hrefines⟩ := hI.registered
  have hregistered := refines_stepHandler h hrefines fun t n entry ha => by
    subst ha
    exact hC
  obtain ⟨hqueue, -, -⟩ := stepHandler_sameInputs h
  obtain ⟨-, hworker, -, -⟩ := stepHandler_frame h
  -- a subscription that is only left, or not there, has nothing pending
  have hquiet : (∀ i : Uuid, (s'.manager.subscriptions[i]?).isSome → s'.closed[i]? = none) →
      (∀ i, (s'.pending i).Sublist (s.pending i)) → ∀ log' : Log, log'.taken = log.taken →
      log'.handed = log.handed → s'.InOrder log' queued := by
    intro hclosed hpending log' htaken hhanded
    refine hI.handle hregistered hworker hqueue hhanded hclosed fun i => ?_
    rw [Log.takenBy, htaken]
    exact (hpending i).append_left _
  cases a with
  | registry op =>
    cases h
    exact hquiet hI.closed (fun i => List.Sublist.refl _) _ rfl rfl
  | openChannel id =>
    obtain ⟨hnone, rfl⟩ := openChannel_cases h
    refine hquiet (fun i hsome => ?_) (fun i => ?_) _ rfl rfl
    · by_cases hid : id = i
      · subst hid
        exact hC
      · simp only [Std.ExtTreeMap.getElem?_insert, Std.compare_eq_iff_eq, hid, ↓reduceIte] at hsome
        exact hI.closed i hsome
    · by_cases hid : id = i
      · subst hid
        simp [pending]
      · simp [pending, Std.ExtTreeMap.getElem?_insert, hid]
  | removeChannel id =>
    cases h
    refine hquiet (fun i hsome => ?_) (fun i => ?_) _ rfl rfl
    · by_cases hid : id = i
      · simp [removeChannel, hid] at hsome
      · simp only [removeChannel, Std.ExtTreeMap.getElem?_erase, Std.compare_eq_iff_eq, hid,
          ↓reduceIte] at hsome
        exact hI.closed i hsome
    · by_cases hid : id = i
      · subst hid
        simp [pending, removeChannel]
      · simp [pending, removeChannel, Std.ExtTreeMap.getElem?_erase, hid]
  | closeChannel id =>
    obtain ⟨data, hdata, rfl⟩ := closeChannel_cases h
    have hunclosed : s.closed[id]? = none := hI.closed id (by simp [hdata])
    refine hquiet (fun i hsome => ?_) (fun i => ?_) _ rfl rfl
    · by_cases hid : id = i
      · simp [hid] at hsome
      · simp only [Std.ExtTreeMap.getElem?_erase, Std.compare_eq_iff_eq, hid, ↓reduceIte] at hsome
        dsimp only
        split
        · simpa [Std.ExtTreeMap.getElem?_insert, hid] using hI.closed i hsome
        · exact hI.closed i hsome
    · by_cases hid : id = i
      · -- what is left in the channel stays with its handler
        subst hid
        cases data.live <;> simp [pending, hdata, hunclosed]
      · cases data.live <;>
          simp [pending, Std.ExtTreeMap.getElem?_erase, Std.ExtTreeMap.getElem?_insert, hid]
  | take id =>
    obtain ⟨-, envelope, rest, ⟨hdata, rfl⟩ | ⟨hleft, rfl⟩⟩ := handlerTake_cases h
    · have hunclosed : s.closed[id]? = none := hI.closed id (by simp [hdata])
      refine hI.handle hregistered hworker hqueue rfl (fun i hsome => ?_) fun i => ?_
      · by_cases hid : id = i
        · exact hid ▸ hunclosed
        · simp only [Std.ExtTreeMap.getElem?_insert, Std.compare_eq_iff_eq, hid, ↓reduceIte]
            at hsome
          exact hI.closed i hsome
      · simp only [record, working, Std.ExtTreeMap.getElem?_insert_self, Option.elim_some]
        rw [takenBy_concat]
        by_cases hid : id = i
        · subst hid
          simp [pending, hunclosed, hdata]
        · simp [pending, Std.ExtTreeMap.getElem?_insert, hid]
    · have hunsubscribed : s.manager.subscriptions[id]? = none := by
        cases hdata : s.manager.subscriptions[id]? with
        | none => rfl
        | some data =>
          have := hI.closed id (by simp [hdata])
          rw [hleft] at this
          cases this
      refine hI.handle hregistered hworker hqueue rfl (fun i hsome => ?_) fun i => ?_
      · by_cases hid : id = i
        · subst hid
          simp [hunsubscribed] at hsome
        · simpa [Std.ExtTreeMap.getElem?_insert, hid] using hI.closed i hsome
      · simp only [record, working, Std.ExtTreeMap.getElem?_insert_self, Option.elim_some]
        rw [takenBy_concat]
        by_cases hid : id = i
        · subst hid
          simp [pending, hunsubscribed, hleft]
        · simp [pending, Std.ExtTreeMap.getElem?_insert, hid]
  | complete id isSuccess =>
    obtain ⟨envelope, registry, -, -, -, rfl⟩ := handlerComplete_cases h
    exact hquiet hI.closed (fun i => List.Sublist.refl _) _ rfl rfl
  | exit id =>
    cases h
    have hleft : ∀ i : Uuid, (s.handlerExit id).closed[i]? = if id = i then none else s.closed[i]? :=
      fun i => by simp [handlerExit, Std.ExtTreeMap.getElem?_erase]
    refine hquiet (fun i hsome => ?_) (fun i => ?_) _ rfl rfl
    · rw [subscriptions_handlerExit, Option.isSome_map] at hsome
      rw [hleft, hI.closed i hsome, ite_self]
    · unfold pending
      rw [subscriptions_handlerExit, hleft]
      by_cases hid : id = i
      · cases s.manager.subscriptions[i]? <;> simp [hid]
      · cases s.manager.subscriptions[i]? <;> simp [hid]
  | ack commits =>
    obtain ⟨completion, rest, -, rfl⟩ := ack_step_cases h
    exact hquiet hI.closed (fun i => List.Sublist.refl _) _ rfl rfl

/-! ## Runs -/

/-- A step that neither feeds the queue nor empties it. -/
theorem enqueued_eq_nil (h : s'.queue.buffer.length ≤ s.queue.buffer.length) :
    s.enqueued s' = [] := by
  simp [enqueued, List.drop_eq_nil_of_le h]

/-- A process that starts has nothing on its way. -/
theorem inOrder_crash (hI : s.InOrder log queued) (json : SerdeJson) (config : BusConfig) :
    (s.crash json config).InOrder log queued where
  registered := ⟨[], DashMapRegistry.refines_new⟩
  nodup := List.nodup_nil
  closed i h := by simp [crash, boot] at h
  handed := by
    refine List.Sublist.trans ?_ hI.handed
    simp [crash, boot, upcoming, Worker.messages]
  taken i := by
    refine List.Sublist.trans ?_ (hI.taken i)
    simp [crash, boot, upcoming, pending, Worker.messages, Worker.underway]

theorem InOrder.stepControl {a : ControlAction} (hI : s.InOrder log queued)
    (h : s.stepControl json config a = some s') :
    s'.InOrder (record json s (.control a) s' log) (queued ++ s.enqueued s') := by
  by_cases hcrash : a = .crash
  · subst hcrash
    cases h
    rw [enqueued_eq_nil (by simp [crash, boot]), List.append_nil]
    exact inOrder_crash hI json config
  · have hsame := stepControl_sameWork h hcrash
    rw [enqueued_eq_nil (by rw [hsame.queue]), List.append_nil]
    have hlog : record json s (.control a) s' log = log := rfl
    rw [hlog]
    have hworker : s'.worker.messages = s.worker.messages ∧ s'.worker.sends = s.worker.sends ∧
        ∀ i, s'.worker.underway i = s.worker.underway i := by
      rcases hsame.worker with heq | ⟨hunspawned, heq⟩
      · rw [heq]
        exact ⟨rfl, rfl, fun _ => rfl⟩
      · rw [heq, hunspawned]
        exact ⟨rfl, rfl, fun _ => rfl⟩
    have hupcoming : s'.upcoming = s.upcoming := by
      rw [upcoming, upcoming, hworker.1, hsame.queue]
    refine hI.shrink ⟨hsame.manager, hsame.closed⟩ (hworker.2.1 ▸ hI.nodup) rfl ?_ fun i => ?_
    · rw [hupcoming]
    · rw [hupcoming, hworker.2.2]

/-- **One step** keeps the order. -/
theorem InOrder.step {a : Action} (hI : s.InOrder log queued) (hC : s.OwnId a)
    (h : PersistentBus.step json config s a = some s') :
    s'.InOrder (record json s a s' log) (queued ++ s.enqueued s') := by
  cases a with
  | publisher a =>
    obtain ⟨-, -, hqueue⟩ := stepPublisher_queue h
    have hsame := (stepPublisher_frame h).2
    have hlog : (record json s (.publisher a) s' log).taken = log.taken ∧
        (record json s (.publisher a) s' log).handed = log.handed := by
      cases a <;> exact ⟨rfl, rfl⟩
    rcases hqueue with hqueue | ⟨envelope, ackTx, -, hqueue⟩
    · have hnone : s'.queue.buffer = s.queue.buffer ++ [] := by rw [hqueue, List.append_nil]
      exact hI.feed hsame hnone hlog.1 hlog.2
    · exact hI.feed hsame (by rw [hqueue]; rfl) hlog.1 hlog.2
  | worker a =>
    rw [enqueued_eq_nil (stepWorker_queue h).1, List.append_nil]
    exact hI.stepWorker h
  | scheduler a =>
    obtain ⟨-, hsame, hcalls⟩ := stepScheduler_frame h
    obtain ⟨injected, hqueue, -⟩ := hcalls.queue
    exact hI.feed hsame hqueue rfl rfl
  | handler a =>
    rw [enqueued_eq_nil (by rw [(stepHandler_sameInputs h).1]), List.append_nil]
    exact hI.stepHandler hC h
  | replay a =>
    obtain ⟨-, hsame, hcalls⟩ := stepReplay_frame h
    obtain ⟨injected, hqueue, -⟩ := hcalls.queue
    exact hI.feed hsame hqueue rfl rfl
  | control a => exact hI.stepControl h

/-- **Ordered delivery.** In every run of a persistent bus whose subscriptions have ids of
    their own, crashes and replays included, `dispatch` and the handler of every
    subscription get a subsequence of the events that entered the queue. -/
theorem takesInOrder_exec {as : List Action} {t : PersistentBus × Log × List Uuid} {db : Db}
    (hC : Transition.Along (stepQueued json config) (fun t a => t.1.OwnId a)
      (boot json config db, .empty, []) as)
    (h : Transition.exec (stepQueued json config) (boot json config db, .empty, []) as = some t) :
    t.2.1.handed.Sublist t.2.2 ∧ ∀ i, (t.2.1.takenBy i).Sublist t.2.2 := by
  have hI : t.1.InOrder t.2.1 t.2.2 := by
    refine Transition.invariant_along
      (I := fun t : PersistentBus × Log × List Uuid => t.1.InOrder t.2.1 t.2.2)
      (fun u a u' hI hC hstep => ?_) (inOrder_boot json config db) hC h
    obtain ⟨hstep, hrecord⟩ := Transition.withHistory_eq_some.mp hstep
    rw [hrecord]
    exact hI.step hC hstep
  exact ⟨(List.sublist_append_left _ _).trans hI.handed,
    fun i => (List.sublist_append_left _ _).trans (hI.taken i)⟩

/-- Another order. -/
def laterOrder : EventEnvelope :=
  .fromSerialized 1 "OrderEvent" { eventId := 8, timestamp := 0 } .normal []

/-- Two orders are published while the channel of their subscription is being closed: its
    handler takes one before and one after. -/
def ordersInTurn : List Action :=
  crowdArrives 1 ++ [.publisher (.dispatch order), .publisher (.tryDispatch laterOrder),
    .worker .recv, .worker .tryRecv, .worker (.check fun _ => true), .worker (.count 0),
    .worker (.count 0), .worker (.write noFaults), .worker (.deliver 0), .worker (.push 0),
    .worker .dispatched, .worker (.deliver 0), .worker (.push 0), .handler (.take 0),
    .handler (.closeChannel 0), .handler (.complete 0 true), .handler (.take 0)]

theorem inOrder_ordersInTurn : ∃ t,
    Transition.exec (stepQueued orderJson {}) (boot orderJson {} .empty, .empty, []) ordersInTurn
      = some t ∧ t.2.2 = [7, 8] ∧ t.2.1.takenBy 0 = [7, 8] ∧
      t.2.1.handed.Sublist t.2.2 ∧ ∀ i, (t.2.1.takenBy i).Sublist t.2.2 := by
  obtain ⟨t, ht⟩ := Option.isSome_iff_exists.mp
    (by decide +kernel : (Transition.exec (stepQueued orderJson {})
      (boot orderJson {} .empty, .empty, []) ordersInTurn).isSome = true)
  have hC : Transition.Along (stepQueued orderJson {}) (fun t a => t.1.OwnId a)
      (boot orderJson {} .empty, .empty, []) ordersInTurn := by decide +kernel
  have hseen : (Transition.exec (stepQueued orderJson {}) (boot orderJson {} .empty, .empty, [])
      ordersInTurn).map (fun t => (t.2.2, t.2.1.takenBy 0)) = some ([7, 8], [7, 8]) := by
    decide +kernel
  rw [ht] at hseen
  obtain ⟨hqueued, htaken⟩ := Prod.mk.inj (Option.some.inj hseen)
  exact ⟨t, ht, hqueued, htaken, takesInOrder_exec hC ht⟩

end PersistentBus
end TokioEvents
