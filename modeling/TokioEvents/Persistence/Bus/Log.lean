/-
  TokioEvents.Persistence.Bus.Log

  The log of a run: a history variable that records, pair by pair of subscription and
  event, who was counted for an event, who was selected for it by `dispatch`, who took
  it and who finished it.

  A pair is on its way while it waits to be sent, is buffered for its handler, or has
  been taken; `load` counts its places.  No step makes more of a pair than `dispatch`
  selects of it (`load_step`), and no handler finishes more than it has taken
  (`work_step`).  Neither needs a hypothesis, so both hold of every run.
-/

import TokioEvents.Persistence.Bus.Effects
import TokioEvents.Persistence.Refcount

namespace TokioEvents

/-- The log of a run. -/
structure Log where
  /-- Events brought by publishers. -/
  published : List Uuid
  /-- Events that were counted. -/
  tallied : List Uuid
  /-- Subscriptions of the event's type when the event was counted. -/
  counted : List (Uuid × Uuid)
  /-- Events whose row was committed to `EVENTS_TABLE`. -/
  committed : List Uuid
  /-- Events handed to `dispatch`. -/
  handed : List Uuid
  /-- Subscriptions `dispatch` selected for the event. -/
  sent : List (Uuid × Uuid)
  /-- Events taken up by the handler of the subscription. -/
  taken : List (Uuid × Uuid)
  /-- Events that handler is done with, by success or by permanent failure. -/
  finished : List (Uuid × Uuid)
  /-- Keys of the events handed to `dispatch` with someone to send them to. -/
  keys : List String
  /-- Keys of the events taken up, with the subscription whose handler took them. -/
  invoked : List (Uuid × String)
  /-- Ids that were registered. -/
  registered : List Uuid

/-- The log of a run that has not begun. -/
def Log.empty : Log := ⟨[], [], [], [], [], [], [], [], [], [], []⟩

/-- Each of the subscriptions, with the event. -/
def withEvent (ids : List Uuid) (e : Uuid) : List (Uuid × Uuid) := ids.map fun i => (i, e)

@[simp] theorem mem_withEvent {ids : List Uuid} {e e' i : Uuid} :
    (i, e') ∈ withEvent ids e ↔ i ∈ ids ∧ e' = e := by
  simp [withEvent, eq_comm]

theorem count_withEvent (ids : List Uuid) (e i e' : Uuid) :
    (withEvent ids e).count (i, e') = if e = e' then ids.count i else 0 := by
  unfold withEvent
  induction ids with
  | nil => simp
  | cons id ids ih =>
    rw [List.map_cons, List.count_cons, ih, List.count_cons]
    by_cases he : e = e'
    · by_cases hi : id = i <;> simp [he, hi]
    · simp [he]

theorem countP_withEvent (ids : List Uuid) (e e' : Uuid) :
    (withEvent ids e).countP (fun pair => pair.2 == e') = if e = e' then ids.length else 0 := by
  unfold withEvent
  rw [List.countP_map]
  by_cases he : e = e'
  · subst he
    simp [Function.comp_def]
  · simp [Function.comp_def, he]

namespace PersistentBus

variable {json : SerdeJson} {config : BusConfig} {s s' : PersistentBus} {log : Log}

/-- The ids listed for a type. -/
def listed (s : PersistentBus) (t : TypeId) : List Uuid :=
  (s.manager.registry.inner.entries t).map (·.id)

/-- The event a handler works on, as a pair. -/
def working (s : PersistentBus) (id : Uuid) : List (Uuid × Uuid) :=
  s.busy[id]?.elim [] fun envelope => [(id, envelope.eventId)]

/-- Its key, with the subscription. -/
def workingKey (s : PersistentBus) (id : Uuid) : List (Uuid × String) :=
  s.busy[id]?.elim [] fun envelope => (envelope.metadata.idempotencyKey.map (id, ·)).toList

/-- What a step adds to the log. -/
def record (json : SerdeJson) (s : PersistentBus) (a : Action) (s' : PersistentBus) (log : Log) :
    Log :=
  match a with
  | .publisher (.dispatch envelope) =>
    { log with published := log.published ++ [envelope.eventId] }
  | .publisher (.tryDispatch envelope) =>
    { log with published := log.published ++ [envelope.eventId] }
  | .worker (.count _) =>
    match s.worker with
    | .counting _ (msg :: _) =>
      { log with
        tallied := log.tallied ++ [msg.envelope.eventId]
        counted := log.counted ++ withEvent (s.listed msg.envelope.typeId) msg.envelope.eventId }
    | _ => log
  | .worker (.write faults) =>
    match s.worker with
    | .counting done [] =>
      if writeResult json faults done = .committed then
        { log with
          committed := log.committed ++
            ((rowsOf json done).filter fun row => !row.isScheduled).map (·.id) }
      else log
    | _ => log
  | .worker (.deliver now) =>
    match s.worker with
    | .delivering (msg :: _) =>
      if msg.envelope.isScheduled now then log
      else
        let senders := s.manager.senders msg.envelope
        { log with
          handed := log.handed ++ [msg.envelope.eventId]
          sent := log.sent ++ withEvent senders msg.envelope.eventId
          keys := if senders = [] then log.keys else log.keys ++ msg.idempotencyKey.toList }
    | _ => log
  | .handler (.registry op) =>
    { log with registered := log.registered ++ op.registeredId.toList }
  | .handler (.take id) =>
    { log with
      taken := log.taken ++ s'.working id
      invoked := log.invoked ++ s'.workingKey id }
  | .handler (.complete id _) => { log with finished := log.finished ++ s.working id }
  | _ => log

/-- The system with its log. -/
def stepLogged (json : SerdeJson) (config : BusConfig) :
    PersistentBus × Log → Action → Option (PersistentBus × Log) :=
  Transition.withHistory (step json config) (record json)

theorem stepLogged_of_step (log : Log) {a : Action} (h : step json config s a = some s') :
    stepLogged json config (s, log) a = some (s', record json s a s' log) :=
  Transition.withHistory_eq_some.mpr ⟨h, rfl⟩

/-- The log of the current process; a crash is the end of it. -/
def recordProcess (json : SerdeJson) (s : PersistentBus) (a : Action) (s' : PersistentBus)
    (log : Log) : Log :=
  match a with
  | .control .crash => .empty
  | a => record json s a s' log

/-- The system with the log of the current process. -/
def stepProcess (json : SerdeJson) (config : BusConfig) :
    PersistentBus × Log → Action → Option (PersistentBus × Log) :=
  Transition.withHistory (step json config) (recordProcess json)

theorem recordProcess_of_ne_crash {a : Action} (ha : a ≠ .control .crash) :
    recordProcess json s a s' log = record json s a s' log := by
  unfold recordProcess
  split
  · exact absurd rfl ha
  · rfl

/-- Only the dispatch loop hands events and keys on. -/
theorem record_of_not_deliver (json : SerdeJson) (s s' : PersistentBus) (log : Log) {a : Action}
    (ha : ∀ now, a ≠ .worker (.deliver now)) :
    (record json s a s' log).handed = log.handed ∧ (record json s a s' log).sent = log.sent ∧
      (record json s a s' log).keys = log.keys := by
  unfold record
  repeat' split
  all_goals first
    | exact ⟨rfl, rfl, rfl⟩
    | exact absurd rfl (ha _)

/-! ## The places of a pair -/

/-- Copies of the event in a list of envelopes. -/
def copies (channel : List EventEnvelope) (e : Uuid) : Nat := (channel.map (·.eventId)).count e

@[simp] theorem copies_nil (e : Uuid) : copies [] e = 0 := rfl

theorem copies_cons (envelope : EventEnvelope) (channel : List EventEnvelope) (e : Uuid) :
    copies (envelope :: channel) e
      = copies channel e + if envelope.eventId = e then 1 else 0 := by
  simp [copies, List.count_cons]

theorem copies_concat (channel : List EventEnvelope) (envelope : EventEnvelope) (e : Uuid) :
    copies (channel ++ [envelope]) e
      = copies channel e + if envelope.eventId = e then 1 else 0 := by
  simp [copies, List.count_cons]

/-- Copies in the open channel of a subscription. -/
def buffered (subscriptions : DashMap Uuid SubscriptionData) (i e : Uuid) : Nat :=
  copies (subscriptions[i]?.elim [] (·.channel)) e

/-- Copies left to a handler whose sender has been dropped. -/
def left (closed : DashMap Uuid (List EventEnvelope)) (i e : Uuid) : Nat :=
  copies (closed[i]?.getD []) e

/-- Copies that `dispatch` still has to send. -/
def unsent (worker : Worker) (i e : Uuid) : Nat :=
  match worker with
  | .dispatching envelope sends _ => if envelope.eventId = e then sends.count i else 0
  | _ => 0

/-- Events the handler of the subscription is at work on: one or none. -/
def atWork (busy : DashMap Uuid EventEnvelope) (i e : Uuid) : Nat :=
  busy[i]?.elim 0 fun envelope => if envelope.eventId = e then 1 else 0

/-- The places of a pair: taken, buffered, or still to be sent. -/
def load (s : PersistentBus) (log : Log) (i e : Uuid) : Nat :=
  log.taken.count (i, e) + buffered s.manager.subscriptions i e + left s.closed i e
    + unsent s.worker i e

section Places

variable (i e : Uuid)

theorem buffered_insert (subscriptions : DashMap Uuid SubscriptionData) (id : Uuid)
    (data : SubscriptionData) :
    buffered (subscriptions.insert id data) i e
      = if id = i then copies data.channel e else buffered subscriptions i e := by
  unfold buffered
  by_cases h : id = i
  · simp [h]
  · simp [Std.ExtTreeMap.getElem?_insert, h]

theorem buffered_erase (subscriptions : DashMap Uuid SubscriptionData) (id : Uuid) :
    buffered (subscriptions.erase id) i e = if id = i then 0 else buffered subscriptions i e := by
  unfold buffered
  by_cases h : id = i
  · simp [h]
  · simp [Std.ExtTreeMap.getElem?_erase, h]

theorem left_insert (closed : DashMap Uuid (List EventEnvelope)) (id : Uuid)
    (channel : List EventEnvelope) :
    left (closed.insert id channel) i e = if id = i then copies channel e else left closed i e := by
  unfold left
  by_cases h : id = i
  · simp [h]
  · simp [Std.ExtTreeMap.getElem?_insert, h]

theorem left_erase (closed : DashMap Uuid (List EventEnvelope)) (id : Uuid) :
    left (closed.erase id) i e = if id = i then 0 else left closed i e := by
  unfold left
  by_cases h : id = i
  · simp [h]
  · simp [Std.ExtTreeMap.getElem?_erase, h]

theorem atWork_insert (busy : DashMap Uuid EventEnvelope) (id : Uuid) (envelope : EventEnvelope) :
    atWork (busy.insert id envelope) i e
      = if id = i then if envelope.eventId = e then 1 else 0 else atWork busy i e := by
  unfold atWork
  by_cases h : id = i
  · simp [h]
  · simp [Std.ExtTreeMap.getElem?_insert, h]

theorem atWork_erase (busy : DashMap Uuid EventEnvelope) (id : Uuid) :
    atWork (busy.erase id) i e = if id = i then 0 else atWork busy i e := by
  unfold atWork
  by_cases h : id = i
  · simp [h]
  · simp [Std.ExtTreeMap.getElem?_erase, h]

/-- One send puts at most one copy into the channel it is for. -/
theorem buffered_push_le (envelope : EventEnvelope) (subscriptions : DashMap Uuid SubscriptionData)
    (id : Uuid) :
    buffered (SubscriptionManager.push envelope subscriptions id) i e
      ≤ buffered subscriptions i e + if id = i ∧ envelope.eventId = e then 1 else 0 := by
  unfold buffered
  rw [SubscriptionManager.getElem?_push]
  cases subscriptions[i]? with
  | none => simp
  | some data =>
    simp only [Option.map_some, Option.elim_some]
    by_cases hid : id = i
    · cases hlive : data.live with
      | false => simp
      | true => simp [hid, copies_concat]
    · simp [hid]

/-- A copy that is left to a handler comes with a send to a subscription that is gone. -/
theorem left_pushClosed (envelope : EventEnvelope) (s : PersistentBus) (id : Uuid) :
    left (pushClosed envelope s id) i e ≤ left s.closed i e +
      if (id = i ∧ s.manager.subscriptions[id]? = none) ∧ envelope.eventId = e then 1 else 0 := by
  unfold left
  rw [getElem?_pushClosed]
  by_cases hgone : id = i ∧ s.manager.subscriptions[id]? = none
  · rw [if_pos hgone]
    cases s.closed[i]? with
    | none => simp
    | some channel =>
      rw [Option.map_some, Option.getD_some, Option.getD_some, copies_concat]
      by_cases he : envelope.eventId = e
      · rw [if_pos he, if_pos ⟨hgone, he⟩]
      · rw [if_neg he]
        exact Nat.le_add_right _ _
  · rw [if_neg hgone]
    exact Nat.le_add_right _ _

/-- One send puts at most one copy into the channel it is for, open or not. -/
theorem placed_push_le (envelope : EventEnvelope) (s : PersistentBus) (id : Uuid) :
    buffered (SubscriptionManager.push envelope s.manager.subscriptions id) i e
        + left (pushClosed envelope s id) i e
      ≤ buffered s.manager.subscriptions i e + left s.closed i e
        + if id = i ∧ envelope.eventId = e then 1 else 0 := by
  have hclosed := left_pushClosed i e envelope s id
  cases hdata : s.manager.subscriptions[id]? with
  | none =>
    have hsame : SubscriptionManager.push envelope s.manager.subscriptions id
        = s.manager.subscriptions := by
      rw [SubscriptionManager.push, hdata]
    rw [hsame]
    simp only [hdata, and_true] at hclosed
    omega
  | some data =>
    have hopen := buffered_push_le i e envelope s.manager.subscriptions id
    simp only [hdata, reduceCtorEq, and_false, false_and, ↓reduceIte] at hclosed
    omega

/-- A completed send is one send less to do. -/
theorem unsent_erase (envelope : EventEnvelope) {sends : List Uuid}
    (rest : List RedbDispatcherMessage) {id : Uuid} (hmem : id ∈ sends) :
    unsent (.dispatching envelope (sends.erase id) rest) i e
        + (if id = i ∧ envelope.eventId = e then 1 else 0)
      = unsent (.dispatching envelope sends rest) i e := by
  unfold unsent
  by_cases he : envelope.eventId = e
  · by_cases hi : id = i
    · subst hi
      have hpos := List.count_pos_iff.mpr hmem
      simp only [he, ↓reduceIte, and_self, List.count_erase_self]
      omega
    · simp [he, hi, List.count_erase_of_ne fun h : i = id => hi h.symm]
  · simp [he]

end Places

/-! ## What no step does -/

/-- A step that leaves the handlers, the worker and the log of their work alone. -/
theorem load_of_sameHandling (h : SameHandling s s') {log' : Log}
    (htaken : log'.taken = log.taken) (i e : Uuid) : load s' log' i e = load s log i e := by
  unfold load
  rw [h.manager, h.closed, h.worker, htaken]

/-- **One step of the worker** sends no more than it has selected. -/
theorem load_stepWorker {a : WorkerAction} (h : s.stepWorker json config a = some s') (i e : Uuid) :
    load s' (record json s (.worker a) s' log) i e + log.sent.count (i, e)
      ≤ load s log i e + (record json s (.worker a) s' log).sent.count (i, e) := by
  cases a with
  | recv =>
    obtain ⟨hphase, ⟨msg, rest, -, rfl⟩ | ⟨-, rfl⟩⟩ := recv_cases h
    · simp [load, record, unsent, hphase]
    · simp [load, record, unsent, hphase, stopWorker]
  | tryRecv =>
    obtain ⟨batch, msg, rest, hphase, -, rfl⟩ := tryRecv_cases h
    simp [load, record, unsent, hphase]
  | check reads =>
    obtain ⟨batch, checked, hphase, -, rfl⟩ := check_cases h
    simp [load, record, unsent, hphase]
  | count now =>
    obtain ⟨done, msg, rest, n, hphase, -, rfl⟩ := count_cases h
    simp [load, record, unsent, hphase]
  | write faults =>
    obtain ⟨done, hphase, ⟨hres, rfl⟩ | ⟨msg, hres, rfl⟩ | ⟨hres, rfl⟩⟩ := write_cases h
    · simp [load, record, unsent, hphase, hres]
    · simp [load, record, unsent, hphase, hres]
    · simp [load, record, unsent, hphase, hres]
  | deliver now =>
    obtain ⟨hphase, rfl⟩ | ⟨msg, rest, hphase, ⟨hsched, rfl⟩ | ⟨hdue, rfl⟩⟩ := deliver_cases h
    · simp [load, record, unsent, hphase]
    · simp [load, record, unsent, hphase, hsched]
    · -- every send to come is one that `dispatch` has just selected
      simp only [load, record, unsent, hphase, hdue, Bool.false_eq_true, ↓reduceIte,
        List.count_append, count_withEvent]
      omega
  | push id =>
    obtain ⟨envelope, sends, rest, hphase, hmem, rfl⟩ := push_cases h
    have hpush := placed_push_le i e envelope s id
    have hsends := unsent_erase i e envelope rest hmem
    simp only [load, record, hphase]
    omega
  | dispatched =>
    obtain ⟨envelope, sends, rest, hphase, rfl⟩ := dispatched_cases h
    simp only [load, record, unsent]
    omega
  | panic =>
    obtain ⟨-, rfl⟩ := workerPanic_cases h
    simp only [load, record, unsent, stopWorker]
    omega

/-- **One step of a handler** takes what was in its channel. -/
theorem load_stepHandler (json : SerdeJson) (log : Log) {a : HandlerAction}
    (h : s.stepHandler a = some s') (i e : Uuid) :
    load s' (record json s (.handler a) s' log) i e ≤ load s log i e ∧
      (record json s (.handler a) s' log).sent = log.sent := by
  cases a with
  | registry op =>
    cases h
    exact ⟨Nat.le_refl _, rfl⟩
  | openChannel id =>
    obtain ⟨hnone, rfl⟩ := openChannel_cases h
    refine ⟨?_, rfl⟩
    simp only [load, record, buffered_insert, copies_nil]
    split <;> omega
  | removeChannel id =>
    cases h
    refine ⟨?_, rfl⟩
    simp only [load, record, removeChannel, buffered_erase]
    split <;> omega
  | closeChannel id =>
    obtain ⟨data, hdata, rfl⟩ := closeChannel_cases h
    refine ⟨?_, rfl⟩
    have hbuffered : buffered s.manager.subscriptions id e = copies data.channel e := by
      simp [buffered, hdata]
    simp only [load, record, buffered_erase]
    cases data.live with
    | false =>
      simp only [Bool.false_eq_true, ↓reduceIte]
      split <;> omega
    | true =>
      simp only [↓reduceIte, left_insert]
      split
      · rename_i hid
        subst hid
        omega
      · omega
  | take id =>
    obtain ⟨-, envelope, rest, ⟨hdata, rfl⟩ | ⟨hclosed, rfl⟩⟩ := handlerTake_cases h
    · refine ⟨?_, rfl⟩
      have hbuffered : buffered s.manager.subscriptions id e
          = copies rest e + if envelope.eventId = e then 1 else 0 := by
        simp [buffered, hdata, copies_cons]
      simp only [load, record, working, buffered_insert, List.count_append,
        Std.ExtTreeMap.getElem?_insert_self, Option.elim_some, List.count_singleton, Prod.mk.injEq,
        beq_iff_eq]
      by_cases hid : id = i
      · subst hid
        simp only [true_and, ↓reduceIte]
        omega
      · simp [hid]
    · refine ⟨?_, rfl⟩
      have hleft : left s.closed id e
          = copies rest e + if envelope.eventId = e then 1 else 0 := by
        simp [left, hclosed, copies_cons]
      simp only [load, record, working, left_insert, List.count_append,
        Std.ExtTreeMap.getElem?_insert_self, Option.elim_some, List.count_singleton, Prod.mk.injEq,
        beq_iff_eq]
      by_cases hid : id = i
      · subst hid
        simp only [true_and, ↓reduceIte]
        omega
      · simp [hid]
  | complete id isSuccess =>
    obtain ⟨envelope, registry, -, -, -, rfl⟩ := handlerComplete_cases h
    exact ⟨Nat.le_refl _, rfl⟩
  | exit id =>
    cases h
    refine ⟨?_, rfl⟩
    have hbuffered : buffered (s.handlerExit id).manager.subscriptions i e
        ≤ buffered s.manager.subscriptions i e := by
      unfold handlerExit
      dsimp only
      split
      · rw [buffered_insert, copies_nil]
        split <;> omega
      · exact Nat.le_refl _
    have hleft : left (s.handlerExit id).closed i e ≤ left s.closed i e := by
      unfold handlerExit
      rw [left_erase]
      split <;> omega
    have hworker : unsent (s.handlerExit id).worker i e = unsent s.worker i e := rfl
    simp only [load, record]
    omega
  | ack commits =>
    obtain ⟨completion, rest, -, rfl⟩ := ack_step_cases h
    exact ⟨Nat.le_refl _, rfl⟩

/-- **One step** makes no more of a pair than `dispatch` selects of it. -/
theorem load_step (log : Log) {a : Action} (h : step json config s a = some s') (i e : Uuid) :
    load s' (record json s a s' log) i e + log.sent.count (i, e)
      ≤ load s log i e + (record json s a s' log).sent.count (i, e) := by
  cases a with
  | publisher a =>
    have hsame := (stepPublisher_frame h).2
    cases a <;> exact Nat.le_of_eq (by rw [load_of_sameHandling hsame rfl]; rfl)
  | worker a => exact load_stepWorker h i e
  | scheduler a =>
    rw [load_of_sameHandling (stepScheduler_frame h).2.1 rfl]
    exact Nat.le_refl _
  | handler a =>
    obtain ⟨hload, hsent⟩ := load_stepHandler json log h i e
    rw [hsent]
    omega
  | replay a =>
    rw [load_of_sameHandling (stepReplay_frame h).2.1 rfl]
    exact Nat.le_refl _
  | control a =>
    by_cases ha : a = .crash
    · subst ha
      cases h
      simp only [load, record, crash, boot, unsent, buffered, left]
      simp
      omega
    · have hsame := stepControl_sameWork h ha
      have hunsent : unsent s'.worker i e = unsent s.worker i e := by
        rcases hsame.worker with hworker | ⟨hunspawned, hreceiving⟩
        · rw [hworker]
        · rw [hunspawned, hreceiving]
          rfl
      simp only [load, record, hsame.manager, hsame.closed, hunsent]
      exact Nat.le_refl _

/-! ## The work of the handlers -/

/-- A step that finishes nothing and takes nothing new. -/
theorem work_of_busy_eq (hbusy : s'.busy = s.busy) {log' : Log} (htaken : log'.taken = log.taken)
    (hfinished : log'.finished = log.finished) (i e : Uuid) :
    log'.finished.count (i, e) + atWork s'.busy i e + log.taken.count (i, e)
      ≤ log.finished.count (i, e) + atWork s.busy i e + log'.taken.count (i, e) := by
  rw [hbusy, htaken, hfinished]

theorem record_worker_taken (json : SerdeJson) (s s' : PersistentBus) (log : Log)
    (a : WorkerAction) :
    (record json s (.worker a) s' log).taken = log.taken ∧
      (record json s (.worker a) s' log).finished = log.finished := by
  cases a <;> simp only [record, and_self]
  all_goals repeat' split
  all_goals exact ⟨rfl, rfl⟩

/-- **One step** finishes no more than is at work, and puts to work what it takes. -/
theorem work_step (log : Log) {a : Action} (h : step json config s a = some s') (i e : Uuid) :
    (record json s a s' log).finished.count (i, e) + atWork s'.busy i e + log.taken.count (i, e)
      ≤ log.finished.count (i, e) + atWork s.busy i e
        + (record json s a s' log).taken.count (i, e) := by
  cases a with
  | publisher a =>
    have hsame := (stepPublisher_frame h).2
    cases a <;> exact work_of_busy_eq hsame.busy rfl rfl i e
  | worker a =>
    obtain ⟨htaken, hfinished⟩ := record_worker_taken json s s' log a
    exact work_of_busy_eq (stepWorker_sameTasks h).busy htaken hfinished i e
  | scheduler a => exact work_of_busy_eq (stepScheduler_frame h).2.1.busy rfl rfl i e
  | replay a => exact work_of_busy_eq (stepReplay_frame h).2.1.busy rfl rfl i e
  | control a =>
    by_cases ha : a = .crash
    · subst ha
      cases h
      simp only [record, crash, boot, atWork]
      simp
    · exact work_of_busy_eq (stepControl_sameWork h ha).busy rfl rfl i e
  | handler a =>
    cases a with
    | registry op =>
      cases h
      exact work_of_busy_eq rfl rfl rfl i e
    | openChannel id =>
      obtain ⟨-, rfl⟩ := openChannel_cases h
      exact work_of_busy_eq rfl rfl rfl i e
    | removeChannel id =>
      cases h
      exact work_of_busy_eq rfl rfl rfl i e
    | closeChannel id =>
      obtain ⟨data, -, rfl⟩ := closeChannel_cases h
      exact work_of_busy_eq rfl rfl rfl i e
    | ack commits =>
      obtain ⟨completion, rest, -, rfl⟩ := ack_step_cases h
      exact work_of_busy_eq rfl rfl rfl i e
    | exit id =>
      cases h
      simp only [record, handlerExit, atWork_erase]
      split <;> omega
    | take id =>
      -- the handler was idle, so nothing at work is forgotten
      have hput : ∀ envelope, s.busy[id]? = none → s'.busy = s.busy.insert id envelope →
          atWork s'.busy i e = atWork s.busy i e + (s'.working id).count (i, e) := by
        intro envelope hidle hbusy
        have hworking : s'.working id = [(id, envelope.eventId)] := by simp [working, hbusy]
        rw [hbusy, atWork_insert, hworking, List.count_singleton]
        by_cases hid : id = i
        · subst hid
          simp [atWork, hidle]
        · simp [hid]
      obtain ⟨hidle, envelope, rest, ⟨-, hs'⟩ | ⟨-, hs'⟩⟩ := handlerTake_cases h
      · have hwork := hput envelope hidle (by rw [hs'])
        simp only [record, List.count_append]
        omega
      · have hwork := hput envelope hidle (by rw [hs'])
        simp only [record, List.count_append]
        omega
    | complete id isSuccess =>
      obtain ⟨envelope, registry, hbusy, -, -, rfl⟩ := handlerComplete_cases h
      have hworking : s.working id = [(id, envelope.eventId)] := by simp [working, hbusy]
      simp only [record, hworking, atWork_erase, List.count_append, List.count_singleton]
      by_cases hid : id = i
      · subst hid
        simp [atWork, hbusy]
      · simp [hid]

/-- Completions of the event that the ack worker has not received. -/
def acksOf (s : PersistentBus) (e : Uuid) : Nat :=
  s.manager.registry.ackTx.countP fun completion => completion.1 == e

/-- Handlers that are done with the event. -/
def finishedOf (log : Log) (e : Uuid) : Nat := log.finished.countP fun pair => pair.2 == e

/-- **One step** that is neither a crash nor of the ack worker sends it a completion for
    every handler that finishes. -/
theorem acks_step (log : Log) {a : Action} (h : step json config s a = some s')
    (hack : ∀ commits, a ≠ .handler (.ack commits)) (hcrash : a ≠ .control .crash) (e : Uuid) :
    acksOf s' e + finishedOf log e = acksOf s e + finishedOf (record json s a s' log) e := by
  have hsame : s'.manager.registry.ackTx = s.manager.registry.ackTx →
      (record json s a s' log).finished = log.finished →
      acksOf s' e + finishedOf log e = acksOf s e + finishedOf (record json s a s' log) e := by
    intro hacks hfinished
    simp only [acksOf, finishedOf, hacks, hfinished]
  cases a with
  | publisher a =>
    have hmanager := (stepPublisher_frame h).2.manager
    cases a <;> exact hsame (by rw [hmanager]) rfl
  | worker a =>
    exact hsame (by rw [(stepWorker_sameTasks h).registry]) (record_worker_taken json s s' log a).2
  | scheduler a => exact hsame (by rw [(stepScheduler_frame h).2.1.manager]) rfl
  | replay a => exact hsame (by rw [(stepReplay_frame h).2.1.manager]) rfl
  | control a =>
    exact hsame (by rw [(stepControl_sameWork h fun ha => hcrash (ha ▸ rfl)).manager]) rfl
  | handler a =>
    cases a with
    | registry op =>
      cases h
      exact hsame (ackTx_apply _ op) rfl
    | openChannel id =>
      obtain ⟨-, rfl⟩ := openChannel_cases h
      exact hsame rfl rfl
    | removeChannel id =>
      cases h
      exact hsame rfl rfl
    | closeChannel id =>
      obtain ⟨data, -, rfl⟩ := closeChannel_cases h
      exact hsame rfl rfl
    | take id =>
      obtain ⟨-, envelope, rest, ⟨-, rfl⟩ | ⟨-, rfl⟩⟩ := handlerTake_cases h
      · exact hsame rfl rfl
      · exact hsame rfl rfl
    | exit id =>
      cases h
      exact hsame rfl rfl
    | ack commits => exact absurd rfl (hack commits)
    | complete id isSuccess =>
      obtain ⟨envelope, registry, hbusy, hacks, -, rfl⟩ := handlerComplete_cases h
      have hworking : s.working id = [(id, envelope.eventId)] := by simp [working, hbusy]
      simp only [acksOf, finishedOf, record, hacks, hworking, List.countP_append,
        List.countP_singleton]
      omega

/-- The ack worker receives one completion. -/
theorem acksOf_ack {commits : Bool} (h : s.ack commits = some s') :
    ∃ completion, acksOf s' completion.1 + 1 = acksOf s completion.1 ∧
      (∀ e ≠ completion.1, acksOf s' e = acksOf s e) ∧
      s'.db = if commits then s.db.ack completion else s.db := by
  obtain ⟨completion, rest, hack, rfl⟩ := ack_step_cases h
  refine ⟨completion, ?_, fun e he => ?_, rfl⟩
  · simp [acksOf, hack]
  · simp [acksOf, hack, he.symm]

/-! ## The accounts -/

/-- What the log says of the handlers and what they do, in every state of every run. -/
structure Accounts (s : PersistentBus) (log : Log) : Prop where
  sent : ∀ i e, (i, e) ∈ log.sent → e ∈ log.handed
  load : ∀ i e, load s log i e ≤ log.sent.count (i, e)
  work : ∀ i e, log.finished.count (i, e) + atWork s.busy i e ≤ log.taken.count (i, e)
  acks : ∀ e, acksOf s e ≤ finishedOf log e

/-- A process that has just started, with an empty log. -/
theorem accounts_boot (json : SerdeJson) (config : BusConfig) (db : Db) :
    (boot json config db).Accounts .empty where
  sent := by simp [Log.empty]
  load := by simp [PersistentBus.load, boot, Log.empty, buffered, left, unsent]
  work := by simp [boot, atWork, Log.empty]
  acks := by simp [acksOf, boot, RedbRegistry.new]

/-- And one that starts after a crash. -/
theorem accounts_crash (json : SerdeJson) (config : BusConfig) (s : PersistentBus) :
    (s.crash json config).Accounts .empty :=
  have hboot := accounts_boot json config s.db
  ⟨hboot.sent, hboot.load, hboot.work, hboot.acks⟩

/-- Whoever is sent an event was selected by `dispatch`. -/
theorem sent_step {a : Action} (h : step json config s a = some s') {i e : Uuid}
    (hsent : (i, e) ∈ log.sent → e ∈ log.handed)
    (hmem : (i, e) ∈ (record json s a s' log).sent) : e ∈ (record json s a s' log).handed := by
  by_cases ha : ∃ now, a = .worker (.deliver now)
  · obtain ⟨now, rfl⟩ := ha
    obtain ⟨hphase, rfl⟩ | ⟨msg, rest, hphase, ⟨hsched, rfl⟩ | ⟨hdue, rfl⟩⟩ := deliver_cases h
    · simp only [record, hphase] at hmem ⊢
      exact hsent hmem
    · simp only [record, hphase, hsched, ↓reduceIte] at hmem ⊢
      exact hsent hmem
    · simp only [record, hphase, hdue, Bool.false_eq_true, ↓reduceIte] at hmem ⊢
      rcases List.mem_append.mp hmem with hold | hnew
      · exact List.mem_append_left _ (hsent hold)
      · obtain ⟨-, rfl⟩ := mem_withEvent.mp hnew
        simp
  · obtain ⟨hhanded, hsame, -⟩ :=
      record_of_not_deliver json s s' log
        fun now h => ha ⟨now, h⟩
    rw [hsame] at hmem
    rw [hhanded]
    exact hsent hmem

theorem acks_le_step {a : Action} (h : step json config s a = some s') {e : Uuid}
    (hle : acksOf s e ≤ finishedOf log e) :
    acksOf s' e ≤ finishedOf (record json s a s' log) e := by
  by_cases hack : ∃ commits, a = .handler (.ack commits)
  · obtain ⟨commits, rfl⟩ := hack
    obtain ⟨completion, hone, hother, -⟩ := acksOf_ack h
    have hfinished : finishedOf (record json s (.handler (.ack commits)) s' log) e
        = finishedOf log e := rfl
    rw [hfinished]
    by_cases he : e = completion.1
    · subst he
      omega
    · rw [hother e he]
      exact hle
  · by_cases hcrash : a = .control .crash
    · subst hcrash
      cases h
      exact Nat.zero_le _
    · have hstep := acks_step log h (fun commits ha => hack ⟨commits, ha⟩) hcrash e
      omega

/-- **One step** keeps the accounts. -/
theorem Accounts.step {a : Action} (hI : s.Accounts log) (h : step json config s a = some s') :
    s'.Accounts (record json s a s' log) where
  sent i e := sent_step h (hI.sent i e)
  load i e := by
    have hstep := load_step log h i e
    have hload := hI.load i e
    omega
  work i e := by
    have hstep := work_step log h i e
    have hwork := hI.work i e
    omega
  acks e := acks_le_step h (hI.acks e)

theorem Accounts.stepProcess {a : Action} (hI : s.Accounts log)
    (h : PersistentBus.step json config s a = some s') :
    s'.Accounts (recordProcess json s a s' log) := by
  by_cases hcrash : a = .control .crash
  · subst hcrash
    cases h
    exact accounts_crash json config s
  · rw [recordProcess_of_ne_crash hcrash]
    exact hI.step h

/-- Nothing is known of an event that was not handed on. -/
structure Untouched (s : PersistentBus) (log : Log) (e : Uuid) : Prop where
  sent : ∀ i, log.sent.count (i, e) = 0
  load : ∀ i, PersistentBus.load s log i e = 0
  work : ∀ i, atWork s.busy i e = 0
  finished : finishedOf log e = 0
  acks : acksOf s e = 0

/-- No handler works on an event that none has taken, and nothing of it is left to
    acknowledge. -/
theorem Accounts.resting (h : s.Accounts log) {e : Uuid}
    (hload : ∀ i, PersistentBus.load s log i e = 0) :
    (∀ i, atWork s.busy i e = 0) ∧ finishedOf log e = 0 ∧ acksOf s e = 0 := by
  have hwork : ∀ i, log.finished.count (i, e) = 0 ∧ atWork s.busy i e = 0 := by
    intro i
    have htaken : log.taken.count (i, e) ≤ PersistentBus.load s log i e := by
      unfold PersistentBus.load
      omega
    have := h.work i e
    have := hload i
    omega
  have hfinished : finishedOf log e = 0 := by
    rw [finishedOf, List.countP_eq_zero]
    rintro ⟨i, e'⟩ hmem heq
    obtain rfl : e' = e := by simpa using heq
    exact List.count_eq_zero.mp (hwork i).1 hmem
  exact ⟨fun i => (hwork i).2, hfinished, Nat.le_zero.mp ((h.acks e).trans_eq hfinished)⟩

theorem Accounts.untouched (h : s.Accounts log) {e : Uuid} (he : e ∉ log.handed) :
    s.Untouched log e := by
  have hsent : ∀ i, log.sent.count (i, e) = 0 := fun i =>
    List.count_eq_zero.mpr fun hmem => he (h.sent i e hmem)
  have hload : ∀ i, PersistentBus.load s log i e = 0 := fun i =>
    Nat.le_zero.mp ((h.load i e).trans_eq (hsent i))
  obtain ⟨hwork, hfinished, hacks⟩ := h.resting hload
  exact ⟨hsent, hload, hwork, hfinished, hacks⟩

/-! ## The lists of subscriptions -/

/-- Subscriptions do not change while a message is between its count and its dispatch. -/
def KeepsSubscriptions (s : PersistentBus) : Action → Prop
  | .handler (.registry op) => s.worker.counted = [] ∨ ∃ id, op = .incrementProcessed id
  | _ => True

instance (op : RegistryOp) : Decidable (∃ id, op = .incrementProcessed id) :=
  match op with
  | .incrementProcessed id => isTrue ⟨id, rfl⟩
  | .register _ _ _ | .unregister _ | .deactivate _ | .clear => isFalse fun ⟨_, h⟩ => by cases h

instance (s : PersistentBus) : (a : Action) → Decidable (s.KeepsSubscriptions a)
  | .handler (.registry op) =>
    decidable_of_iff (s.worker.counted.isEmpty = true ∨ ∃ id, op = .incrementProcessed id)
      (or_congr_left List.isEmpty_iff)
  | .handler (.openChannel _) | .handler (.removeChannel _) | .handler (.closeChannel _)
  | .handler (.take _) | .handler (.complete _ _) | .handler (.exit _) | .handler (.ack _)
  | .publisher _ | .worker _ | .scheduler _ | .replay _ | .control _ => isTrue trivial

/-- A condition on the message that is counted next. -/
instance {P : RedbDispatcherMessage → Prop} [DecidablePred P] : (worker : Worker) →
    Decidable (∀ done msg rest, worker = .counting done (msg :: rest) → P msg)
  | .counting _ (msg :: _) =>
    decidable_of_iff (P msg) ⟨fun h _ _ _ heq => by cases heq; exact h, fun h => h _ _ _ rfl⟩
  | .counting _ [] | .unspawned | .receiving | .draining _ | .delivering _ | .dispatching _ _ _
  | .stopped => isTrue fun _ _ _ heq => by cases heq

/-- **One step** that keeps the subscriptions leaves every list with its ids. -/
theorem listed_step {a : Action} (h : step json config s a = some s')
    (hkeeps : s.KeepsSubscriptions a) (hcounted : s.worker.counted ≠ [])
    (hcrash : a ≠ .control .crash) (t : TypeId) : s'.listed t = s.listed t := by
  unfold listed
  cases a with
  | publisher a => rw [(stepPublisher_frame h).2.manager]
  | worker a => rw [(stepWorker_sameTasks h).registry]
  | scheduler a => rw [(stepScheduler_frame h).2.1.manager]
  | replay a => rw [(stepReplay_frame h).2.1.manager]
  | control a => rw [(stepControl_sameWork h fun ha => hcrash (ha ▸ rfl)).manager]
  | handler a =>
    cases a with
    | registry op =>
      cases h
      rcases hkeeps with hnone | ⟨id, rfl⟩
      · exact absurd hnone hcounted
      · exact DashMapRegistry.ids_incrementProcessed _ id t
    | openChannel id =>
      obtain ⟨-, rfl⟩ := openChannel_cases h
      rfl
    | removeChannel id =>
      cases h
      rfl
    | closeChannel id =>
      obtain ⟨data, -, rfl⟩ := closeChannel_cases h
      rfl
    | take id =>
      obtain ⟨-, envelope, rest, ⟨-, rfl⟩ | ⟨-, rfl⟩⟩ := handlerTake_cases h
      · rfl
      · rfl
    | complete id isSuccess =>
      obtain ⟨envelope, registry, -, -, hinner, rfl⟩ := handlerComplete_cases h
      rw [hinner]
      cases isSuccess with
      | false => rfl
      | true => exact DashMapRegistry.ids_incrementProcessed _ id t
    | exit id =>
      cases h
      rfl
    | ack commits =>
      obtain ⟨completion, rest, -, rfl⟩ := ack_step_cases h
      rfl

/-- `dispatch` selects among the subscriptions of the event's type, each at most as often
    as it is listed. -/
theorem senders_count_le (s : PersistentBus) (envelope : EventEnvelope) (i : Uuid) :
    (s.manager.senders envelope).count i ≤ (s.listed envelope.typeId).count i := by
  have hsub := SubscriptionManager.senders_sublist s.manager envelope
  rw [SubscriptionManager.selectSubscriptions_redb] at hsub
  exact (hsub.trans (List.filter_sublist.map _)).count_le i

end PersistentBus
end TokioEvents
