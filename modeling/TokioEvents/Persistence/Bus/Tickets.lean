/-
  TokioEvents.Persistence.Bus.Tickets

  The way of an event from its injection to `dispatch`, by its id.

  A ticket of an event is a message of it that has not been handed on, or a row of it
  that a replay call is going to send.  Tickets come from publishers, from the scheduler
  and from replay calls (`injects`); every other step passes a ticket on, drops it, or
  trades it for one `dispatch` (`tickets_step`).
-/

import Mathlib.Algebra.BigOperators.Group.List.Basic
import Mathlib.Algebra.GroupWithZero.Nat
import Mathlib.Data.List.Perm.Basic
import TokioEvents.Persistence.Bus.Log

namespace TokioEvents

/-- Messages of the event in a list. -/
def messagesOf (msgs : List RedbDispatcherMessage) (e : Uuid) : Nat :=
  (msgs.map (·.envelope.eventId)).count e

@[simp] theorem messagesOf_nil (e : Uuid) : messagesOf [] e = 0 := rfl

theorem messagesOf_cons (msg : RedbDispatcherMessage) (msgs : List RedbDispatcherMessage)
    (e : Uuid) :
    messagesOf (msg :: msgs) e
      = messagesOf msgs e + if msg.envelope.eventId = e then 1 else 0 := by
  simp [messagesOf, List.count_cons]

@[simp] theorem messagesOf_append (msgs msgs' : List RedbDispatcherMessage) (e : Uuid) :
    messagesOf (msgs ++ msgs') e = messagesOf msgs e + messagesOf msgs' e := by
  simp [messagesOf]

theorem messagesOf_sublist {msgs msgs' : List RedbDispatcherMessage} (h : msgs.Sublist msgs')
    (e : Uuid) : messagesOf msgs e ≤ messagesOf msgs' e :=
  (h.map _).count_le e

theorem messagesOf_pos {msgs : List RedbDispatcherMessage} {msg : RedbDispatcherMessage}
    (h : msg ∈ msgs) : 0 < messagesOf msgs msg.envelope.eventId :=
  List.count_pos_iff.mpr (List.mem_map_of_mem h)

/-! ## What a replay call is going to send -/

/-- The event of a row that `replay_pending` may find alive. -/
def awaitedRow (json : SerdeJson) (row : Uuid × Bytes × Option Nat) : Option Uuid :=
  if row.2.2.any (0 < ·) then (json.fromSlice row.2.1).map (·.metadata.eventId) else none

/-- The events a call of `replay_pending` may still send. -/
def Replay.awaited (json : SerdeJson) : Replay → List Uuid
  | .pending rows _ => rows.filterMap (awaitedRow json)
  | .pendingSend envelope rows _ => envelope.eventId :: rows.filterMap (awaitedRow json)
  | .dlq _ => []

/-- How often the replay calls may still send the event. -/
def awaitedOf (json : SerdeJson) (replays : List Replay) (e : Uuid) : Nat :=
  (replays.map fun replay => (replay.awaited json).count e).sum

section Awaited

variable (json : SerdeJson) {replays : List Replay} {index : Nat} {replay : Replay}

@[simp] theorem awaitedOf_nil (e : Uuid) : awaitedOf json [] e = 0 := rfl

theorem awaitedOf_concat (replays : List Replay) (replay : Replay) (e : Uuid) :
    awaitedOf json (replays ++ [replay]) e
      = awaitedOf json replays e + (replay.awaited json).count e := by
  simp [awaitedOf]

theorem awaitedOf_perm {replays replays' : List Replay} (h : replays.Perm replays') (e : Uuid) :
    awaitedOf json replays e = awaitedOf json replays' e :=
  (h.map _).sum_eq

theorem awaitedOf_cons (replay : Replay) (replays : List Replay) (e : Uuid) :
    awaitedOf json (replay :: replays) e
      = (replay.awaited json).count e + awaitedOf json replays e := by
  simp [awaitedOf]

/-- A call that has ended sends nothing any more. -/
theorem awaitedOf_eraseIdx (h : replays[index]? = some replay) (e : Uuid) :
    awaitedOf json (replays.eraseIdx index) e + (replay.awaited json).count e
      = awaitedOf json replays e := by
  obtain ⟨hlt, rfl⟩ := List.getElem?_eq_some_iff.mp h
  rw [← awaitedOf_perm json (List.getElem_cons_eraseIdx_perm hlt) e, awaitedOf_cons]
  exact Nat.add_comm _ _

/-- A call that goes on. -/
theorem awaitedOf_set (h : replays[index]? = some replay) (replay' : Replay) (e : Uuid) :
    awaitedOf json (replays.set index replay') e + (replay.awaited json).count e
      = awaitedOf json replays e + (replay'.awaited json).count e := by
  have hrest := awaitedOf_eraseIdx json h e
  obtain ⟨hlt, -⟩ := List.getElem?_eq_some_iff.mp h
  rw [awaitedOf_perm json (List.set_perm_cons_eraseIdx hlt replay') e, awaitedOf_cons]
  omega

theorem awaitedOf_set_le (h : replays[index]? = some replay) {replay' : Replay} {e : Uuid}
    (hle : (replay'.awaited json).count e ≤ (replay.awaited json).count e) :
    awaitedOf json (replays.set index replay') e ≤ awaitedOf json replays e := by
  have := awaitedOf_set json h replay' e
  omega

end Awaited

namespace PersistentBus

variable {json : SerdeJson} {config : BusConfig} {s s' : PersistentBus} {log : Log}

/-! ## Where events come in -/

/-- The events a step puts into the queue, or into a call that will. -/
def injects (json : SerdeJson) (s : PersistentBus) : Action → List Uuid
  | .publisher (.dispatch envelope) => [envelope.eventId]
  | .publisher (.tryDispatch envelope) => [envelope.eventId]
  | .scheduler .send =>
    match s.scheduler with
    | .sending envelope _ => [envelope.eventId]
    | _ => []
  | .replay .pending => s.db.pendingRows.filterMap (awaitedRow json)
  | .replay (.dlqSend index) =>
    match s.replays[index]? with
    | some (.dlq (persisted :: _)) => [persisted.metadata.eventId]
    | _ => []
  | _ => []

/-- Tickets of the event that have not reached the worker. -/
def entering (json : SerdeJson) (s : PersistentBus) (e : Uuid) : Nat :=
  messagesOf s.queue.buffer e + awaitedOf json s.replays e

theorem entering_of_eq (hqueue : s'.queue.buffer = s.queue.buffer)
    (hreplays : s'.replays = s.replays) (e : Uuid) : entering json s' e = entering json s e := by
  unfold entering
  rw [hqueue, hreplays]

/-- A message enters the queue; a call that has sent it may have gone on. -/
theorem entering_of_push (json : SerdeJson) (s s' : PersistentBus) {msg : RedbDispatcherMessage}
    (hqueue : s'.queue = s.queue.push msg) (e : Uuid) :
    entering json s' e + awaitedOf json s.replays e
      = entering json s e + awaitedOf json s'.replays e + [msg.envelope.eventId].count e := by
  unfold entering
  rw [hqueue, Mpsc.Channel.push_buffer, messagesOf_append, messagesOf_cons, messagesOf_nil]
  simp only [List.count_singleton, beq_iff_eq]
  omega

theorem entering_stepPublisher {a : PublisherAction} (h : s.stepPublisher config a = some s')
    (e : Uuid) :
    entering json s' e ≤ entering json s e + (injects json s (.publisher a)).count e := by
  obtain ⟨hreplays, -, hqueue | ⟨envelope, ackTx, ha, hqueue⟩⟩ := stepPublisher_queue h
  · rw [entering_of_eq (by rw [hqueue]) hreplays]
    exact Nat.le_add_right _ _
  · have hpush := entering_of_push json s s' hqueue e
    rw [hreplays] at hpush
    have hinjects : injects json s (.publisher a) = [envelope.eventId] := by
      rcases ha with rfl | rfl <;> rfl
    rw [hinjects]
    dsimp only at hpush
    omega

theorem entering_stepScheduler {a : SchedulerAction} (h : s.stepScheduler json a = some s')
    (e : Uuid) :
    entering json s' e ≤ entering json s e + (injects json s (.scheduler a)).count e := by
  have hsame : s'.queue.buffer = s.queue.buffer → s'.replays = s.replays →
      entering json s' e ≤ entering json s e + (injects json s (.scheduler a)).count e := by
    intro hqueue hreplays
    rw [entering_of_eq hqueue hreplays]
    exact Nat.le_add_right _ _
  cases a with
  | wake now =>
    simp only [stepScheduler, wake] at h
    repeat' split at h
    all_goals cases h
    all_goals exact hsame rfl rfl
  | poll commits =>
    simp only [stepScheduler, poll] at h
    repeat' split at h
    all_goals cases h
    all_goals exact hsame rfl rfl
  | fire =>
    simp only [stepScheduler, fire] at h
    repeat' split at h
    all_goals cases h
    all_goals exact hsame rfl rfl
  | orphanPoll index commits =>
    simp only [stepScheduler, orphanPoll] at h
    repeat' split at h
    all_goals cases h
    all_goals exact hsame rfl rfl
  | send =>
    simp only [stepScheduler, schedulerSend] at h
    split at h
    · rename_i envelope rest hphase
      split at h
      · rename_i queue hsend
        cases h
        obtain ⟨-, rfl⟩ := Mpsc.Channel.trySend_eq_ok.mp hsend
        have hpush := entering_of_push json s
          { s with queue := s.queue.push ⟨envelope, none⟩, scheduler := .firing rest } rfl e
        simp only [injects, hphase]
        dsimp only at hpush
        omega
      · cases h
        exact hsame rfl rfl
      · cases h
    · cases h

/-- A live row is one that the call may find alive. -/
theorem awaitedRow_of_live {registry : RedbRegistry} {bytes : Bytes} {refcount : Option Nat}
    {envelope : EventEnvelope} (h : rowFate json registry bytes refcount = .live envelope)
    (id : Uuid) : awaitedRow json (id, bytes, refcount) = some envelope.eventId := by
  unfold rowFate at h
  repeat' split at h
  all_goals cases h
  rename_i hpos _ persisted hdecode _ typeId _ _
  simp [awaitedRow, hpos, hdecode, PersistedEnvelope.envelope, EventEnvelope.eventId]

/-- A turn of the loop passes its row over, or is going to send the event of it. -/
theorem awaited_visit (json : SerdeJson) (registry : RedbRegistry) (id : Uuid) (bytes : Bytes)
    (refcount : Option Nat) (rows : List (Uuid × Bytes × Option Nat)) (dead : List Uuid)
    (e : Uuid) :
    (Replay.awaited json (match rowFate json registry bytes refcount with
      | .skip => .pending rows dead
      | .dead => .pending rows (dead ++ [id])
      | .live envelope => .pendingSend envelope rows dead)).count e
      ≤ (Replay.awaited json (.pending ((id, bytes, refcount) :: rows) dead)).count e := by
  have hdrop : (rows.filterMap (awaitedRow json)).count e
      ≤ (((id, bytes, refcount) :: rows).filterMap (awaitedRow json)).count e :=
    ((List.sublist_cons_self _ rows).filterMap _).count_le e
  cases hfate : rowFate json registry bytes refcount with
  | skip => exact hdrop
  | dead => exact hdrop
  | live envelope =>
    simp only [Replay.awaited]
    rw [List.filterMap_cons_some (awaitedRow_of_live hfate id)]

/-- No turn of a replay call adds to what the calls are going to send. -/
theorem awaitedOf_stepReplay {a : ReplayAction} (h : s.stepReplay json a = some s')
    (ha : a ≠ .pending) (e : Uuid) :
    awaitedOf json s'.replays e ≤ awaitedOf json s.replays e := by
  cases a with
  | pending => exact absurd rfl ha
  | visit index =>
    simp only [stepReplay, replayVisit] at h
    split at h
    · rename_i id bytes refcount rows dead hreplay
      cases h
      have hvisit := awaited_visit json s.manager.registry id bytes refcount rows dead e
      exact awaitedOf_set_le json hreplay hvisit
    · cases h
  | send index =>
    simp only [stepReplay, replaySend] at h
    split at h
    · rename_i envelope rows dead hreplay
      have hsent : awaitedOf json (s.replays.set index (.pending rows dead)) e
          ≤ awaitedOf json s.replays e :=
        awaitedOf_set_le json hreplay (List.count_le_count_cons)
      split at h <;> cases h
      · exact hsent
      · exact hsent
    · cases h
  | collect index commits =>
    simp only [stepReplay, replayCollect] at h
    split at h
    · rename_i dead hreplay
      cases h
      exact (Nat.le_add_right _ _).trans_eq (awaitedOf_eraseIdx json hreplay e)
    · cases h
  | fail index =>
    simp only [stepReplay, replayFail] at h
    split at h
    · rename_i rows dead hreplay
      cases h
      exact (Nat.le_add_right _ _).trans_eq (awaitedOf_eraseIdx json hreplay e)
    · cases h
  | dlq =>
    simp only [stepReplay, replayDlq] at h
    split at h
    · cases h
    · cases h
      simp [awaitedOf_concat, Replay.awaited]
  | dlqSend index =>
    simp only [stepReplay, replayDlqSend] at h
    split at h
    · rename_i hreplay
      cases h
      exact (Nat.le_add_right _ _).trans_eq (awaitedOf_eraseIdx json hreplay e)
    · rename_i persisted rest hreplay
      have hrest : awaitedOf json (s.replays.set index (.dlq rest)) e
          ≤ awaitedOf json s.replays e :=
        awaitedOf_set_le json hreplay (Nat.le_refl 0)
      repeat' split at h
      all_goals
        cases h
        exact hrest
    · cases h

/-- A call of `replay_pending` is going to send what it finds alive. -/
theorem awaitedOf_pending (h : step json config s (.replay .pending) = some s') (e : Uuid) :
    awaitedOf json s'.replays e
      = awaitedOf json s.replays e + (injects json s (.replay .pending)).count e := by
  simp only [step, stepReplay, replayPending] at h
  split at h <;> cases h
  simp [awaitedOf_concat, injects, Replay.awaited]

/-- **One step** but the beginning of a `replay_pending`. -/
theorem awaitedOf_step {a : Action} (h : step json config s a = some s')
    (ha : a ≠ .replay .pending) (e : Uuid) :
    awaitedOf json s'.replays e ≤ awaitedOf json s.replays e := by
  have hsame : s'.replays = s.replays → awaitedOf json s'.replays e ≤ awaitedOf json s.replays e :=
    fun hreplays => by rw [hreplays]
  cases a with
  | publisher a => exact hsame (stepPublisher_queue h).1
  | worker a => exact hsame (stepWorker_sameTasks h).replays
  | scheduler a => exact hsame (replays_stepScheduler h)
  | handler a => exact hsame (stepHandler_sameInputs h).2.1
  | replay a => exact awaitedOf_stepReplay h (fun hpending => ha (by rw [hpending])) e
  | control a =>
    by_cases hcrash : a = .crash
    · subst hcrash
      cases h
      exact Nat.zero_le _
    · exact hsame (stepControl_sameWork h hcrash).replays

/-- A replay call sends what it was going to. -/
theorem entering_stepReplay {a : ReplayAction} (h : s.stepReplay json a = some s') (e : Uuid) :
    entering json s' e ≤ entering json s e + (injects json s (.replay a)).count e := by
  cases a with
  | pending =>
    simp only [stepReplay, replayPending] at h
    split at h <;> cases h
    simp only [entering, injects, awaitedOf_concat, Replay.awaited]
    omega
  | visit index =>
    simp only [stepReplay, replayVisit] at h
    split at h
    · rename_i id bytes refcount rows dead hreplay
      cases h
      have hvisit := awaitedOf_set_le json hreplay
        (awaited_visit json s.manager.registry id bytes refcount rows dead e)
      exact (Nat.add_le_add_left hvisit _).trans (Nat.le_add_right _ _)
    · cases h
  | send index =>
    simp only [stepReplay, replaySend] at h
    split at h
    · rename_i envelope rows dead hreplay
      have hset := awaitedOf_set json hreplay (.pending rows dead) e
      simp only [Replay.awaited, List.count_cons, beq_iff_eq] at hset
      split at h
      · rename_i queue hsend
        cases h
        obtain ⟨-, rfl⟩ := Mpsc.Channel.trySend_eq_ok.mp hsend
        simp only [entering, Mpsc.Channel.push_buffer, messagesOf_append, messagesOf_cons,
          messagesOf_nil]
        omega
      · cases h
        simp only [entering]
        omega
      · cases h
    · cases h
  | collect index commits =>
    simp only [stepReplay, replayCollect] at h
    split at h
    · rename_i dead hreplay
      cases h
      have herase := awaitedOf_eraseIdx json hreplay e
      simp only [entering]
      omega
    · cases h
  | fail index =>
    simp only [stepReplay, replayFail] at h
    split at h
    · rename_i rows dead hreplay
      cases h
      have herase := awaitedOf_eraseIdx json hreplay e
      simp only [entering]
      omega
    · cases h
  | dlq =>
    simp only [stepReplay, replayDlq] at h
    split at h
    · cases h
    · cases h
      simp only [entering, awaitedOf_concat, Replay.awaited, List.count_nil]
      omega
  | dlqSend index =>
    simp only [stepReplay, replayDlqSend] at h
    split at h
    · rename_i hreplay
      cases h
      have herase := awaitedOf_eraseIdx json hreplay e
      simp only [entering]
      omega
    · rename_i persisted rest hreplay
      have hset := awaitedOf_set json hreplay (.dlq rest) e
      simp only [Replay.awaited, List.count_nil] at hset
      have hinjects : injects json s (.replay (.dlqSend index)) = [persisted.metadata.eventId] := by
        simp only [injects, hreplay]
      rw [hinjects]
      split at h
      · split at h
        · rename_i typeId _ _ queue hsend
          cases h
          obtain ⟨-, rfl⟩ := Mpsc.Channel.trySend_eq_ok.mp hsend
          have hid : (persisted.message typeId).envelope.eventId = persisted.metadata.eventId := rfl
          simp only [entering, Mpsc.Channel.push_buffer, messagesOf_append, messagesOf_cons,
            messagesOf_nil, List.count_singleton, beq_iff_eq, hid]
          omega
        · cases h
          simp only [entering]
          omega
      · cases h
        simp only [entering]
        omega
    · cases h

/-- **One step** of anyone but the worker. -/
theorem entering_step {a : Action} (h : step json config s a = some s')
    (ha : ∀ b, a ≠ .worker b) (e : Uuid) :
    entering json s' e ≤ entering json s e + (injects json s a).count e := by
  cases a with
  | worker a => exact absurd rfl (ha a)
  | publisher a => exact entering_stepPublisher h e
  | scheduler a => exact entering_stepScheduler h e
  | replay a => exact entering_stepReplay h e
  | handler a =>
    obtain ⟨hqueue, hreplays, -⟩ := stepHandler_sameInputs h
    rw [entering_of_eq (by rw [hqueue]) hreplays]
    exact Nat.le_add_right _ _
  | control a =>
    by_cases hcrash : a = .crash
    · subst hcrash
      cases h
      exact Nat.zero_le _
    · have hsame := stepControl_sameWork h hcrash
      rw [entering_of_eq (by rw [hsame.queue]) hsame.replays]
      exact Nat.le_add_right _ _

/-! ## From the queue to `dispatch` -/

/-- Tickets of the event: it enters, or is with the worker and not handed on. -/
def tickets (json : SerdeJson) (s : PersistentBus) (e : Uuid) : Nat :=
  entering json s e + messagesOf s.worker.messages e

/-- Tickets of the event that have not been counted. -/
def uncounted (json : SerdeJson) (s : PersistentBus) (e : Uuid) : Nat :=
  entering json s e + messagesOf s.worker.uncounted e

theorem entering_stopWorker_le (json : SerdeJson) (s : PersistentBus) (e : Uuid) :
    entering json s.stopWorker e ≤ entering json s e := by
  unfold entering stopWorker Mpsc.Channel.dropReceiver
  dsimp only
  rw [messagesOf_nil]
  omega

theorem tickets_stepWorker {a : WorkerAction} (h : s.stepWorker json config a = some s')
    (e : Uuid) :
    tickets json s' e + (record json s (.worker a) s' log).handed.count e
      ≤ tickets json s e + log.handed.count e := by
  cases a with
  | recv =>
    obtain ⟨hphase, ⟨msg, rest, hqueue, rfl⟩ | ⟨-, rfl⟩⟩ := recv_cases h
    · simp only [tickets, entering, record, hphase, hqueue, Worker.messages, messagesOf_cons,
        messagesOf_nil]
      omega
    · have hstop := entering_stopWorker_le json s e
      have hmessages : s.stopWorker.worker.messages = [] := rfl
      simp only [tickets, record, hmessages, messagesOf_nil]
      omega
  | tryRecv =>
    obtain ⟨batch, msg, rest, hphase, hqueue, rfl⟩ := tryRecv_cases h
    simp only [tickets, entering, record, hphase, hqueue, Worker.messages, messagesOf_append,
      messagesOf_cons, messagesOf_nil]
    omega
  | check reads =>
    obtain ⟨batch, checked, hphase, rfl, rfl⟩ := check_cases h
    have hvalid := messagesOf_sublist (DupCheck.valid_sublist
      RedbDispatcherMessage.idempotencyKey
      (fun key => reads key && s.db.keyRecorded key) batch) e
    simp only [tickets, record, hphase, Worker.messages, List.map_nil, List.nil_append]
    exact Nat.add_le_add_right (Nat.add_le_add_left hvalid _) _
  | count now =>
    obtain ⟨done, msg, rest, n, hphase, -, rfl⟩ := count_cases h
    have hmessages : messagesOf ((done ++ [(⟨msg, n, now⟩ : Counted)]).map (·.msg) ++ rest) e
        = messagesOf (done.map (·.msg) ++ msg :: rest) e := by simp
    simp only [tickets, record, hphase, Worker.messages, hmessages]
    exact Nat.le_refl _
  | write faults =>
    have hhanded : (record json s (.worker (.write faults)) s' log).handed = log.handed := by
      simp only [record]
      repeat' split
      all_goals rfl
    obtain ⟨done, hphase, ⟨-, rfl⟩ | ⟨msg, -, rfl⟩ | ⟨-, rfl⟩⟩ := write_cases h
    · simp only [tickets, hhanded, hphase, Worker.messages, List.append_nil]
      exact Nat.le_refl _
    · simp only [tickets, hhanded, hphase, Worker.messages, List.append_nil]
      exact Nat.le_refl _
    · simp only [tickets, hhanded, Worker.messages, messagesOf_nil, Nat.add_zero]
      exact Nat.add_le_add_right (Nat.le_add_right _ _) _
  | deliver now =>
    obtain ⟨hphase, rfl⟩ | ⟨msg, rest, hphase, ⟨hsched, rfl⟩ | ⟨hdue, rfl⟩⟩ := deliver_cases h
    · simp only [tickets, record, hphase, Worker.messages]
      exact Nat.le_refl _
    · simp only [tickets, record, hphase, hsched, ↓reduceIte, Worker.messages, messagesOf_cons]
      exact Nat.add_le_add_right (Nat.add_le_add_left (Nat.le_add_right _ _) _) _
    · -- the ticket is traded for the dispatch
      simp only [tickets, entering, record, hphase, hdue, Bool.false_eq_true, ↓reduceIte,
        Worker.messages, messagesOf_cons, List.count_append, List.count_singleton, beq_iff_eq]
      omega
  | push id =>
    obtain ⟨envelope, sends, rest, hphase, -, rfl⟩ := push_cases h
    simp only [tickets, record, hphase, Worker.messages]
    exact Nat.le_refl _
  | dispatched =>
    obtain ⟨envelope, sends, rest, hphase, rfl⟩ := dispatched_cases h
    simp only [tickets, record, hphase, Worker.messages]
    exact Nat.le_refl _
  | panic =>
    obtain ⟨-, rfl⟩ := workerPanic_cases h
    have hstop := entering_stopWorker_le json s e
    have hmessages : s.stopWorker.worker.messages = [] := rfl
    simp only [tickets, record, hmessages, messagesOf_nil]
    omega

/-- Nobody but the worker moves a batch on, whatever part of it is looked at. -/
theorem entering_add_messagesOf {a : Action} (h : step json config s a = some s')
    (ha : ∀ b, a ≠ .worker b) (part : Worker → List RedbDispatcherMessage)
    (hreceiving : part .receiving = []) (hunspawned : part .unspawned = []) (e : Uuid) :
    entering json s' e + messagesOf (part s'.worker) e
      ≤ entering json s e + messagesOf (part s.worker) e + (injects json s a).count e := by
  have hentering := entering_step h ha e
  rcases worker_of_not_worker h ha with heq | hidle | hidle
  · rw [heq]
    omega
  · rw [hidle, hreceiving, messagesOf_nil]
    omega
  · rw [hidle, hunspawned, messagesOf_nil]
    omega

/-- Only the worker counts events and hands them on. -/
theorem record_of_not_worker (json : SerdeJson) (s s' : PersistentBus) (log : Log) {a : Action}
    (ha : ∀ b, a ≠ .worker b) :
    (record json s a s' log).tallied = log.tallied ∧
      (record json s a s' log).counted = log.counted ∧
      (record json s a s' log).committed = log.committed ∧
      (record json s a s' log).handed = log.handed ∧
      (record json s a s' log).sent = log.sent := by
  cases a with
  | worker a => exact absurd rfl (ha a)
  | publisher a => cases a <;> exact ⟨rfl, rfl, rfl, rfl, rfl⟩
  | scheduler a => exact ⟨rfl, rfl, rfl, rfl, rfl⟩
  | handler a => cases a <;> exact ⟨rfl, rfl, rfl, rfl, rfl⟩
  | replay a => exact ⟨rfl, rfl, rfl, rfl, rfl⟩
  | control a => exact ⟨rfl, rfl, rfl, rfl, rfl⟩

/-- **One step** makes no ticket but those it injects, and trades one for a dispatch. -/
theorem tickets_step (log : Log) {a : Action} (h : step json config s a = some s') (e : Uuid) :
    tickets json s' e + (record json s a s' log).handed.count e
      ≤ tickets json s e + log.handed.count e + (injects json s a).count e := by
  by_cases hworker : ∃ b, a = .worker b
  · obtain ⟨b, rfl⟩ := hworker
    exact (tickets_stepWorker h e).trans (Nat.le_add_right _ _)
  · have hnot : ∀ b, a ≠ .worker b := fun b hb => hworker ⟨b, hb⟩
    have hrest := entering_add_messagesOf h hnot Worker.messages rfl rfl e
    rw [(record_of_not_worker json s s' log hnot).2.2.2.1]
    unfold tickets
    omega

theorem uncounted_stepWorker {a : WorkerAction} (h : s.stepWorker json config a = some s')
    (e : Uuid) :
    uncounted json s' e + (record json s (.worker a) s' log).tallied.count e
      ≤ uncounted json s e + log.tallied.count e := by
  cases a with
  | recv =>
    obtain ⟨hphase, ⟨msg, rest, hqueue, rfl⟩ | ⟨-, rfl⟩⟩ := recv_cases h
    · simp only [uncounted, entering, record, hphase, hqueue, Worker.uncounted, messagesOf_cons,
        messagesOf_nil]
      omega
    · have hstop := entering_stopWorker_le json s e
      have hmessages : s.stopWorker.worker.uncounted = [] := rfl
      simp only [uncounted, record, hmessages, messagesOf_nil]
      omega
  | tryRecv =>
    obtain ⟨batch, msg, rest, hphase, hqueue, rfl⟩ := tryRecv_cases h
    simp only [uncounted, entering, record, hphase, hqueue, Worker.uncounted, messagesOf_append,
      messagesOf_cons, messagesOf_nil]
    omega
  | check reads =>
    obtain ⟨batch, checked, hphase, rfl, rfl⟩ := check_cases h
    have hvalid := messagesOf_sublist (DupCheck.valid_sublist
      RedbDispatcherMessage.idempotencyKey
      (fun key => reads key && s.db.keyRecorded key) batch) e
    simp only [uncounted, record, hphase, Worker.uncounted]
    exact Nat.add_le_add_right (Nat.add_le_add_left hvalid _) _
  | count now =>
    obtain ⟨done, msg, rest, n, hphase, -, rfl⟩ := count_cases h
    simp only [uncounted, entering, record, hphase, Worker.uncounted, messagesOf_cons,
      List.count_append, List.count_singleton, beq_iff_eq]
    omega
  | write faults =>
    have htallied : (record json s (.worker (.write faults)) s' log).tallied = log.tallied := by
      simp only [record]
      repeat' split
      all_goals rfl
    obtain ⟨done, hphase, ⟨-, rfl⟩ | ⟨msg, -, rfl⟩ | ⟨-, rfl⟩⟩ := write_cases h
    all_goals
      simp only [uncounted, htallied, hphase, Worker.uncounted]
      exact Nat.le_refl _
  | deliver now =>
    have htallied : (record json s (.worker (.deliver now)) s' log).tallied = log.tallied := by
      simp only [record]
      repeat' split
      all_goals rfl
    obtain ⟨hphase, rfl⟩ | ⟨msg, rest, hphase, ⟨-, rfl⟩ | ⟨-, rfl⟩⟩ := deliver_cases h
    all_goals
      simp only [uncounted, htallied, hphase, Worker.uncounted]
      exact Nat.le_refl _
  | push id =>
    obtain ⟨envelope, sends, rest, hphase, -, rfl⟩ := push_cases h
    simp only [uncounted, record, hphase, Worker.uncounted]
    exact Nat.le_refl _
  | dispatched =>
    obtain ⟨envelope, sends, rest, hphase, rfl⟩ := dispatched_cases h
    simp only [uncounted, record, hphase, Worker.uncounted]
    exact Nat.le_refl _
  | panic =>
    obtain ⟨-, rfl⟩ := workerPanic_cases h
    have hstop := entering_stopWorker_le json s e
    have hmessages : s.stopWorker.worker.uncounted = [] := rfl
    simp only [uncounted, record, hmessages, messagesOf_nil]
    omega

/-- **One step** counts an event for a ticket that was not counted. -/
theorem uncounted_step (log : Log) {a : Action} (h : step json config s a = some s') (e : Uuid) :
    uncounted json s' e + (record json s a s' log).tallied.count e
      ≤ uncounted json s e + log.tallied.count e + (injects json s a).count e := by
  by_cases hworker : ∃ b, a = .worker b
  · obtain ⟨b, rfl⟩ := hworker
    exact (uncounted_stepWorker h e).trans (Nat.le_add_right _ _)
  · have hnot : ∀ b, a ≠ .worker b := fun b hb => hworker ⟨b, hb⟩
    have hrest := entering_add_messagesOf h hnot Worker.uncounted rfl rfl e
    rw [(record_of_not_worker json s s' log hnot).1]
    unfold uncounted
    omega

end PersistentBus
end TokioEvents
