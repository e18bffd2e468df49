/-
  TokioEvents.Persistence.Settling

  What becomes of a persistent bus of which nothing more is asked, and whose clock stands
  still.  Every step of its own takes a measure down, so it comes to rest; and where it rests
  nothing is left undone: the queue, the channels and the completions are empty, the scheduler
  sleeps, and every replay call has returned, unless there never was a worker.  A graceful
  shutdown that has closed the queue therefore comes to its end.

  An event with a `deliver_at` may still take the detour over the scheduler's table; the event
  that the scheduler fires has none, so no event takes it twice.
-/

import Mathlib.Algebra.Order.BigOperators.Group.List
import Mathlib.Data.Prod.Lex
import TokioEvents.Lib.Settling
import TokioEvents.Persistence.Bus.Ring
import TokioEvents.Persistence.Capacity
import TokioEvents.Persistence.Rows

namespace TokioEvents

/-! ## The measure -/

/-- The steps an event may cause by way of the scheduler's table. -/
def EventEnvelope.detour (e : EventEnvelope) : Nat := if e.metadata.deliverAt = none then 0 else 10

/-- The steps a message in the queue may cause, up to its dispatch. -/
def RedbDispatcherMessage.work (msg : RedbDispatcherMessage) : Nat := 8 + msg.envelope.detour

/-- The steps of a message that has not been counted. -/
def RedbDispatcherMessage.countWork (msg : RedbDispatcherMessage) : Nat := 3 + msg.envelope.detour

/-- The steps of a message that has not been written. -/
def Counted.writeWork (counted : Counted) : Nat := 2 + counted.msg.envelope.detour

/-- The steps of the worker, until it receives again. -/
def Worker.work : Worker → Nat
  | .unspawned => 0
  | .receiving => 1
  | .draining batch => 4 + (batch.map RedbDispatcherMessage.countWork).sum
  | .counting done rest =>
    3 + (done.map Counted.writeWork).sum + (rest.map RedbDispatcherMessage.countWork).sum
  | .delivering rest => 2 + 2 * rest.length
  | .dispatching _ _ rest => 3 + 2 * rest.length
  | .stopped => 0

/-- The steps of the scheduler, until it sleeps again, and of the messages it sends. -/
def Scheduler.work : Scheduler → Nat
  | .polling _ => 2
  | .firing events => 1 + 10 * events.length
  | .sending envelope rest => 2 + (8 + envelope.detour) + 10 * rest.length
  | _ => 0

/-- The steps of a replay call, and of the messages it sends. -/
def Replay.work : Replay → Nat
  | .pending rows _ => 1 + 20 * rows.length
  | .pendingSend envelope rows _ => 2 + (8 + envelope.detour) + 20 * rows.length
  | .dlq envelopes => 1 + 19 * envelopes.length

theorem EventEnvelope.detour_le (e : EventEnvelope) : e.detour ≤ 10 := by
  unfold detour
  split <;> omega

namespace PersistentBus

variable {json : SerdeJson} {config : BusConfig} {s s' : PersistentBus}

/-- What is left to do up to the dispatch. -/
def front (s : PersistentBus) : Nat :=
  s.waiting.length + (s.queue.buffer.map RedbDispatcherMessage.work).sum + s.worker.work +
    s.scheduler.work + 10 * s.db.scheduledEvents.size + s.orphanPolls.length +
    (s.replays.map Replay.work).sum

/-- What is left to do after it. -/
def back (s : PersistentBus) : Nat :=
  4 * s.worker.sends.length +
    Weight.total (fun data => 3 * data.channel.length) s.manager.subscriptions +
    Weight.total (fun channel => 3 * channel.length) s.closed + Weight.total (fun _ => 2) s.busy +
    s.manager.registry.ackTx.length

/-- All that is left to do. -/
def work (s : PersistentBus) : ℕ ×ₗ ℕ := toLex (s.front, s.back)

theorem work_lt_of_front (h : s'.front < s.front) : s'.work < s.work :=
  Prod.Lex.toLex_lt_toLex.mpr (.inl h)

theorem work_lt_of_back (hfront : s'.front = s.front) (h : s'.back < s.back) :
    s'.work < s.work :=
  Prod.Lex.toLex_lt_toLex.mpr (.inr ⟨hfront, h⟩)

/-! ## The worker -/

theorem size_insertRow_le (db : Db) (row : DbInsert) :
    (db.insertRow row).scheduledEvents.size
      ≤ db.scheduledEvents.size + if row.isScheduled = true then 1 else 0 := by
  have hkey : (db.insertKey row).scheduledEvents = db.scheduledEvents := by
    unfold Db.insertKey
    cases row.idempotencyKey <;> rfl
  unfold Db.insertRow Db.insertEvent
  split
  · dsimp only
    rw [hkey]
    exact Std.ExtTreeMap.size_insert_le
  · dsimp only
    rw [hkey]
    exact Nat.le_add_right _ _

/-- Only an event with a time is stored for the scheduler. -/
theorem detour_of_isScheduled {e : EventEnvelope} {now : DateTime} (h : e.isScheduled now = true) :
    e.detour = 10 := by
  unfold EventEnvelope.detour
  rw [if_neg]
  intro hnone
  simp [EventEnvelope.isScheduled, hnone] at h

/-- Only events with a time are written to the scheduler's table. -/
theorem scheduledRows_le (json : SerdeJson) (db : Db) (done : List Counted) :
    10 * (db.insertRows (rowsOf json done)).scheduledEvents.size + 2 * done.length
      ≤ 10 * db.scheduledEvents.size + (done.map Counted.writeWork).sum := by
  induction done generalizing db with
  | nil => exact Nat.le_refl _
  | cons counted done ih =>
    have hrest : rowsOf json (counted :: done)
        = (counted.row json).toList ++ rowsOf json done := by
      cases hrow : counted.row json <;> simp [rowsOf, hrow]
    have hrow : 10 * (db.insertRows (counted.row json).toList).scheduledEvents.size
        ≤ 10 * db.scheduledEvents.size + counted.msg.envelope.detour := by
      cases hrow : counted.row json with
      | none => simp
      | some row =>
        obtain ⟨-, bytes, -, rfl⟩ := prepare_eq_some.mp hrow
        refine (Nat.mul_le_mul_left 10 (size_insertRow_le db _)).trans ?_
        dsimp only
        split
        · rename_i hscheduled
          rw [detour_of_isScheduled hscheduled]
          omega
        · omega
    rw [hrest, Db.insertRows_append, List.length_cons, List.map_cons, List.sum_cons]
    have := ih (db.insertRows (counted.row json).toList)
    simp only [Counted.writeWork] at this ⊢
    omega

/-- A send puts its event into one channel at most. -/
theorem channels_push (envelope : EventEnvelope) (s : PersistentBus) (id : Uuid) :
    Weight.total (fun data : SubscriptionData => 3 * data.channel.length)
        (SubscriptionManager.push envelope s.manager.subscriptions id) +
      Weight.total (fun channel => 3 * channel.length) (pushClosed envelope s id)
    ≤ Weight.total (fun data => 3 * data.channel.length) s.manager.subscriptions +
      Weight.total (fun channel => 3 * channel.length) s.closed + 3 := by
  unfold SubscriptionManager.push pushClosed
  cases hdata : s.manager.subscriptions[id]? with
  | some data =>
    dsimp only
    split
    · have htotal := Weight.total_insert_of_some
        (fun data : SubscriptionData => 3 * data.channel.length)
        { data with channel := data.channel ++ [envelope] } hdata
      simp only [List.length_append, List.length_singleton] at htotal
      omega
    · exact Nat.le_add_right _ _
  | none =>
    cases hclosed : s.closed[id]? with
    | some channel =>
      have htotal := Weight.total_insert_of_some
        (fun channel : List EventEnvelope => 3 * channel.length) (channel ++ [envelope]) hclosed
      simp only [List.length_append, List.length_singleton] at htotal
      dsimp only
      omega
    | none => exact Nat.le_add_right _ _

/-- **The worker** gets closer to receiving again, or completes a send. -/
theorem work_stepWorker {a : WorkerAction} (h : s.stepWorker json config a = some s') :
    s'.work < s.work := by
  have hstop : 0 < s.worker.work → s.stopWorker.work < s.work := by
    intro hpos
    refine work_lt_of_front ?_
    have hstopped : Worker.stopped.work = 0 := rfl
    simp only [front, stopWorker, hstopped, Mpsc.Channel.dropReceiver, List.map_nil, List.sum_nil]
    omega
  cases a with
  | recv =>
    obtain ⟨hphase, ⟨msg, rest, hqueue, rfl⟩ | ⟨-, rfl⟩⟩ := recv_cases h
    · refine work_lt_of_front ?_
      simp only [front, hphase, hqueue, Worker.work, RedbDispatcherMessage.work,
        RedbDispatcherMessage.countWork, List.map_cons, List.map_nil, List.sum_cons, List.sum_nil]
      omega
    · exact hstop (by simp [hphase, Worker.work])
  | tryRecv =>
    obtain ⟨batch, msg, rest, hphase, hqueue, rfl⟩ := tryRecv_cases h
    refine work_lt_of_front ?_
    simp only [front, hphase, hqueue, Worker.work, RedbDispatcherMessage.work,
      RedbDispatcherMessage.countWork, List.map_append, List.map_cons, List.map_nil,
      List.sum_append, List.sum_cons, List.sum_nil]
    omega
  | check reads =>
    obtain ⟨batch, checked, hphase, rfl, rfl⟩ := check_cases h
    have hvalid := ((DupCheck.valid_sublist RedbDispatcherMessage.idempotencyKey
      (fun key => reads key && s.db.keyRecorded key) batch).map
        RedbDispatcherMessage.countWork).sum_le_sum fun _ _ => Nat.zero_le _
    refine work_lt_of_front ?_
    simp only [front, hphase, Worker.work, List.map_nil, List.sum_nil]
    omega
  | count now =>
    obtain ⟨done, msg, rest, n, hphase, -, rfl⟩ := count_cases h
    refine work_lt_of_front ?_
    simp only [front, hphase, Worker.work, Counted.writeWork, RedbDispatcherMessage.countWork,
      List.map_append, List.map_cons, List.map_nil, List.sum_append, List.sum_cons, List.sum_nil]
    omega
  | write faults =>
    have hlength : ∀ done : List Counted, 2 * done.length ≤ (done.map Counted.writeWork).sum := by
      intro done
      induction done with
      | nil => exact Nat.le_refl _
      | cons counted done ih =>
        simp only [List.length_cons, List.map_cons, List.sum_cons, Counted.writeWork]
        omega
    obtain ⟨done, hphase, ⟨-, rfl⟩ | ⟨msg, -, rfl⟩ | ⟨-, rfl⟩⟩ := write_cases h
    · refine work_lt_of_front ?_
      have hrows := scheduledRows_le json s.db done
      simp only [front, hphase, Worker.work, List.length_map, List.map_nil, List.sum_nil]
      omega
    · refine work_lt_of_front ?_
      have := hlength done
      simp only [front, hphase, Worker.work, List.length_map, List.map_nil, List.sum_nil]
      omega
    · refine work_lt_of_front ?_
      simp only [front, hphase, Worker.work, List.map_nil, List.sum_nil]
      omega
  | deliver now =>
    obtain ⟨hphase, rfl⟩ | ⟨msg, rest, hphase, ⟨-, rfl⟩ | ⟨-, rfl⟩⟩ := deliver_cases h
    · refine work_lt_of_front ?_
      simp only [front, hphase, Worker.work, List.length_nil]
      omega
    · refine work_lt_of_front ?_
      simp only [front, hphase, Worker.work, List.length_cons]
      omega
    · refine work_lt_of_front ?_
      simp only [front, hphase, Worker.work, List.length_cons]
      omega
  | push id =>
    obtain ⟨envelope, sends, rest, hphase, hmem, rfl⟩ := push_cases h
    refine work_lt_of_back ?_ ?_
    · simp only [front, hphase, Worker.work]
    · have hpos := List.length_pos_of_mem hmem
      have hsends : (sends.erase id).length + 1 = sends.length := by
        rw [List.length_erase_of_mem hmem]
        omega
      have hchannel := channels_push envelope s id
      simp only [back, hphase, Worker.sends]
      omega
  | dispatched =>
    obtain ⟨envelope, sends, rest, hphase, rfl⟩ := dispatched_cases h
    refine work_lt_of_front ?_
    simp only [front, hphase, Worker.work]
    omega
  | panic =>
    obtain ⟨hphase, rfl⟩ := workerPanic_cases h
    refine hstop ?_
    rcases hphase with ⟨done, rest, hphase⟩ | ⟨envelope, sends, rest, hphase⟩
    · simp only [hphase, Worker.work]
      omega
    · simp only [hphase, Worker.work]
      omega

/-! ## The scheduler and the replay calls -/

/-- Keys that are there and differ are removed one by one. -/
theorem size_foldl_erase {K V α : Type} [Ord K] [Std.TransOrd K] [Std.LawfulEqOrd K] (key : α → K)
    {l : List α} {t : Table K V} (hnodup : (l.map key).Nodup) (hmem : ∀ a ∈ l, key a ∈ t) :
    (l.foldl (fun t a => t.erase (key a)) t).size + l.length = t.size := by
  induction l generalizing t with
  | nil => rfl
  | cons a l ih =>
    obtain ⟨hnot, hrest⟩ := List.nodup_cons.mp hnodup
    have ha := hmem a List.mem_cons_self
    have hsize := ih (t := t.erase (key a)) hrest fun b hb => by
      rw [Std.ExtTreeMap.mem_erase]
      refine ⟨fun heq => hnot ?_, hmem b (List.mem_cons_of_mem a hb)⟩
      rw [Std.LawfulEqOrd.compare_eq_iff_eq.mp heq]
      exact List.mem_map_of_mem hb
    have hpos : t.size ≠ 0 := by
      intro hzero
      rw [Std.ExtTreeMap.eq_empty_iff_size_eq_zero.mpr hzero] at ha
      simp at ha
    rw [Std.ExtTreeMap.size_erase, if_pos (by simpa using ha)] at hsize
    rw [List.foldl_cons, List.length_cons]
    omega

/-- A committed poll takes the rows of its events out of the table. -/
theorem size_poll (json : SerdeJson) (db : Db) (nowMs : Nat) :
    (db.poll nowMs).scheduledEvents.size + (db.readyEvents json nowMs).length
      ≤ db.scheduledEvents.size := by
  have hsize := size_foldl_erase Prod.fst (l := db.dueRows nowMs) (t := db.scheduledEvents) ?_ ?_
  · have hready : (db.readyEvents json nowMs).length ≤ (db.dueRows nowMs).length :=
      List.length_filterMap_le _ _
    unfold Db.poll
    dsimp only
    omega
  · have hkeys : (db.scheduledEvents.toList.map (·.1)).Nodup := by
      rw [Std.ExtTreeMap.map_fst_toList_eq_keys]
      exact Std.ExtTreeMap.nodup_keys
    exact ((List.takeWhile_sublist _).map _).nodup hkeys
  · intro row hrow
    rw [← Std.ExtTreeMap.isSome_getElem?_iff_mem, (Db.mem_dueRows.mp hrow).1]
    rfl

/-- What is sent to a closed queue is lost. -/
theorem front_trySend {msg : RedbDispatcherMessage} {queue : Mpsc.Channel RedbDispatcherMessage}
    (h : s.queue.trySend msg = .ok queue) :
    (queue.buffer.map RedbDispatcherMessage.work).sum
      = (s.queue.buffer.map RedbDispatcherMessage.work).sum + msg.work := by
  obtain ⟨-, rfl⟩ := Mpsc.Channel.trySend_eq_ok.mp h
  simp

/-- The step is asked for from outside: a call, the clock, or a crash. -/
def Action.asked : Action → Bool
  | .publisher (.returns _) => false
  | .publisher _ => true
  | .worker _ => false
  | .scheduler (.wake _) => true
  | .scheduler _ => false
  | .handler (.take _) => false
  | .handler (.complete _ _) => false
  | .handler (.ack _) => false
  | .handler _ => true
  | .replay .pending => true
  | .replay .dlq => true
  | .replay _ => false
  | .control _ => true

/-- **The scheduler** gets closer to its sleep. -/
theorem front_stepScheduler {a : SchedulerAction} (hasked : Action.asked (.scheduler a) = false)
    (h : s.stepScheduler json a = some s') : s'.front < s.front := by
  cases a with
  | wake now => simp [Action.asked] at hasked
  | poll commits =>
    simp only [stepScheduler, poll] at h
    split at h
    · rename_i nowMs hphase
      cases commits with
      | false =>
        cases h
        simp only [front, hphase, Scheduler.work]
        omega
      | true =>
        cases h
        have hsize := size_poll json s.db nowMs
        simp only [front, hphase, Scheduler.work]
        omega
    · cases h
  | fire =>
    simp only [stepScheduler, fire] at h
    split at h
    · rename_i hphase
      cases h
      simp only [front, hphase, Scheduler.work, List.length_nil]
      omega
    · rename_i persisted rest hphase
      have hdropped : ({ s with scheduler := .firing rest } : PersistentBus).front < s.front := by
        simp only [front, hphase, Scheduler.work, List.length_cons]
        omega
      split at h
      · rename_i typeId htype
        split at h
        · cases h
          -- the event that is fired has no time any more
          have hdetour : (firedEnvelope typeId persisted).detour = 0 := rfl
          simp only [front, hphase, Scheduler.work, List.length_cons, hdetour]
          omega
        · cases h
          exact hdropped
      · cases h
        exact hdropped
    · cases h
  | send =>
    simp only [stepScheduler, schedulerSend] at h
    split at h
    · rename_i envelope rest hphase
      split at h
      · rename_i queue hsend
        cases h
        have hqueue := front_trySend hsend
        simp only [RedbDispatcherMessage.work] at hqueue
        simp only [front, hphase, Scheduler.work]
        omega
      · cases h
        simp only [front, hphase, Scheduler.work]
        omega
      · cases h
    · cases h
  | orphanPoll index commits =>
    simp only [stepScheduler, orphanPoll] at h
    split at h
    · rename_i nowMs hpoll
      have hlength : (s.orphanPolls.eraseIdx index).length + 1 = s.orphanPolls.length := by
        have hlt := (List.getElem?_eq_some_iff.mp hpoll).1
        rw [List.length_eraseIdx_of_lt hlt]
        omega
      have hsize := size_poll json s.db nowMs
      cases commits with
      | false =>
        cases h
        simp only [front]
        omega
      | true =>
        cases h
        simp only [front]
        omega
    · cases h

/-- One replay call goes on. -/
theorem replays_set {index : Nat} {replay : Replay} (replay' : Replay)
    (h : s.replays[index]? = some replay) :
    ((s.replays.set index replay').map Replay.work).sum + replay.work
      = (s.replays.map Replay.work).sum + replay'.work :=
  Weight.sum_set Replay.work replay' h

/-- One replay call returns. -/
theorem replays_erase {index : Nat} {replay : Replay} (h : s.replays[index]? = some replay) :
    ((s.replays.eraseIdx index).map Replay.work).sum + replay.work
      = (s.replays.map Replay.work).sum := by
  obtain ⟨hlt, rfl⟩ := List.getElem?_eq_some_iff.mp h
  have hperm := ((List.getElem_cons_eraseIdx_perm hlt).map Replay.work).sum_eq
  rw [List.map_cons, List.sum_cons] at hperm
  omega

/-- **Replay calls** get closer to their end. -/
theorem front_stepReplay {a : ReplayAction} (hasked : Action.asked (.replay a) = false)
    (h : s.stepReplay json a = some s') : s'.front < s.front := by
  cases a with
  | pending => simp [Action.asked] at hasked
  | dlq => simp [Action.asked] at hasked
  | visit index =>
    simp only [stepReplay, replayVisit] at h
    split at h
    · rename_i id bytes refcount rows dead hreplay
      cases h
      cases hfate : rowFate json s.manager.registry bytes refcount with
      | skip =>
        have hset := replays_set (.pending rows dead) hreplay
        simp only [Replay.work, List.length_cons] at hset
        simp only [front]
        omega
      | dead =>
        have hset := replays_set (.pending rows (dead ++ [id])) hreplay
        simp only [Replay.work, List.length_cons] at hset
        simp only [front]
        omega
      | live envelope =>
        have hset := replays_set (.pendingSend envelope rows dead) hreplay
        have hdetour := envelope.detour_le
        simp only [Replay.work, List.length_cons] at hset
        simp only [front]
        omega
    · cases h
  | send index =>
    simp only [stepReplay, replaySend] at h
    split at h
    · rename_i envelope rows dead hreplay
      have hset := replays_set (.pending rows dead) hreplay
      simp only [Replay.work] at hset
      split at h
      · rename_i queue hsend
        cases h
        have hqueue := front_trySend (s := s) hsend
        simp only [RedbDispatcherMessage.work] at hqueue
        simp only [front]
        omega
      · cases h
        simp only [front]
        omega
      · cases h
    · cases h
  | collect index commits =>
    simp only [stepReplay, replayCollect] at h
    split at h
    · rename_i dead hreplay
      cases h
      have herase := replays_erase hreplay
      simp only [Replay.work, List.length_nil] at herase
      have hdb : (if commits = true then s.db.collectDead dead else s.db).scheduledEvents
          = s.db.scheduledEvents := by
        cases commits <;> rfl
      simp only [front, hdb]
      omega
    · cases h
  | fail index =>
    simp only [stepReplay, replayFail] at h
    split at h
    · rename_i rows dead hreplay
      cases h
      have herase := replays_erase hreplay
      simp only [Replay.work] at herase
      simp only [front]
      omega
    · cases h
  | dlqSend index =>
    simp only [stepReplay, replayDlqSend] at h
    split at h
    · rename_i hreplay
      cases h
      have herase := replays_erase hreplay
      simp only [Replay.work, List.length_nil] at herase
      simp only [front]
      omega
    · rename_i persisted rest hreplay
      have hset := replays_set (.dlq rest) hreplay
      simp only [Replay.work, List.length_cons] at hset
      have hskipped : ({ s with replays := s.replays.set index (.dlq rest) } : PersistentBus).front
          < s.front := by
        simp only [front]
        omega
      split at h
      · split at h
        · rename_i typeId _ _ queue hsend
          cases h
          have hqueue := front_trySend (s := s) hsend
          have hdetour := (persisted.message typeId).envelope.detour_le
          simp only [RedbDispatcherMessage.work] at hqueue
          simp only [front]
          omega
        · cases h
          exact hskipped
      · cases h
        exact hskipped
    · cases h

/-! ## The handlers -/

/-- **A handler** is through with its events some time, and so is the ack worker with the
    completions. -/
theorem work_stepHandler {a : HandlerAction} (hasked : Action.asked (.handler a) = false)
    (h : s.stepHandler a = some s') : s'.work < s.work := by
  cases a with
  | take id =>
    obtain ⟨hidle, envelope, rest, ⟨hdata, rfl⟩ | ⟨hleft, rfl⟩⟩ := handlerTake_cases h
    · refine work_lt_of_back rfl ?_
      have hbusy := Weight.total_insert_of_none (fun _ => 2) envelope hidle
      have htotal := Weight.total_insert_of_some
        (fun data : SubscriptionData => 3 * data.channel.length) ⟨rest, true⟩ hdata
      simp only [List.length_cons] at htotal
      simp only [back]
      omega
    · refine work_lt_of_back rfl ?_
      have hbusy := Weight.total_insert_of_none (fun _ => 2) envelope hidle
      have htotal := Weight.total_insert_of_some
        (fun channel : List EventEnvelope => 3 * channel.length) rest hleft
      simp only [List.length_cons] at htotal
      simp only [back]
      omega
  | complete id isSuccess =>
    obtain ⟨envelope, registry, hbusy, hacks, -, rfl⟩ := handlerComplete_cases h
    refine work_lt_of_back rfl ?_
    have htotal := Weight.total_erase (fun _ : EventEnvelope => 2) hbusy
    simp only [back, hacks, List.length_append, List.length_singleton]
    omega
  | ack commits =>
    obtain ⟨completion, rest, hacks, rfl⟩ := ack_step_cases h
    refine work_lt_of_back ?_ ?_
    · cases commits with
      | false => rfl
      | true => simp only [front, if_true, Db.scheduledEvents_ack]
    · simp only [back, hacks, List.length_cons]
      omega
  | _ => simp [Action.asked] at hasked

/-- **Every step of the bus's own leaves less to do.** -/
theorem work_lt {a : Action} (hasked : Action.asked a = false)
    (h : step json config s a = some s') : s'.work < s.work := by
  cases a with
  | publisher a =>
    cases a with
    | returns call =>
      refine work_lt_of_front ?_
      simp only [step, stepPublisher, returns, finish] at h
      split at h
      · rename_i hcall
        cases h
        have hlength : (s.waiting.filter (· != call)).length < s.waiting.length :=
          List.length_filter_lt_length_iff_exists.mpr ⟨call, hcall.1, by simp⟩
        simp only [front]
        omega
      · cases h
    | _ => simp [Action.asked] at hasked
  | worker a => exact work_stepWorker h
  | scheduler a => exact work_lt_of_front (front_stepScheduler hasked h)
  | handler a => exact work_stepHandler hasked h
  | replay a => exact work_lt_of_front (front_stepReplay hasked h)
  | control a => simp [Action.asked] at hasked

/-! ## Where the bus comes to rest -/

/-- What starting and ending the worker leaves behind. -/
structure Started (s : PersistentBus) : Prop where
  ended : s.worker = .stopped → s.queue.receiver = false ∧ s.queue.buffer = []
  unspawned : s.worker = .unspawned →
    s.isRunning = false ∧ s.waiting = [] ∧ s.scheduler.holdsSender = false
  exclusive : s.exclusive = true → s.scheduler = .stopped

theorem started_boot (json : SerdeJson) (config : BusConfig) (db : Db) :
    (boot json config db).Started where
  ended := by simp [boot]
  unspawned _ := ⟨rfl, rfl, rfl⟩
  exclusive := by simp [boot]

/-- A step that leaves the worker alone, and sends only to a queue with a receiver. -/
theorem Started.keep (hI : s.Started) (hworker : s'.worker = s.worker)
    (hqueue : s'.queue = s.queue ∨ s.queue.receiver = true)
    (hunspawned : s.worker = .unspawned →
      s'.isRunning = false ∧ s'.waiting = [] ∧ s'.scheduler.holdsSender = false)
    (hexclusive : s'.exclusive = true → s'.scheduler = .stopped) : s'.Started where
  ended hstopped := by
    rw [hworker] at hstopped
    obtain ⟨hreceiver, hempty⟩ := hI.ended hstopped
    rcases hqueue with heq | hopen
    · rw [heq]
      exact ⟨hreceiver, hempty⟩
    · rw [hopen] at hreceiver
      cases hreceiver
  unspawned h := hunspawned (hworker ▸ h)
  exclusive := hexclusive

theorem receiver_of_trySend {msg : RedbDispatcherMessage}
    {queue : Mpsc.Channel RedbDispatcherMessage} (h : s.queue.trySend msg = .ok queue) :
    s.queue.receiver = true :=
  (Mpsc.Channel.trySend_eq_ok.mp h).1.1

theorem Started.stepPublisher {a : PublisherAction} (hI : s.Started)
    (h : s.stepPublisher config a = some s') : s'.Started := by
  have hrunning : s.isRunning = true → s.worker ≠ .unspawned := by
    intro htrue hunspawned
    rw [(hI.unspawned hunspawned).1] at htrue
    cases htrue
  cases a with
  | dispatch envelope =>
    simp only [PersistentBus.stepPublisher, dispatch, finish] at h
    repeat' split at h
    all_goals cases h
    all_goals first
      | exact hI.keep rfl (.inl rfl) hI.unspawned hI.exclusive
      | refine hI.keep rfl (.inr (receiver_of_trySend ‹s.queue.trySend _ = .ok _›))
          (fun hunspawned => absurd hunspawned (hrunning ?_)) hI.exclusive
        simpa using ‹¬ (!s.isRunning) = true›
  | tryDispatch envelope =>
    simp only [PersistentBus.stepPublisher, tryDispatch] at h
    repeat' split at h
    all_goals cases h
    all_goals first
      | exact hI
      | exact hI.keep rfl (.inr (receiver_of_trySend ‹s.queue.trySend _ = .ok _›)) hI.unspawned
          hI.exclusive
  | returns call =>
    simp only [PersistentBus.stepPublisher, returns, finish] at h
    split at h <;> cases h
    refine hI.keep rfl (.inl rfl) (fun hunspawned => ?_) hI.exclusive
    obtain ⟨hrunning, hwaiting, hscheduler⟩ := hI.unspawned hunspawned
    exact ⟨hrunning, by simp [hwaiting], hscheduler⟩
  | cancel call =>
    simp only [PersistentBus.stepPublisher, cancel] at h
    split at h <;> cases h
    refine hI.keep rfl (.inl rfl) (fun hunspawned => ?_) hI.exclusive
    obtain ⟨hrunning, hwaiting, hscheduler⟩ := hI.unspawned hunspawned
    exact ⟨hrunning, by simp [hwaiting], hscheduler⟩

theorem Started.stepWorker {a : WorkerAction} (hI : s.Started)
    (h : s.stepWorker json config a = some s') : s'.Started := by
  have hstop : s.stopWorker.Started := ⟨fun _ => ⟨rfl, rfl⟩, by simp [stopWorker], hI.exclusive⟩
  cases a with
  | recv =>
    obtain ⟨-, ⟨msg, rest, -, rfl⟩ | ⟨-, rfl⟩⟩ := recv_cases h
    · exact ⟨by simp, by simp, hI.exclusive⟩
    · exact hstop
  | tryRecv =>
    obtain ⟨batch, msg, rest, -, -, rfl⟩ := tryRecv_cases h
    exact ⟨by simp, by simp, hI.exclusive⟩
  | check reads =>
    obtain ⟨batch, checked, -, -, rfl⟩ := check_cases h
    exact ⟨by simp, by simp, hI.exclusive⟩
  | count now =>
    obtain ⟨done, msg, rest, n, -, -, rfl⟩ := count_cases h
    exact ⟨by simp, by simp, hI.exclusive⟩
  | write faults =>
    obtain ⟨done, -, ⟨-, rfl⟩ | ⟨msg, -, rfl⟩ | ⟨-, rfl⟩⟩ := write_cases h
    · exact ⟨by simp, by simp, hI.exclusive⟩
    · exact ⟨by simp, by simp, hI.exclusive⟩
    · exact ⟨by simp, by simp, hI.exclusive⟩
  | deliver now =>
    obtain ⟨-, rfl⟩ | ⟨msg, rest, -, ⟨-, rfl⟩ | ⟨-, rfl⟩⟩ := deliver_cases h
    · exact ⟨by simp, by simp, hI.exclusive⟩
    · exact ⟨by simp, by simp, hI.exclusive⟩
    · exact ⟨by simp, by simp, hI.exclusive⟩
  | push id =>
    obtain ⟨envelope, sends, rest, -, -, rfl⟩ := push_cases h
    exact ⟨by simp, by simp, hI.exclusive⟩
  | dispatched =>
    obtain ⟨envelope, sends, rest, -, rfl⟩ := dispatched_cases h
    exact ⟨by simp, by simp, hI.exclusive⟩
  | panic =>
    obtain ⟨-, rfl⟩ := workerPanic_cases h
    exact hstop

/-- A scheduler that runs has a worker, and no shutdown has aborted it. -/
theorem Started.schedule (hI : s.Started) (hholds : s.scheduler.holdsSender = true)
    (hworker : s'.worker = s.worker) (hexclusive : s'.exclusive = s.exclusive)
    (hqueue : s'.queue = s.queue ∨ s.queue.receiver = true) : s'.Started := by
  refine hI.keep hworker hqueue (fun hunspawned => ?_) fun h => ?_
  · rw [(hI.unspawned hunspawned).2.2] at hholds
    cases hholds
  · rw [hI.exclusive (hexclusive ▸ h)] at hholds
    cases hholds

theorem Started.stepScheduler {a : SchedulerAction} (hI : s.Started)
    (h : s.stepScheduler json a = some s') : s'.Started := by
  cases a with
  | wake now =>
    simp only [PersistentBus.stepScheduler, wake] at h
    repeat' split at h
    all_goals cases h
    all_goals exact hI.schedule (by simp [*, Scheduler.holdsSender]) rfl rfl (.inl rfl)
  | poll commits =>
    simp only [PersistentBus.stepScheduler, poll] at h
    repeat' split at h
    all_goals cases h
    all_goals exact hI.schedule (by simp [*, Scheduler.holdsSender]) rfl rfl (.inl rfl)
  | fire =>
    simp only [PersistentBus.stepScheduler, fire] at h
    repeat' split at h
    all_goals cases h
    all_goals exact hI.schedule (by simp [*, Scheduler.holdsSender]) rfl rfl (.inl rfl)
  | send =>
    simp only [PersistentBus.stepScheduler, schedulerSend] at h
    repeat' split at h
    all_goals cases h
    · exact hI.schedule (by simp [*, Scheduler.holdsSender]) rfl rfl
        (.inr (receiver_of_trySend ‹s.queue.trySend _ = .ok _›))
    · exact hI.schedule (by simp [*, Scheduler.holdsSender]) rfl rfl (.inl rfl)
  | orphanPoll index commits =>
    simp only [PersistentBus.stepScheduler, orphanPoll] at h
    repeat' split at h
    all_goals cases h
    all_goals exact hI.keep rfl (.inl rfl) hI.unspawned hI.exclusive

theorem Started.stepReplay {a : ReplayAction} (hI : s.Started)
    (h : s.stepReplay json a = some s') : s'.Started := by
  cases a with
  | pending =>
    simp only [PersistentBus.stepReplay, replayPending] at h
    split at h <;> cases h
    exact hI.keep rfl (.inl rfl) hI.unspawned hI.exclusive
  | visit index =>
    simp only [PersistentBus.stepReplay, replayVisit] at h
    split at h <;> cases h
    exact hI.keep rfl (.inl rfl) hI.unspawned hI.exclusive
  | send index =>
    simp only [PersistentBus.stepReplay, replaySend] at h
    repeat' split at h
    all_goals cases h
    · exact hI.keep rfl (.inr (receiver_of_trySend ‹s.queue.trySend _ = .ok _›)) hI.unspawned
        hI.exclusive
    · exact hI.keep rfl (.inl rfl) hI.unspawned hI.exclusive
  | collect index commits =>
    simp only [PersistentBus.stepReplay, replayCollect] at h
    split at h <;> cases h
    exact hI.keep rfl (.inl rfl) hI.unspawned hI.exclusive
  | fail index =>
    simp only [PersistentBus.stepReplay, replayFail] at h
    split at h <;> cases h
    exact hI.keep rfl (.inl rfl) hI.unspawned hI.exclusive
  | dlq =>
    simp only [PersistentBus.stepReplay, replayDlq] at h
    split at h <;> cases h
    exact hI.keep rfl (.inl rfl) hI.unspawned hI.exclusive
  | dlqSend index =>
    simp only [PersistentBus.stepReplay, replayDlqSend] at h
    repeat' split at h
    all_goals cases h
    all_goals first
      | exact hI.keep rfl (.inl rfl) hI.unspawned hI.exclusive
      | exact hI.keep rfl (.inr (receiver_of_trySend ‹s.queue.trySend _ = .ok _›)) hI.unspawned
          hI.exclusive

theorem Started.stepHandler {a : HandlerAction} (hI : s.Started)
    (h : s.stepHandler a = some s') : s'.Started := by
  obtain ⟨hqueue, -, hscheduler⟩ := stepHandler_sameInputs h
  obtain ⟨-, hworker, -, hcalls⟩ := stepHandler_frame h
  refine hI.keep hworker (.inl hqueue) (fun hunspawned => ?_) fun hexclusive => ?_
  · rw [hcalls.isRunning, hcalls.waiting, hscheduler]
    exact hI.unspawned hunspawned
  · rw [hscheduler]
    exact hI.exclusive (hcalls.exclusive ▸ hexclusive)

theorem Started.stepControl {a : ControlAction} (hI : s.Started)
    (h : s.stepControl json config a = some s') : s'.Started := by
  cases a with
  | start =>
    simp only [PersistentBus.stepControl, start] at h
    split at h
    · cases h
    · rename_i hunlocked
      split at h
      · cases h
        exact hI
      · split at h
        · cases h
          exact ⟨by simp, by simp, fun hexclusive => absurd hexclusive hunlocked⟩
        · rename_i hspawned
          cases h
          exact hI.keep rfl (.inl rfl) (fun hunspawned => absurd hunspawned hspawned) hI.exclusive
  | stop =>
    simp only [PersistentBus.stepControl, stop] at h
    split at h <;> cases h
    exact hI.keep rfl (.inl rfl) (fun hunspawned => ⟨rfl, (hI.unspawned hunspawned).2⟩) hI.exclusive
  | abortScheduler =>
    simp only [PersistentBus.stepControl, abortScheduler] at h
    split at h <;> cases h
    refine hI.keep rfl (.inl rfl) (fun hunspawned => ?_) fun _ => rfl
    obtain ⟨hrunning, hwaiting, -⟩ := hI.unspawned hunspawned
    exact ⟨hrunning, hwaiting, rfl⟩
  | closeSender =>
    simp only [PersistentBus.stepControl, closeSender] at h
    split at h <;> cases h
    exact hI.keep rfl (.inl rfl) hI.unspawned hI.exclusive
  | joinWorker =>
    simp only [PersistentBus.stepControl, joinWorker] at h
    split at h <;> cases h
    refine hI.keep rfl (.inl rfl) (fun hunspawned => ⟨rfl, (hI.unspawned hunspawned).2⟩) ?_
    exact fun hexclusive => by cases hexclusive
  | crash =>
    cases h
    exact ⟨by simp [crash, boot], fun _ => ⟨rfl, rfl, rfl⟩, by simp [crash, boot]⟩

theorem started_exec {as : List Action} {db : Db}
    (h : exec json config (boot json config db) as = some s) : s.Started := by
  refine Transition.invariant (I := Started) (fun s a s' hI hstep => ?_)
    (started_boot json config db) h
  cases a with
  | publisher a => exact hI.stepPublisher hstep
  | worker a => exact hI.stepWorker hstep
  | scheduler a => exact hI.stepScheduler hstep
  | handler a => exact hI.stepHandler hstep
  | replay a => exact hI.stepReplay hstep
  | control a => exact hI.stepControl hstep

/-! ## What is left at rest -/

/-- A step of the bus's own in which nothing goes wrong: no fault and no panic. -/
def Action.Driven : Action → Prop
  | .publisher (.returns _) => True
  | .worker (.check reads) => ∀ key, reads key = true
  | .worker (.write faults) => ∀ call, faults call = none
  | .worker .panic => False
  | .worker _ => True
  | .scheduler (.poll commits) => commits = true
  | .scheduler .fire => True
  | .scheduler .send => True
  | .scheduler (.orphanPoll _ commits) => commits = true
  | .handler (.take _) => True
  | .handler (.complete _ isSuccess) => isSuccess = true
  | .handler (.ack commits) => commits = true
  | .replay (.visit _) => True
  | .replay (.send _) => True
  | .replay (.collect _ commits) => commits = true
  | .replay (.dlqSend _) => True
  | _ => False

theorem Action.asked_of_driven {a : Action} (h : Action.Driven a) : Action.asked a = false := by
  cases a with
  | publisher b => cases b <;> first | rfl | cases h
  | worker b => rfl
  | scheduler b => cases b <;> first | rfl | cases h
  | handler b => cases b <;> first | rfl | cases h
  | replay b => cases b <;> first | rfl | cases h
  | control b => cases h

/-- The bus has nothing left to do. -/
structure Idle (s : PersistentBus) : Prop where
  worker : s.worker = .unspawned ∨ s.worker = .stopped ∨
    s.worker = .receiving ∧ s.noSender = false
  queue : s.worker = .unspawned ∨ s.queue.buffer = []
  waiting : s.waiting = []
  scheduler : s.scheduler = .unspawned ∨ s.scheduler = .sleeping ∨ s.scheduler = .stopped
  orphanPolls : s.orphanPolls = []
  /-- A replay call is left only where it waits for room in a queue that has no worker. -/
  replays : ∀ replay ∈ s.replays, s.worker = .unspawned ∧
    s.queue.capacity ≤ s.queue.buffer.length ∧
    ∃ envelope rows dead, replay = .pendingSend envelope rows dead
  channel : ∀ (id : Uuid) data, s.manager.subscriptions[id]? = some data → data.live = true →
    data.channel = []
  closed : ∀ (id : Uuid) channel, s.closed[id]? = some channel →
    s.manager.subscriptions[id]? = none → channel = []
  busy : ∀ id : Uuid, s.busy[id]? = none
  ackTx : s.manager.registry.ackTx = []
  /-- A graceful shutdown that has closed the queue has nothing to wait for. -/
  shutdown : s.exclusive = true → s.sender = false → s.worker.ended = true

section Progress

variable (hsettled : Transition.Settled (step json config) Action.Driven s)

include hsettled

theorem busy_rests (id : Uuid) : s.busy[id]? = none := by
  cases hbusy : s.busy[id]? with
  | none => rfl
  | some envelope =>
    have hcomplete : s.handlerComplete id true = none := hsettled (.handler (.complete id true)) rfl
    simp [handlerComplete, hbusy] at hcomplete

theorem channel_rests {id : Uuid} {data : SubscriptionData}
    (hdata : s.manager.subscriptions[id]? = some data) (hlive : data.live = true) :
    data.channel = [] := by
  have htake : s.handlerTake id = none := hsettled (.handler (.take id)) trivial
  have hbusy := busy_rests hsettled id
  obtain ⟨channel, live⟩ := data
  cases hlive
  cases channel with
  | nil => rfl
  | cons envelope rest => simp [handlerTake, hbusy, hdata] at htake

theorem closed_rests {id : Uuid} {channel : List EventEnvelope}
    (hchannel : s.closed[id]? = some channel) (hdata : s.manager.subscriptions[id]? = none) :
    channel = [] := by
  have htake : s.handlerTake id = none := hsettled (.handler (.take id)) trivial
  have hbusy := busy_rests hsettled id
  cases channel with
  | nil => rfl
  | cons envelope rest => simp [handlerTake, hbusy, hdata, hchannel] at htake

/-- A worker that rests waits for messages, and there are none, or has ended. -/
theorem worker_rests (hchannel : 0 < config.handlerChannelSize) :
    s.worker = .unspawned ∨ s.worker = .stopped ∨
      s.worker = .receiving ∧ s.queue.buffer = [] ∧ s.noSender = false := by
  have hstuck : ∀ b, Action.Driven (.worker b) → s.stepWorker json config b = none :=
    fun b hb => hsettled (.worker b) hb
  cases hphase : s.worker with
  | unspawned => exact .inl rfl
  | stopped => exact .inr (.inl rfl)
  | receiving =>
    refine .inr (.inr ⟨rfl, ?_⟩)
    have hrecv := hstuck .recv trivial
    simp only [stepWorker, recv, hphase] at hrecv
    cases hqueue : s.queue.buffer with
    | nil => simpa [hqueue] using hrecv
    | cons msg rest =>
      simp only [hqueue] at hrecv
      split at hrecv <;> cases hrecv
  | draining batch =>
    -- the batch is drained further or checked
    have htry := hstuck .tryRecv trivial
    have hcheck := hstuck (.check fun _ => true) fun _ => rfl
    simp only [stepWorker, tryRecv, hphase] at htry
    simp only [stepWorker, check, hphase] at hcheck
    cases hqueue : s.queue.buffer with
    | nil => simp [hqueue] at hcheck
    | cons msg rest =>
      by_cases hlength : batch.length < 1000
      · simp [hqueue, hlength] at htry
      · simp [hqueue, Nat.le_of_not_lt hlength] at hcheck
  | counting done rest =>
    cases rest with
    | nil =>
      have hwrite := hstuck (.write noFaults) fun _ => rfl
      obtain ⟨history, hsome⟩ := write_noFaults json hphase
      exact absurd (hsome.symm.trans hwrite) (by simp)
    | cons msg rest =>
      have hcount := hstuck (.count 0) trivial
      simp [stepWorker, count, hphase, SubscriptionManager.subCount_redb] at hcount
  | delivering rest =>
    have hdeliver := hstuck (.deliver 0) trivial
    cases rest with
    | nil => simp [stepWorker, deliver, hphase] at hdeliver
    | cons msg rest =>
      simp only [stepWorker, deliver, hphase] at hdeliver
      split at hdeliver <;> cases hdeliver
  | dispatching envelope sends rest =>
    cases sends with
    | nil =>
      have hover := hstuck .dispatched trivial
      simp [stepWorker, dispatched, hphase] at hover
    | cons id sends =>
      -- the handlers have left room in every channel
      have hpush := hstuck (.push id) trivial
      simp only [stepWorker, push, hphase, List.mem_cons_self, if_true] at hpush
      split at hpush
      · rename_i data hdata
        split at hpush
        · rename_i hfull
          obtain ⟨hlive, hfull⟩ := Bool.and_eq_true_iff.mp hfull
          rw [channel_rests hsettled hdata hlive] at hfull
          exact absurd (of_decide_eq_true hfull) (Nat.not_le_of_lt hchannel)
        · cases hpush
      · rename_i hdata
        split at hpush
        · rename_i channel hclosed
          rw [closed_rests hsettled hclosed hdata] at hpush
          split at hpush
          · rename_i hfull
            exact absurd hfull (Nat.not_le_of_lt hchannel)
          · cases hpush
        · cases hpush

theorem queue_rests (hchannel : 0 < config.handlerChannelSize) (hstarted : s.Started)
    (hspawned : s.worker ≠ .unspawned) : s.queue.buffer = [] := by
  obtain hphase | hphase | ⟨-, hempty, -⟩ := worker_rests hsettled hchannel
  · exact absurd hphase hspawned
  · exact (hstarted.ended hphase).2
  · exact hempty

/-- A queue with a worker keeps no sender waiting. -/
theorem trySend_ne_full (hqueue : 0 < config.maxQueueSize)
    (hchannel : 0 < config.handlerChannelSize) (hstarted : s.Started)
    (hcapacity : s.queue.Within config.maxQueueSize) (hspawned : s.worker ≠ .unspawned)
    (msg : RedbDispatcherMessage) : s.queue.trySend msg ≠ .error .full := by
  have hempty := queue_rests hsettled hchannel hstarted hspawned
  have hroom : s.queue.buffer.length < s.queue.capacity := by
    rw [hempty, hcapacity.capacity_eq]
    exact hqueue
  cases hreceiver : s.queue.receiver <;> simp [Mpsc.Channel.trySend, hreceiver, hroom]

/-- A publisher waits for a message that is in the queue or with the worker. -/
theorem waiting_rests (hchannel : 0 < config.handlerChannelSize) (hstarted : s.Started) :
    s.waiting = [] := by
  by_cases hspawned : s.worker = .unspawned
  · exact (hstarted.unspawned hspawned).2.1
  · cases hwaiting : s.waiting with
    | nil => rfl
    | cons call rest =>
      have hreturns : s.returns call = none := hsettled (.publisher (.returns call)) trivial
      have hmessages : s.messages = [] := by
        rw [messages, queue_rests hsettled hchannel hstarted hspawned]
        obtain hphase | hphase | ⟨hphase, -⟩ := worker_rests hsettled hchannel
        · exact absurd hphase hspawned
        · rw [hphase]; rfl
        · rw [hphase]; rfl
      simp [returns, hwaiting, Holds, hmessages] at hreturns

theorem scheduler_rests (hqueue : 0 < config.maxQueueSize)
    (hchannel : 0 < config.handlerChannelSize) (hstarted : s.Started)
    (hcapacity : s.queue.Within config.maxQueueSize) :
    s.scheduler = .unspawned ∨ s.scheduler = .sleeping ∨ s.scheduler = .stopped := by
  have hstuck : ∀ b, Action.Driven (.scheduler b) → s.stepScheduler json b = none :=
    fun b hb => hsettled (.scheduler b) hb
  cases hphase : s.scheduler with
  | unspawned => exact .inl rfl
  | sleeping => exact .inr (.inl rfl)
  | stopped => exact .inr (.inr rfl)
  | polling nowMs =>
    have hpoll := hstuck (.poll true) rfl
    simp [stepScheduler, poll, hphase] at hpoll
  | firing events =>
    have hfire := hstuck .fire trivial
    cases events with
    | nil => simp [stepScheduler, fire, hphase] at hfire
    | cons persisted rest =>
      simp only [stepScheduler, fire, hphase] at hfire
      split at hfire
      · split at hfire <;> cases hfire
      · cases hfire
  | sending envelope rest =>
    have hspawned : s.worker ≠ .unspawned := by
      intro hunspawned
      have hholds := (hstarted.unspawned hunspawned).2.2
      simp [hphase, Scheduler.holdsSender] at hholds
    have hsend := hstuck .send trivial
    simp only [stepScheduler, schedulerSend, hphase] at hsend
    split at hsend
    · cases hsend
    · cases hsend
    · rename_i hfull
      exact absurd hfull (trySend_ne_full hsettled hqueue hchannel hstarted hcapacity hspawned _)

/-- A replay call returns, but where its message waits for a worker. -/
theorem replays_rest (hqueue : 0 < config.maxQueueSize)
    (hchannel : 0 < config.handlerChannelSize) (hstarted : s.Started)
    (hcapacity : s.queue.Within config.maxQueueSize) :
    ∀ replay ∈ s.replays, s.worker = .unspawned ∧ s.queue.capacity ≤ s.queue.buffer.length ∧
      ∃ envelope rows dead, replay = .pendingSend envelope rows dead := by
  intro replay hmem
  obtain ⟨index, hreplay⟩ := List.mem_iff_getElem?.mp hmem
  have hstuck : ∀ b, Action.Driven (.replay b) → s.stepReplay json b = none :=
    fun b hb => hsettled (.replay b) hb
  cases replay with
  | pending rows dead =>
    cases rows with
    | nil =>
      have hcollect := hstuck (.collect index true) rfl
      simp [stepReplay, replayCollect, hreplay] at hcollect
    | cons row rows =>
      have hvisit := hstuck (.visit index) trivial
      simp [stepReplay, replayVisit, hreplay] at hvisit
  | pendingSend envelope rows dead =>
    have hsend := hstuck (.send index) trivial
    simp only [stepReplay, replaySend, hreplay] at hsend
    split at hsend
    · cases hsend
    · cases hsend
    · rename_i hfull
      refine ⟨?_, ?_, envelope, rows, dead, rfl⟩
      · by_contra hspawned
        exact trySend_ne_full hsettled hqueue hchannel hstarted hcapacity hspawned _ hfull
      · exact Mpsc.Channel.length_of_full hfull
  | dlq envelopes =>
    have hsend := hstuck (.dlqSend index) trivial
    cases envelopes with
    | nil => simp [stepReplay, replayDlqSend, hreplay] at hsend
    | cons persisted rest =>
      simp only [stepReplay, replayDlqSend, hreplay] at hsend
      split at hsend
      · split at hsend <;> cases hsend
      · cases hsend

/-- **Where the bus rests it is idle.** -/
theorem idle_of_settled (hqueue : 0 < config.maxQueueSize)
    (hchannel : 0 < config.handlerChannelSize) (hstarted : s.Started)
    (hcapacity : s.queue.Within config.maxQueueSize) : s.Idle where
  worker := by
    obtain hphase | hphase | ⟨hphase, -, hsender⟩ := worker_rests hsettled hchannel
    · exact .inl hphase
    · exact .inr (.inl hphase)
    · exact .inr (.inr ⟨hphase, hsender⟩)
  queue := by
    by_cases hspawned : s.worker = .unspawned
    · exact .inl hspawned
    · exact .inr (queue_rests hsettled hchannel hstarted hspawned)
  waiting := waiting_rests hsettled hchannel hstarted
  scheduler := scheduler_rests hsettled hqueue hchannel hstarted hcapacity
  orphanPolls := by
    cases hpolls : s.orphanPolls with
    | nil => rfl
    | cons nowMs rest =>
      have hpoll : s.orphanPoll 0 true = none := hsettled (.scheduler (.orphanPoll 0 true)) rfl
      simp [orphanPoll, hpolls] at hpoll
  replays := replays_rest hsettled hqueue hchannel hstarted hcapacity
  channel _ _ hdata hlive := channel_rests hsettled hdata hlive
  closed _ _ hclosed hdata := closed_rests hsettled hclosed hdata
  busy := busy_rests hsettled
  ackTx := by
    have hack : s.ack true = none := hsettled (.handler (.ack true)) rfl
    cases hacks : s.manager.registry.ackTx with
    | nil => rfl
    | cons completion rest => simp [ack, hacks] at hack
  shutdown hexclusive hsender := by
    obtain hphase | hphase | ⟨hphase, -, hheld⟩ := worker_rests hsettled hchannel
    · rw [hphase]; rfl
    · rw [hphase]; rfl
    · -- neither the scheduler nor a replay call keeps a sender
      have hreplays : s.replays = [] := by
        refine List.eq_nil_iff_forall_not_mem.mpr fun replay hmem => ?_
        have hunspawned := (replays_rest hsettled hqueue hchannel hstarted hcapacity replay hmem).1
        rw [hphase] at hunspawned
        cases hunspawned
      simp [noSender, hsender, hstarted.exclusive hexclusive, Scheduler.holdsSender, hreplays]
        at hheld

end Progress

/-! ## Every run -/

/-- What becomes of a bus of which nothing more is asked. -/
structure WindsDown (json : SerdeJson) (config : BusConfig) (s : PersistentBus) : Prop where
  /-- It cannot go on for ever. -/
  settles : Transition.Settles (step json config) (fun a => Action.asked a = false) s
  /-- Where it stops, with no help from faults or panics. -/
  rests : Transition.Settled (step json config) Action.Driven s → s.Idle
  reaches : ∃ as s', (∀ a ∈ as, Action.Driven a) ∧ exec json config s as = some s' ∧ s'.Idle

/-- **The bus winds down**, from every state that a run can reach, crashes and shutdowns
    included: no step of its own can be repeated for ever, and none is left only where all
    work is done. -/
theorem windsDown_exec {as : List Action} {db : Db} (hqueue : 0 < config.maxQueueSize)
    (hchannel : 0 < config.handlerChannelSize)
    (hexec : exec json config (boot json config db) as = some s) : s.WindsDown json config := by
  have hrests : ∀ {as : List Action} {s : PersistentBus},
      exec json config (boot json config db) as = some s →
      Transition.Settled (step json config) Action.Driven s → s.Idle :=
    fun hexec hsettled => idle_of_settled hsettled hqueue hchannel (started_exec hexec)
      (withinCapacity_exec hexec).queue
  refine ⟨?_, hrests hexec, ?_⟩
  · exact Transition.settles_of_measure (I := fun _ => True) work (fun _ _ _ _ _ _ => trivial)
      (fun _ _ _ _ hasked h => work_lt hasked h) trivial
  · have hless : ∀ s a s', True → Action.Driven a → step json config s a = some s' →
        work s' < work s :=
      fun _ _ _ _ hdriven h => work_lt (Action.asked_of_driven hdriven) h
    obtain ⟨bs, s', hdriven, hrun, hsettled⟩ :=
      Transition.exists_exec_settled work (fun _ _ _ _ _ _ => trivial) hless (s := s) trivial
    have hboth : exec json config (boot json config db) (as ++ bs) = some s' :=
      (Transition.exec_append_of_exec _ hexec).trans hrun
    exact ⟨bs, s', hdriven, hrun, hrests hboth hsettled⟩

/-- A graceful shutdown has closed the queue, and waits for a worker with an order to write. -/
def lastOrder : List Action :=
  crowdArrives 1 ++ [.publisher (.dispatch order), .control .abortScheduler,
    .control .closeSender, .worker .recv]

theorem windsDown_lastOrder : ∃ s,
    exec orderJson {} (boot orderJson {} .empty) lastOrder = some s ∧ s.worker.ended = false ∧
      s.WindsDown orderJson {} := by
  obtain ⟨s, hs⟩ := Option.isSome_iff_exists.mp
    (by decide +kernel : (exec orderJson {} (boot orderJson {} .empty) lastOrder).isSome = true)
  have hseen : (exec orderJson {} (boot orderJson {} .empty) lastOrder).map
      (fun s => s.worker.ended) = some false := by
    decide +kernel
  rw [hs] at hseen
  exact ⟨s, hs, Option.some.inj hseen, windsDown_exec (by decide) (by decide) hs⟩

end PersistentBus
end TokioEvents
