/-
  TokioEvents.Persistence.Bus.Scheduler

  The scheduler task `RedbDispatcher::scheduler_loop`: it polls
  `SCHEDULED_EVENTS_TABLE` for due rows, removes them in one transaction, and sends
  the decodable ones to the worker.
-/

import TokioEvents.Persistence.Bus.State

namespace TokioEvents

/-! ## The poll -/

namespace Db

/-- Keys are sorted by their timestamp first. -/
theorem fst_le_of_lt {a b : Nat × Uuid} (h : compare a b = .lt) : a.1 ≤ b.1 := by
  have hlex : (compare a.1 b.1).then (compare a.2 b.2) = .lt := h
  rw [Ordering.then_eq_lt] at hlex
  rcases hlex with hlt | ⟨heq, -⟩
  · exact Nat.le_of_lt (Nat.compare_eq_lt.mp hlt)
  · exact Nat.le_of_eq (Nat.compare_eq_eq.mp heq)

/-- The rows the scan collects: it stops at the first that is not due. -/
def dueRows (db : Db) (nowMs : Nat) : List ((Nat × Uuid) × Bytes) :=
  db.scheduledEvents.toList.takeWhile fun row => decide (row.1.1 ≤ nowMs)

/-- `ready_events`. -/
def readyEvents (json : SerdeJson) (db : Db) (nowMs : Nat) : List PersistedEnvelope :=
  (db.dueRows nowMs).filterMap fun row => json.fromSlice row.2

/-- The removal of the collected rows, committed. -/
def poll (db : Db) (nowMs : Nat) : Db :=
  { db with
    scheduledEvents := (db.dueRows nowMs).foldl (fun t row => t.erase row.1) db.scheduledEvents }

/-- The scan finds every due row although it stops at the first that is not: the table
    is sorted by time. -/
theorem mem_dueRows {db : Db} {nowMs : Nat} {row : (Nat × Uuid) × Bytes} :
    row ∈ db.dueRows nowMs ↔ db.scheduledEvents[row.1]? = some row.2 ∧ row.1.1 ≤ nowMs := by
  have hsorted : db.scheduledEvents.toList.Pairwise fun a b => a.1.1 ≤ b.1.1 := by
    refine Std.ExtTreeMap.ordered_keys_toList.imp fun {a b} h => ?_
    exact fst_le_of_lt h
  rw [← Std.ExtTreeMap.mem_toList_iff_getElem?_eq_some]
  unfold dueRows
  generalize db.scheduledEvents.toList = rows at hsorted ⊢
  induction rows with
  | nil => simp
  | cons first rest ih =>
    obtain ⟨hfirst, hrest⟩ := List.pairwise_cons.mp hsorted
    rw [List.takeWhile_cons]
    split
    · rename_i hdue
      simp only [List.mem_cons, ih hrest, or_and_right]
      refine or_congr_left ⟨fun h => ⟨h, ?_⟩, And.left⟩
      rw [h]
      exact of_decide_eq_true hdue
    · rename_i hdue
      have hlater : ¬ first.1.1 ≤ nowMs := by simpa using hdue
      simp only [List.not_mem_nil, List.mem_cons, false_iff, not_and]
      rintro (rfl | hmem) hle
      · exact hlater hle
      · exact hlater ((hfirst row hmem).trans hle)

/-- A committed poll removes exactly the due rows. -/
theorem getElem?_poll (db : Db) (nowMs : Nat) (key : Nat × Uuid) :
    (db.poll nowMs).scheduledEvents[key]?
      = if key.1 ≤ nowMs then none else db.scheduledEvents[key]? := by
  obtain ⟨hin, hout⟩ :=
    Table.getElem?_foldl_erase Prod.fst (db.dueRows nowMs) db.scheduledEvents key
  by_cases hmem : key ∈ (db.dueRows nowMs).map (·.1)
  · obtain ⟨row, hrow, rfl⟩ := List.mem_map.mp hmem
    rw [if_pos (mem_dueRows.mp hrow).2]
    exact hin hmem
  · refine (hout hmem).trans ?_
    split
    · rename_i hdue
      cases hget : db.scheduledEvents[key]? with
      | none => rfl
      | some bytes =>
        exact absurd (List.mem_map.mpr ⟨(key, bytes), mem_dueRows.mpr ⟨hget, hdue⟩, rfl⟩) hmem
    · rfl

end Db

/-- The steps of the scheduler. -/
inductive SchedulerAction where
  /-- The sleep is over; `now` is the clock. -/
  | wake (now : DateTime)
  /-- The transaction of the poll commits or fails. -/
  | poll (commits : Bool)
  /-- The next event of the poll, or the end of the loop over them. -/
  | fire
  /-- `sender.send(msg)` completes. -/
  | send
  /-- The poll of an aborted scheduler commits or fails; nobody sees its events. -/
  | orphanPoll (index : Nat) (commits : Bool)

namespace PersistentBus

/-- `sleep(tick_rate)`, with the checks of `is_running` around it. -/
def wake (s : PersistentBus) (now : DateTime) : Option PersistentBus :=
  match s.scheduler with
  | .sleeping =>
    if s.isRunning then some { s with scheduler := .polling (timestampMillisU64 now) }
    else some { s with scheduler := .stopped }
  | _ => none

/-- The blocking task of the poll, and the match on its result. -/
def poll (json : SerdeJson) (s : PersistentBus) (commits : Bool) : Option PersistentBus :=
  match s.scheduler with
  | .polling nowMs =>
    if commits then
      some { s with db := s.db.poll nowMs, scheduler := .firing (s.db.readyEvents json nowMs) }
    else some { s with scheduler := .sleeping }
  | _ => none

/-- The event that is sent to the worker: the `deliver_at` is stripped. -/
def firedEnvelope (typeId : TypeId) (persisted : PersistedEnvelope) : EventEnvelope :=
  { persisted with metadata := { persisted.metadata with deliverAt := none } }.envelope typeId

/-- One turn of the loop over the events of a poll, up to the send. -/
def fire (s : PersistentBus) : Option PersistentBus :=
  match s.scheduler with
  | .firing [] => some { s with scheduler := .sleeping }
  | .firing (persisted :: rest) =>
    match EventRegistry.getTypeId s.manager.registry persisted.typeName with
    | some typeId =>
      if EventRegistry.subscriptionCount s.manager.registry typeId > 0 then
        some { s with scheduler := .sending (firedEnvelope typeId persisted) rest }
      -- no subscriber: the event is dropped, its row is gone
      else some { s with scheduler := .firing rest }
    | none => some { s with scheduler := .firing rest }
  | _ => none

/-- `let _ = sender.send(msg).await`. -/
def schedulerSend (s : PersistentBus) : Option PersistentBus :=
  match s.scheduler with
  | .sending envelope rest =>
    match s.queue.trySend ⟨envelope, none⟩ with
    | .ok queue => some { s with queue := queue, scheduler := .firing rest }
    -- the result of the send is ignored
    | .error .closed => some { s with scheduler := .firing rest }
    | .error .full => none
  | _ => none

/-- The blocking task of a poll whose scheduler was aborted. -/
def orphanPoll (s : PersistentBus) (index : Nat) (commits : Bool) : Option PersistentBus :=
  match s.orphanPolls[index]? with
  | some nowMs =>
    let s := { s with orphanPolls := s.orphanPolls.eraseIdx index }
    if commits then some { s with db := s.db.poll nowMs } else some s
  | none => none

/-- A step of the scheduler. -/
def stepScheduler (json : SerdeJson) (s : PersistentBus) : SchedulerAction → Option PersistentBus
  | .wake now => s.wake now
  | .poll commits => s.poll json commits
  | .fire => s.fire
  | .send => s.schedulerSend
  | .orphanPoll index commits => s.orphanPoll index commits

end PersistentBus
end TokioEvents
