/-
  TokioEvents.Persistence.TwoClocks

  An event with a `deliver_at` that is persisted: `process_events` asks twice whether
  the time has come, once to choose the table of its row and once, after the write
  transaction, to decide whether to dispatch it.

  The two answers differ exactly when the time comes between the two readings.  The
  row is then in `SCHEDULED_EVENTS_TABLE` and the event is dispatched all the same,
  so the scheduler fires it a second time.
-/

import TokioEvents.Persistence.ScheduledEvents
import TokioEvents.Persistence.WriteAhead

namespace TokioEvents

namespace Db

theorem refcount_insertRow_eq (db : Db) (row : DbInsert) (e : Uuid) :
    (db.insertRow row).refcount[e]?
      = if row.isScheduled = false ∧ row.id = e then some row.subCount else db.refcount[e]? := by
  have hkey : (db.insertKey row).refcount = db.refcount := by
    unfold insertKey
    cases row.idempotencyKey <;> rfl
  unfold insertRow insertEvent
  cases hscheduled : row.isScheduled with
  | true => simp [hkey]
  | false => simp [hkey, Std.ExtTreeMap.getElem?_insert]

/-- A row's table has an entry under its key. -/
def Holds (db : Db) (row : DbInsert) : Prop :=
  if row.isScheduled then (db.scheduledEvents[(row.deliverAtMs, row.id)]?).isSome = true
  else (db.events[row.id]?).isSome = true ∧ (db.refcount[row.id]?).isSome = true

theorem holds_insertRow (db : Db) (row : DbInsert) : (db.insertRow row).Holds row := by
  unfold Holds
  cases hscheduled : row.isScheduled with
  | true => simp [scheduledEvents_insertRow, hscheduled]
  | false => simp [events_insertRow, refcount_insertRow_eq, hscheduled]

/-- Inserting a row removes no entry. -/
theorem Holds.insertRow {db : Db} {row : DbInsert} (h : db.Holds row) (row' : DbInsert) :
    (db.insertRow row').Holds row := by
  unfold Holds at h ⊢
  split at h
  · rename_i hscheduled
    rw [if_pos hscheduled, scheduledEvents_insertRow]
    split
    · rfl
    · exact h
  · rename_i hscheduled
    rw [if_neg hscheduled, events_insertRow, refcount_insertRow_eq]
    by_cases hsame : row'.isScheduled = false ∧ row'.id = row.id
    · rw [if_pos hsame, if_pos hsame]
      exact ⟨rfl, rfl⟩
    · rw [if_neg hsame, if_neg hsame]
      exact h

/-- A committed row has its entry after the transaction. -/
theorem holds_insertRows {db : Db} {rows : List DbInsert} {row : DbInsert} (hrow : row ∈ rows) :
    (db.insertRows rows).Holds row := by
  induction rows using List.reverseRecOn with
  | nil => cases hrow
  | append_singleton rows last ih =>
    have hlast : db.insertRows (rows ++ [last]) = (db.insertRows rows).insertRow last := by
      rw [insertRows_append]
      rfl
    rw [hlast]
    rcases List.mem_append.mp hrow with hold | hnew
    · exact (ih hold).insertRow last
    · rw [List.mem_singleton.mp hnew]
      exact holds_insertRow _ _

/-- The entry of a scheduled row was written by a row of the batch with that key. -/
theorem scheduledEvents_insertRows {db : Db} {rows : List DbInsert} {row : DbInsert}
    (hrow : row ∈ rows) (hscheduled : row.isScheduled = true) :
    ∃ last ∈ rows, (last.deliverAtMs, last.id) = (row.deliverAtMs, row.id) ∧
      (db.insertRows rows).scheduledEvents[(row.deliverAtMs, row.id)]? = some last.bytes := by
  induction rows using List.reverseRecOn with
  | nil => cases hrow
  | append_singleton rows new ih =>
    have hnew : db.insertRows (rows ++ [new]) = (db.insertRows rows).insertRow new := by
      rw [insertRows_append]
      rfl
    rw [hnew, scheduledEvents_insertRow]
    by_cases hkey : new.isScheduled = true ∧ (new.deliverAtMs, new.id) = (row.deliverAtMs, row.id)
    · exact ⟨new, by simp, hkey.2, by rw [if_pos hkey]⟩
    · rw [if_neg hkey]
      have hold : row ∈ rows := by
        rcases List.mem_append.mp hrow with hold | heq
        · exact hold
        · rw [List.mem_singleton.mp heq] at hscheduled hkey
          exact absurd ⟨hscheduled, rfl⟩ hkey
      obtain ⟨last, hlast, hlastKey, hget⟩ := ih hold
      exact ⟨last, by simp [hlast], hlastKey, hget⟩

end Db

/-! ## The two paths -/

section Paths

variable (json : SerdeJson) (out : BatchOutcome) (item : Item)

/-- The item's committed row, and what its table says. -/
def StoredAs (scheduled : Bool) : Prop :=
  ∃ row ∈ out.committed, item.row json = some row ∧ row.isScheduled = scheduled ∧ out.db.Holds row

/-- Stored for the scheduler, and not dispatched. -/
def LeftToScheduler : Prop := StoredAs json out item true ∧ item ∉ out.dispatched

/-- Stored with a refcount, and dispatched. -/
def HandedOver : Prop := StoredAs json out item false ∧ item ∈ out.dispatched

/-- The item takes exactly one of the two paths, and is not dispatched with its row
    waiting for the scheduler. -/
structure OnePath : Prop where
  one : Xor (LeftToScheduler json out item) (HandedOver json out item)
  notTwice : ¬ (StoredAs json out item true ∧ item ∈ out.dispatched)

end Paths

/-- The item's row is committed: it is counted, it serializes, and every redb call of
    the transaction succeeds. -/
def Persisted (json : SerdeJson) (faults : RedbCall → Option Fault) (db : Db) (batch : List Item)
    (item : Item) : Prop :=
  0 < item.subCount ∧ item.Serializes json ∧ TxnSucceeds faults (dbInserts json db batch)

/-- The time comes between the two readings of the clock. -/
def DueBetween (item : Item) (deliverAt : DateTime) : Prop :=
  item.persistNow < deliverAt ∧ deliverAt ≤ item.dispatchNow

section Batch

variable {json : SerdeJson} {faults : RedbCall → Option Fault} {db : Db} {batch : List Item}
  {item : Item}

/-- A persisted item's row is among the committed ones, and the batch is gone through. -/
theorem Persisted.committed (h : Persisted json faults db batch item)
    (hitem : item ∈ validBatch db batch) :
    ∃ row, item.row json = some row ∧ row ∈ (processBatch json faults db batch).committed ∧
      (processBatch json faults db batch).db.Holds row ∧
      (item ∈ (processBatch json faults db batch).dispatched
        ↔ item.msg.envelope.isScheduled item.dispatchNow = false) := by
  obtain ⟨hpos, hser, hok⟩ := h
  obtain ⟨row, hrow⟩ := Counted.exists_row_iff.mpr ⟨hpos, hser⟩
  have hmem : row ∈ dbInserts json db batch := mem_dbInserts hitem hrow
  have hwrite : batchWrite json faults db batch = .committed := by
    unfold batchWrite
    split
    · rfl
    · exact writeOutcome_eq_committed.mpr hok
  rw [processBatch_eq, hwrite]
  refine ⟨row, hrow, hmem, Db.holds_insertRows hmem, ?_⟩
  simp [hitem]

/-- A stored item was persisted. -/
theorem StoredAs.persisted {scheduled : Bool} (hitem : item ∈ validBatch db batch)
    (h : StoredAs json (processBatch json faults db batch) item scheduled) :
    Persisted json faults db batch item := by
  obtain ⟨row, hmem, hrow, -⟩ := h
  obtain ⟨hpos, hser⟩ := Counted.exists_row_iff.mp ⟨row, hrow⟩
  refine ⟨hpos, hser, ?_⟩
  rw [← writeOutcome_eq_committed]
  have hne := List.ne_nil_of_mem (mem_dbInserts hitem hrow)
  rw [processBatch_eq] at hmem
  have hwrite : batchWrite json faults db batch
      = writeOutcome faults (dbInserts json db batch) := by
    simp [batchWrite, hne]
  rw [hwrite] at hmem
  revert hmem
  cases writeOutcome faults (dbInserts json db batch) <;> simp [WriteOutcome.committedRows]

/-- The table is chosen by the first reading. -/
theorem storedAs_iff (h : Persisted json faults db batch item) (hitem : item ∈ validBatch db batch)
    (scheduled : Bool) :
    StoredAs json (processBatch json faults db batch) item scheduled
      ↔ item.msg.envelope.isScheduled item.persistNow = scheduled := by
  obtain ⟨row, hrow, hmem, hholds, -⟩ := h.committed hitem
  have hflag : row.isScheduled = item.msg.envelope.isScheduled item.persistNow := by
    obtain ⟨-, bytes, -, rfl⟩ := prepare_eq_some.mp hrow
    rfl
  constructor
  · rintro ⟨row', -, hrow', hscheduled, -⟩
    rw [hrow, Option.some.injEq] at hrow'
    rw [← hflag, hrow', hscheduled]
  · intro hscheduled
    exact ⟨row, hmem, hrow, hflag.trans hscheduled, hholds⟩

/-- **One path.** A message of a batch that passes the duplicate check takes exactly one
    path if and only if it is persisted and its time does not come between the two
    readings of the clock. -/
theorem onePath_iff (hitem : item ∈ validBatch db batch)
    (hclocks : item.persistNow ≤ item.dispatchNow) {deliverAt : DateTime}
    (hdeliver : item.msg.envelope.metadata.deliverAt = some deliverAt) :
    OnePath json (processBatch json faults db batch) item
      ↔ Persisted json faults db batch item ∧ ¬ DueBetween item deliverAt := by
  have hreading : ∀ now, item.msg.envelope.isScheduled now = decide (now < deliverAt) := by
    intro now
    simp [EventEnvelope.isScheduled, hdeliver]
  unfold DueBetween
  constructor
  · rintro ⟨hone, htwice⟩
    have hpersisted : Persisted json faults db batch item := by
      rcases hone with ⟨hleft, -⟩ | ⟨hhanded, -⟩
      · exact hleft.1.persisted hitem
      · exact hhanded.1.persisted hitem
    refine ⟨hpersisted, fun ⟨hearly, hdue⟩ => htwice ⟨?_, ?_⟩⟩
    · rw [storedAs_iff hpersisted hitem, hreading]
      exact decide_eq_true hearly
    · obtain ⟨-, -, -, -, hdispatched⟩ := hpersisted.committed hitem
      rw [hdispatched, hreading]
      exact decide_eq_false (not_lt.mpr hdue)
  · rintro ⟨hpersisted, hwindow⟩
    obtain ⟨-, -, -, -, hdispatched⟩ := hpersisted.committed hitem
    have hstored := fun b => storedAs_iff hpersisted hitem b
    simp only [hreading, decide_eq_false_iff_not] at hdispatched hstored
    by_cases hearly : item.persistNow < deliverAt
    · -- still early at the second reading
      have hlate : item.dispatchNow < deliverAt :=
        lt_of_not_ge fun hdue => hwindow ⟨hearly, hdue⟩
      have hnot : item ∉ (processBatch json faults db batch).dispatched := by
        rw [hdispatched]
        simpa using hlate
      have hleft : StoredAs json (processBatch json faults db batch) item true :=
        (hstored true).mpr (decide_eq_true hearly)
      exact ⟨.inl ⟨⟨hleft, hnot⟩, fun h => hnot h.2⟩, fun h => hnot h.2⟩
    · -- due at both readings
      have hmem : item ∈ (processBatch json faults db batch).dispatched := by
        rw [hdispatched]
        exact fun hlate => hearly (lt_of_le_of_lt hclocks hlate)
      have hnot : ¬ StoredAs json (processBatch json faults db batch) item true := by
        rw [hstored]
        simpa using hearly
      have hhanded : StoredAs json (processBatch json faults db batch) item false :=
        (hstored false).mpr (decide_eq_false hearly)
      exact ⟨.inr ⟨⟨hhanded, hmem⟩, fun h => hnot h.1⟩, fun h => hnot h.1⟩

/-- A row stored for the scheduler is fired: every poll from its time on returns the
    event, dispatched or not. -/
theorem StoredAs.fires (hitem : item ∈ validBatch db batch)
    (h : StoredAs json (processBatch json faults db batch) item true) {nowMs : Nat}
    (hdue : item.msg.envelope.deliverAtMs ≤ nowMs) :
    ∃ persisted ∈ (processBatch json faults db batch).db.readyEvents json nowMs,
      persisted.metadata.eventId = item.msg.envelope.eventId := by
  have hpersisted := h.persisted hitem
  obtain ⟨row, hmem, hrow, hscheduled, -⟩ := h
  have hkey : (row.deliverAtMs, row.id)
      = (item.msg.envelope.deliverAtMs, item.msg.envelope.eventId) := by
    obtain ⟨-, bytes, -, rfl⟩ := prepare_eq_some.mp hrow
    rfl
  have hdb : (processBatch json faults db batch).db
      = db.insertRows (processBatch json faults db batch).committed := by
    rw [processBatch_eq]
  obtain ⟨last, hlast, hlastKey, hget⟩ := Db.scheduledEvents_insertRows  hmem hscheduled
  -- the last row under the key is the row of a message with that id
  have hlastIn : last ∈ dbInserts json db batch := by
    rw [processBatch_eq] at hlast
    revert hlast
    cases batchWrite json faults db batch <;> simp [WriteOutcome.committedRows]
  obtain ⟨other, -, hother⟩ := List.mem_filterMap.mp hlastIn
  obtain ⟨persisted, hdecode, hmeta, -⟩ := fromSlice_of_prepare hother
  have hid : last.id = other.msg.envelope.eventId := by
    obtain ⟨-, bytes, -, rfl⟩ := prepare_eq_some.mp hother
    rfl
  rw [hkey, ← hdb] at hget
  rw [hkey] at hlastKey
  have hdueRow : ((item.msg.envelope.deliverAtMs, item.msg.envelope.eventId), last.bytes)
      ∈ (processBatch json faults db batch).db.dueRows nowMs := Db.mem_dueRows.mpr ⟨hget, hdue⟩
  refine ⟨persisted, List.mem_filterMap.mpr ⟨_, hdueRow, hdecode⟩, ?_⟩
  · rw [hmeta]
    exact hid.symm.trans (congrArg Prod.snd hlastKey)

end Batch

/-- An order due one nanosecond after its row is prepared, reached by the dispatch loop
    two nanoseconds after that. -/
def dueOrder : Item where
  msg := ⟨.fromSerialized 1 "OrderEvent"
    { eventId := 7, timestamp := 0, deliverAt := some 1 } .normal [], none⟩
  subCount := 1
  persistNow := 0
  dispatchNow := 3

/-- The codec that knows the order. -/
def dueOrderJson : SerdeJson :=
  .ofList [⟨"OrderEvent", { eventId := 7, timestamp := 0, deliverAt := some 1 }, .normal, []⟩]

theorem mem_validBatch_dueOrder : dueOrder ∈ validBatch Db.empty [dueOrder] := by
  simp [validBatch, DupCheck.run, DupCheck.step, DupCheck.isDuplicate, Item.idempotencyKey,
    RedbDispatcherMessage.idempotencyKey, dueOrder]

theorem persisted_dueOrder : Persisted dueOrderJson noFaults Db.empty [dueOrder] dueOrder :=
  ⟨by decide, ⟨[], by decide⟩, fun _ _ => rfl⟩

theorem onePath_dueOrder :
    OnePath dueOrderJson (processBatch dueOrderJson noFaults Db.empty [dueOrder]) dueOrder
      ↔ Persisted dueOrderJson noFaults Db.empty [dueOrder] dueOrder ∧ ¬ DueBetween dueOrder 1 :=
  onePath_iff mem_validBatch_dueOrder (by decide) rfl

/-- The order is persisted for the scheduler, dispatched, and fired by the next poll. -/
theorem not_onePath_dueOrder :
    let out := processBatch dueOrderJson noFaults Db.empty [dueOrder]
    ¬ OnePath dueOrderJson out dueOrder ∧ dueOrder ∈ out.dispatched ∧
      ∃ persisted ∈ out.db.readyEvents dueOrderJson 0, persisted.metadata.eventId = 7 := by
  have hstored := (storedAs_iff persisted_dueOrder mem_validBatch_dueOrder true).mpr (by decide)
  obtain ⟨-, -, -, -, hdispatched⟩ := persisted_dueOrder.committed mem_validBatch_dueOrder
  have hmem := hdispatched.mpr (by decide)
  exact ⟨fun h => h.notTwice ⟨hstored, hmem⟩, hmem,
    hstored.fires mem_validBatch_dueOrder (Nat.le_of_eq (by decide))⟩

end TokioEvents
