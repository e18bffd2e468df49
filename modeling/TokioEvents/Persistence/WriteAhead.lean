/-
  TokioEvents.Persistence.WriteAhead

  The write-ahead guarantee of `process_events`: a counted event is handed to the
  handlers, and its publisher signalled, only once its row is durable.

  The check after the join, `if let Err(e) = write_txn_res`, sees a panic of the
  blocking task only; an error of any redb call is inside the `Ok` and falls through
  to the dispatch loop.  So does a counted event that could not be serialized, which
  has no row at all.  The guarantee holds exactly when neither happens to a message
  the loop acts on, or the whole batch is dropped by a panic.
-/

import TokioEvents.Persistence.ProcessEvents

namespace TokioEvents

/-- Every call of the transaction succeeds. -/
def TxnSucceeds (faults : RedbCall → Option Fault) (rows : List DbInsert) : Prop :=
  ∀ call ∈ txnCalls rows, faults call = none

/-- The first call of the transaction that fails panics. -/
def TxnPanics (faults : RedbCall → Option Fault) (rows : List DbInsert) : Prop :=
  (txnCalls rows).findSome? faults = some .panic

theorem writeOutcome_eq_committed {faults : RedbCall → Option Fault} {rows : List DbInsert} :
    writeOutcome faults rows = .committed ↔ TxnSucceeds faults rows := by
  unfold writeOutcome TxnSucceeds
  rw [← List.findSome?_eq_none_iff]
  cases (txnCalls rows).findSome? faults with
  | none => simp
  | some fault => cases fault <;> simp

theorem writeOutcome_eq_panicked {faults : RedbCall → Option Fault} {rows : List DbInsert} :
    writeOutcome faults rows = .panicked ↔ TxnPanics faults rows := by
  unfold writeOutcome TxnPanics
  cases (txnCalls rows).findSome? faults with
  | none => simp
  | some fault => cases fault <;> simp

/-- The dispatch loop acts on the item: it has a publisher to signal, or it is not
    left to the scheduler. -/
def Item.Acted (item : Item) : Prop :=
  item.msg.ackTx.isSome ∨ item.msg.envelope.isScheduled item.dispatchNow = false

/-- The message's envelope can be serialized. -/
def Counted.Serializes (json : SerdeJson) (counted : Counted) : Prop :=
  ∃ bytes, counted.msg.envelope.persistedBytes json = .ok bytes

theorem Counted.exists_row_iff {json : SerdeJson} {counted : Counted} :
    (∃ row, counted.row json = some row) ↔ 0 < counted.subCount ∧ counted.Serializes json := by
  unfold Counted.row Counted.Serializes
  constructor
  · rintro ⟨row, h⟩
    obtain ⟨hpos, bytes, hbytes, -⟩ := prepare_eq_some.mp h
    exact ⟨hpos, bytes, hbytes⟩
  · rintro ⟨hpos, bytes, hbytes⟩
    exact ⟨_, prepare_eq_some.mpr ⟨hpos, bytes, hbytes, rfl⟩⟩

/-- A counted message of the batch is signalled or dispatched only if its row is among
    the rows the write transaction committed. -/
def WriteAhead (json : SerdeJson) (faults : RedbCall → Option Fault) (db : Db)
    (batch : List Item) : Prop :=
  ∀ item ∈ validBatch db batch, 0 < item.subCount →
    item ∈ (processBatch json faults db batch).acked ∨
      item ∈ (processBatch json faults db batch).dispatched →
    ∃ row ∈ (processBatch json faults db batch).committed, item.row json = some row

/-- The row of a valid item is written with the batch. -/
theorem mem_dbInserts {json : SerdeJson} {db : Db} {batch : List Item} {item : Item}
    {row : DbInsert} (hitem : item ∈ validBatch db batch) (hrow : item.row json = some row) :
    row ∈ dbInserts json db batch :=
  List.mem_filterMap.mpr ⟨item, hitem, hrow⟩

/-- The loop reaches a valid item it acts on unless the write panicked. -/
theorem mem_acked_or_dispatched {json : SerdeJson} {faults : RedbCall → Option Fault} {db : Db}
    {batch : List Item} {item : Item} (hitem : item ∈ validBatch db batch) :
    (item ∈ (processBatch json faults db batch).acked ∨
        item ∈ (processBatch json faults db batch).dispatched)
      ↔ batchWrite json faults db batch ≠ .panicked ∧ item.Acted := by
  rw [processBatch_eq]
  unfold Item.Acted
  by_cases hpanic : batchWrite json faults db batch = .panicked
  · simp [hpanic]
  · simp [hpanic, hitem]

/-- **When the outbox writes ahead.** A batch keeps the guarantee if and only if its
    transaction panics, or every counted message it acts on serializes and the
    transaction commits. -/
theorem writeAhead_iff (json : SerdeJson) (faults : RedbCall → Option Fault) (db : Db)
    (batch : List Item) :
    WriteAhead json faults db batch
      ↔ (dbInserts json db batch ≠ [] ∧ TxnPanics faults (dbInserts json db batch)) ∨
        ∀ item ∈ validBatch db batch, 0 < item.subCount → item.Acted →
          item.Serializes json ∧ TxnSucceeds faults (dbInserts json db batch) := by
  have hwrite : ∀ {item row}, item ∈ validBatch db batch → item.row json = some row →
      batchWrite json faults db batch = writeOutcome faults (dbInserts json db batch) := by
    intro item row hitem hrow
    have hne := List.ne_nil_of_mem (mem_dbInserts hitem hrow)
    simp [batchWrite, hne]
  constructor
  · intro h
    by_cases hpanic : batchWrite json faults db batch = .panicked
    · left
      unfold batchWrite at hpanic
      split at hpanic
      · cases hpanic
      · rename_i hne
        exact ⟨by simpa using hne, writeOutcome_eq_panicked.mp hpanic⟩
    · right
      intro item hitem hpos hacted
      obtain ⟨row, hmem, hrow⟩ := h item hitem hpos
        ((mem_acked_or_dispatched hitem).mpr ⟨hpanic, hacted⟩)
      refine ⟨(Counted.exists_row_iff.mp ⟨row, hrow⟩).2, ?_⟩
      -- a durable row means that the write committed
      rw [processBatch_eq] at hmem
      rw [← writeOutcome_eq_committed, ← hwrite hitem hrow]
      revert hmem
      cases batchWrite json faults db batch <;> simp [WriteOutcome.committedRows]
  · rintro (⟨hne, hpanic⟩ | hall) item hitem hpos hreached
    · have hpanicked : batchWrite json faults db batch = .panicked := by
        simp [batchWrite, hne, writeOutcome_eq_panicked.mpr hpanic]
      exact absurd hpanicked ((mem_acked_or_dispatched hitem).mp hreached).1
    · obtain ⟨hser, hok⟩ := hall item hitem hpos ((mem_acked_or_dispatched hitem).mp hreached).2
      obtain ⟨row, hrow⟩ := Counted.exists_row_iff.mpr ⟨hpos, hser⟩
      refine ⟨row, ?_, hrow⟩
      rw [processBatch_eq, hwrite hitem hrow, writeOutcome_eq_committed.mpr hok]
      exact mem_dbInserts hitem hrow

/-- An unscheduled order with one counted subscriber and a waiting publisher. -/
def waitingOrder : Item where
  msg := ⟨.fromSerialized 1 "OrderEvent" { eventId := 7, timestamp := 0 } .normal [], some 0⟩
  subCount := 1
  persistNow := 0
  dispatchNow := 0

/-- The codec that knows the order. -/
def orderJson : SerdeJson :=
  .ofList [⟨"OrderEvent", { eventId := 7, timestamp := 0 }, .normal, []⟩]

/-- The disk is full when the transaction commits. -/
def commitFails : RedbCall → Option Fault
  | .commit => some (.error "No space left on device")
  | _ => none

/-- The order is signalled and dispatched although its row was never committed. -/
theorem not_writeAhead_commitFails :
    ¬ WriteAhead orderJson commitFails Db.empty [waitingOrder] := by
  intro h
  have hvalid : waitingOrder ∈ validBatch Db.empty [waitingOrder] := by
    simp [validBatch, DupCheck.run, DupCheck.step, DupCheck.isDuplicate, Item.idempotencyKey,
      RedbDispatcherMessage.idempotencyKey, waitingOrder]
  have hpanic : batchWrite orderJson commitFails Db.empty [waitingOrder] ≠ .panicked := by decide
  obtain ⟨row, hrow, -⟩ := h waitingOrder hvalid (by decide)
    ((mem_acked_or_dispatched hvalid).mpr ⟨hpanic, .inl rfl⟩)
  have hnone : (processBatch orderJson commitFails Db.empty [waitingOrder]).committed = [] := by
    decide
  rw [hnone] at hrow
  cases hrow

end TokioEvents
