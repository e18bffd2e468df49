/-
  TokioEvents.Persistence.ProcessEvents

  One batch of the worker `RedbDispatcher::process_events`
  (`src/persistence/redb.rs`), in the order of the source: the duplicate check, the
  construction of `db_inserts`, the write transaction in a blocking task, and the
  acknowledge-and-dispatch loop.

  What the worker reads from outside for a message (the subscriber count and two
  clock readings) comes with the message as an `Item`.  Every redb call of the write
  transaction may return an error or panic (`Fault`); nothing reaches the tables
  unless the last call, `commit`, succeeds.  The statistics counters are left out.
-/

import Mathlib.Data.Finset.Insert
import TokioEvents.Lib.Duration
import TokioEvents.Persistence.Tables
import TokioEvents.Registry.EventRegistry

namespace TokioEvents

/-- `RedbDispatcherMessage`; a oneshot sender is named by the call that waits for it. -/
structure RedbDispatcherMessage where
  envelope : EventEnvelope
  ackTx : Option Nat

/-- `msg.envelope.metadata.idempotency_key`. -/
def RedbDispatcherMessage.idempotencyKey (msg : RedbDispatcherMessage) : Option String :=
  msg.envelope.metadata.idempotencyKey

/-- A message with what the worker reads while it prepares its row. -/
structure Counted where
  msg : RedbDispatcherMessage
  /-- `sub_count` -/
  subCount : Nat
  /-- `Utc::now()` when the row is prepared -/
  persistNow : DateTime

/-- A message with everything the worker reads while it handles it. -/
structure Item extends Counted where
  /-- `Utc::now()` when the dispatch loop reaches the message -/
  dispatchNow : DateTime

/-- `item.msg.envelope.metadata.idempotency_key`. -/
def Item.idempotencyKey (item : Item) : Option String := item.msg.idempotencyKey

/-- `sub_count`: both counts are cast to `u32` and added there, which panics in a build with
    overflow checks if the sum is too large. -/
def subCount {R : Type} [EventRegistry R] (overflowChecks : Bool) (registry : R)
    (event : EventEnvelope) : Option Nat :=
  let subCount := EventRegistry.subscriptionCount registry event.typeId % 2 ^ 32
  match event.metadata.topic with
  | some topic =>
    -- Rough estimate to ensure sub_count > 0
    Word32.add overflowChecks subCount
      (EventRegistry.topicSubscriptionCount registry topic % 2 ^ 32)
  | none => some subCount

/-! ## The duplicate check -/

/-- The state of the loop that splits a batch. -/
structure DupCheck (α : Type) where
  batchKeys : Finset String
  valid : List α
  duplicates : List α

namespace DupCheck

variable {α : Type} (key : α → Option String) (recorded : String → Bool)

/-- `is_duplicate`. -/
def isDuplicate (batchKeys : Finset String) : Option String → Bool
  | none => false
  | some key => decide (key ∈ batchKeys) || recorded key

/-- One turn of the loop. -/
def step (st : DupCheck α) (msg : α) : DupCheck α :=
  if isDuplicate recorded st.batchKeys (key msg) then
    -- Duplicate! Ack instantly and discard.
    { st with duplicates := st.duplicates ++ [msg] }
  else
    { st with
      batchKeys := (key msg).elim st.batchKeys (insert · st.batchKeys)
      valid := st.valid ++ [msg] }

/-- The whole loop; `recorded` tells which keys `PROCESSED_KEYS_TABLE` returns. -/
def run (batch : List α) : DupCheck α := batch.foldl (step key recorded) ⟨∅, [], []⟩

@[simp] theorem run_nil : run key recorded [] = ⟨∅, [], []⟩ := rfl

theorem run_concat (batch : List α) (msg : α) :
    run key recorded (batch ++ [msg]) = step key recorded (run key recorded batch) msg := by
  simp [run, List.foldl_append]

/-- The check passes some of the messages on. -/
theorem valid_sublist (batch : List α) : (run key recorded batch).valid.Sublist batch := by
  induction batch using List.reverseRecOn with
  | nil => exact List.Sublist.refl _
  | append_singleton batch msg ih =>
    rw [run_concat, step]
    split
    · exact ih.trans (List.sublist_append_left batch [msg])
    · exact ih.append (List.Sublist.refl _)

/-- Without keys there are no duplicates. -/
theorem valid_of_keyless {batch : List α} (h : ∀ msg ∈ batch, key msg = none) :
    (run key recorded batch).valid = batch := by
  induction batch using List.reverseRecOn with
  | nil => rfl
  | append_singleton batch msg ih =>
    obtain ⟨hbatch, hlast⟩ := List.forall_mem_append.mp h
    rw [run_concat, step, List.forall_mem_singleton.mp hlast, isDuplicate,
      if_neg Bool.false_ne_true, ih hbatch]

/-- The batch's own keys are the keys met so far that the table does not have. -/
theorem mem_batchKeys {batch : List α} {k : String} :
    k ∈ (run key recorded batch).batchKeys
      ↔ recorded k = false ∧ ∃ msg ∈ batch, key msg = some k := by
  induction batch using List.reverseRecOn with
  | nil => simp
  | append_singleton batch msg ih =>
    have hnew : (∃ m ∈ batch ++ [msg], key m = some k)
        ↔ (∃ m ∈ batch, key m = some k) ∨ key msg = some k := by
      simp only [List.mem_append, List.mem_singleton]
      constructor
      · rintro ⟨m, hm | rfl, hk⟩
        · exact .inl ⟨m, hm, hk⟩
        · exact .inr hk
      · rintro (⟨m, hm, hk⟩ | hk)
        · exact ⟨m, .inl hm, hk⟩
        · exact ⟨msg, .inr rfl, hk⟩
    rw [run_concat, hnew, and_or_left, ← ih, step]
    cases hkey : key msg with
    | none => simp [isDuplicate]
    | some k' =>
      by_cases hdup : isDuplicate recorded (run key recorded batch).batchKeys (some k') = true
      · rw [if_pos hdup]
        simp only [isDuplicate, Bool.or_eq_true, decide_eq_true_eq] at hdup
        constructor
        · exact .inl
        · rintro (h | ⟨hrec, heq⟩)
          · exact h
          · cases heq
            simpa [hrec] using hdup
      · rw [if_neg hdup]
        simp only [isDuplicate, Bool.or_eq_true, decide_eq_true_eq, not_or,
          Bool.not_eq_true] at hdup
        simp only [Option.elim_some, Finset.mem_insert, Option.some.injEq]
        constructor
        · rintro (rfl | h)
          · exact .inr ⟨hdup.2, rfl⟩
          · exact .inl h
        · rintro (h | ⟨-, rfl⟩)
          · exact .inr h
          · exact .inl rfl

/-- **Who is a duplicate**: a message whose key the table has or an earlier message
    of the batch carries. -/
theorem isDuplicate_run (batch : List α) (msg : α) :
    isDuplicate recorded (run key recorded batch).batchKeys (key msg) = true
      ↔ ∃ k, key msg = some k ∧ (recorded k = true ∨ ∃ m ∈ batch, key m = some k) := by
  cases hkey : key msg with
  | none => simp [isDuplicate]
  | some k =>
    simp only [isDuplicate, Bool.or_eq_true, decide_eq_true_eq, mem_batchKeys, Option.some.injEq,
      exists_eq_left']
    cases recorded k <;> simp

/-- A message whose key the table has never passes the check. -/
theorem not_mem_valid_of_recorded {batch : List α} {msg : α} {k : String}
    (hkey : key msg = some k) (hrec : recorded k = true) :
    msg ∉ (run key recorded batch).valid := by
  induction batch using List.reverseRecOn with
  | nil => simp
  | append_singleton batch m ih =>
    rw [run_concat, step]
    split
    · exact ih
    · rename_i hdup
      simp only [List.mem_append, List.mem_singleton, not_or]
      refine ⟨ih, ?_⟩
      rintro rfl
      exact hdup ((isDuplicate_run key recorded batch _).mpr ⟨k, hkey, .inl hrec⟩)

/-- Every message of the batch passes or is a duplicate, and nothing else is. -/
theorem mem_valid_or_mem_duplicates {batch : List α} {msg : α} :
    msg ∈ (run key recorded batch).valid ∨ msg ∈ (run key recorded batch).duplicates
      ↔ msg ∈ batch := by
  induction batch using List.reverseRecOn with
  | nil => simp
  | append_singleton batch m ih =>
    rw [run_concat, step, List.mem_append, ← ih]
    split <;> simp only [List.mem_append, List.mem_singleton] <;> tauto

end DupCheck

/-- `processed_keys_table.get(key).is_some()`. -/
def Db.keyRecorded (db : Db) (key : String) : Bool := (db.processedKeys[key]?).isSome

/-! ## The rows -/

/-- One element of `db_inserts`. -/
structure DbInsert where
  id : Uuid
  subCount : Nat
  isScheduled : Bool
  deliverAtMs : Nat
  bytes : Bytes
  idempotencyKey : Option String
  deriving DecidableEq

namespace EventEnvelope

/-- `deliver_at.map(|d| d.timestamp_millis() as u64).unwrap_or(0)`. -/
def deliverAtMs (event : EventEnvelope) : Nat :=
  event.metadata.deliverAt.elim 0 timestampMillisU64

/-- `persisted_result`, serialized: the bytes of the row. -/
def persistedBytes (json : SerdeJson) (event : EventEnvelope) : Except Error Bytes := do
  let payload ← event.intoBytes
  json.toVec {
    typeName := event.eventType
    metadata := event.metadata
    priority := event.priority
    payload := payload }

end EventEnvelope

/-- The turn of the loop over the batch for one message: the row it pushes, if any. -/
def prepare (json : SerdeJson) (event : EventEnvelope) (subCount : Nat) (now : DateTime) :
    Option DbInsert :=
  if subCount > 0 then
    match event.persistedBytes json with
    | .ok bytes =>
      some {
        id := event.eventId
        subCount := subCount
        isScheduled := event.isScheduled now
        deliverAtMs := event.deliverAtMs
        bytes := bytes
        idempotencyKey := event.metadata.idempotencyKey }
    | .error _ => none
  else none

/-- The row a counted message pushes. -/
def Counted.row (json : SerdeJson) (counted : Counted) : Option DbInsert :=
  prepare json counted.msg.envelope counted.subCount counted.persistNow

/-- The row an item pushes. -/
def Item.row (json : SerdeJson) (item : Item) : Option DbInsert := item.toCounted.row json

theorem prepare_eq_some {json : SerdeJson} {event : EventEnvelope} {n : Nat} {now : DateTime}
    {row : DbInsert} :
    prepare json event n now = some row
      ↔ 0 < n ∧ ∃ bytes, event.persistedBytes json = .ok bytes ∧
        row = ⟨event.eventId, n, event.isScheduled now, event.deliverAtMs, bytes,
          event.metadata.idempotencyKey⟩ := by
  unfold prepare
  by_cases hn : n > 0
  · rw [if_pos hn]
    cases event.persistedBytes json with
    | error e => simp
    | ok bytes =>
      simp only [Option.some.injEq, Except.ok.injEq, exists_eq_left', eq_comm]
      exact (and_iff_right hn).symm
  · simp [hn]

/-- The bytes of a pushed row read back as an envelope with the event's metadata. -/
theorem fromSlice_of_prepare {json : SerdeJson} {event : EventEnvelope} {n : Nat} {now : DateTime}
    {row : DbInsert} (h : prepare json event n now = some row) :
    ∃ persisted, json.fromSlice row.bytes = some persisted ∧
      persisted.metadata = event.metadata ∧ persisted.typeName = event.eventType := by
  obtain ⟨-, bytes, hbytes, rfl⟩ := prepare_eq_some.mp h
  unfold EventEnvelope.persistedBytes at hbytes
  cases hpayload : event.intoBytes with
  | error e => rw [hpayload] at hbytes; cases hbytes
  | ok payload =>
    rw [hpayload] at hbytes
    exact ⟨_, json.fromSlice_toVec hbytes, rfl, rfl⟩

/-! ## The write transaction -/

/-- Record the idempotency key of a row. -/
def Db.insertKey (db : Db) (row : DbInsert) : Db :=
  match row.idempotencyKey with
  | some key => { db with processedKeys := db.processedKeys.insert key 1 }
  | none => db

/-- Store a row for the scheduler, or with its refcount for the handlers. -/
def Db.insertEvent (db : Db) (row : DbInsert) : Db :=
  if row.isScheduled then
    { db with
      scheduledEvents := db.scheduledEvents.insert (row.deliverAtMs, row.id) row.bytes }
  else
    { db with
      events := db.events.insert row.id row.bytes
      refcount := db.refcount.insert row.id row.subCount }

/-- What a committed transaction does for one row. -/
def Db.insertRow (db : Db) (row : DbInsert) : Db := (db.insertKey row).insertEvent row

/-- What a committed transaction does for `db_inserts`. -/
def Db.insertRows (db : Db) (rows : List DbInsert) : Db := rows.foldl Db.insertRow db

@[simp] theorem Db.insertRows_nil (db : Db) : db.insertRows [] = db := rfl

@[simp] theorem Db.insertRows_append (db : Db) (rows rows' : List DbInsert) :
    db.insertRows (rows ++ rows') = (db.insertRows rows).insertRows rows' := by
  simp [Db.insertRows, List.foldl_append]

theorem keyRecorded_insertRow (db : Db) (row : DbInsert) (k : String) :
    (db.insertRow row).keyRecorded k = true
      ↔ db.keyRecorded k = true ∨ row.idempotencyKey = some k := by
  have hevent : ∀ db : Db, (db.insertEvent row).keyRecorded k = db.keyRecorded k := by
    intro db
    unfold Db.insertEvent Db.keyRecorded
    split <;> rfl
  rw [Db.insertRow, hevent]
  unfold Db.insertKey Db.keyRecorded
  cases row.idempotencyKey with
  | none => simp
  | some key =>
    by_cases h : key = k
    · simp [h]
    · simp [Std.ExtTreeMap.getElem?_insert, h]

theorem keyRecorded_insertRows (db : Db) (rows : List DbInsert) (k : String) :
    (db.insertRows rows).keyRecorded k = true
      ↔ db.keyRecorded k = true ∨ ∃ row ∈ rows, row.idempotencyKey = some k := by
  induction rows generalizing db with
  | nil => simp
  | cons row rows ih =>
    have hcons : db.insertRows (row :: rows) = (db.insertRow row).insertRows rows := rfl
    rw [hcons, ih, keyRecorded_insertRow]
    simp [or_assoc]

/-- The tables the transaction opens. -/
inductive TableName where
  | scheduledEvents
  | events
  | refcount
  | processedKeys
  deriving DecidableEq, Repr

/-- The redb calls of the blocking task; an insert names the position of its row. -/
inductive RedbCall where
  | beginWrite
  | openTable (table : TableName)
  | insert (table : TableName) (index : Nat)
  | commit
  deriving DecidableEq, Repr

/-- How a call fails. -/
inductive Fault where
  | error (msg : String)
  | panic
  deriving DecidableEq, Repr

/-- Every redb call succeeds. -/
def noFaults : RedbCall → Option Fault := fun _ => none

/-- One call under `?`: it goes on, returns the error or unwinds. -/
def invoke (faults : RedbCall → Option Fault) (call : RedbCall) : Except Fault Unit :=
  match faults call with
  | none => .ok ()
  | some fault => .error fault

/-- The first statement of the loop over `db_inserts`. -/
def writeKey (faults : RedbCall → Option Fault) (txn : Db) (index : Nat) (row : DbInsert) :
    Except Fault Db :=
  match row.idempotencyKey with
  | some key => do
    invoke faults (.insert .processedKeys index)
    pure { txn with processedKeys := txn.processedKeys.insert key 1 }
  | none => pure txn

/-- The second statement of the loop over `db_inserts`. -/
def writeEvent (faults : RedbCall → Option Fault) (txn : Db) (index : Nat) (row : DbInsert) :
    Except Fault Db :=
  if row.isScheduled then do
    invoke faults (.insert .scheduledEvents index)
    pure { txn with
      scheduledEvents := txn.scheduledEvents.insert (row.deliverAtMs, row.id) row.bytes }
  else do
    invoke faults (.insert .events index)
    let txn := { txn with events := txn.events.insert row.id row.bytes }
    invoke faults (.insert .refcount index)
    pure { txn with refcount := txn.refcount.insert row.id row.subCount }

/-- The loop over `db_inserts`. -/
def writeRows (faults : RedbCall → Option Fault) : Db → Nat → List DbInsert → Except Fault Db
  | txn, _, [] => pure txn
  | txn, index, row :: rows => do
    let txn ← writeKey faults txn index row
    let txn ← writeEvent faults txn index row
    writeRows faults txn (index + 1) rows

/-- The closure of `spawn_blocking`, up to and including `commit`. -/
def writeTxn (faults : RedbCall → Option Fault) (db : Db) (rows : List DbInsert) :
    Except Fault Db := do
  invoke faults .beginWrite
  invoke faults (.openTable .scheduledEvents)
  invoke faults (.openTable .events)
  invoke faults (.openTable .refcount)
  invoke faults (.openTable .processedKeys)
  let txn ← writeRows faults db 0 rows
  invoke faults .commit
  pure txn

/-- A computation that makes the calls and, if none fails, returns `x`. -/
def guarded {β : Type} (faults : RedbCall → Option Fault) (calls : List RedbCall) (x : β) :
    Except Fault β :=
  match calls.findSome? faults with
  | none => .ok x
  | some fault => .error fault

section Guarded

variable {β γ : Type} {faults : RedbCall → Option Fault}

theorem pure_eq_guarded (x : β) : (pure x : Except Fault β) = guarded faults [] x := rfl

theorem invoke_eq_guarded (call : RedbCall) : invoke faults call = guarded faults [call] () := by
  unfold invoke guarded
  rw [List.findSome?_cons, List.findSome?_nil]
  cases faults call <;> rfl

/-- The calls of two steps, one after the other. -/
theorem guarded_bind {calls calls' : List RedbCall} {x : β} {y : γ} {next : β → Except Fault γ}
    (h : next x = guarded faults calls' y) :
    (guarded faults calls x >>= next) = guarded faults (calls ++ calls') y := by
  unfold guarded at h ⊢
  rw [List.findSome?_append]
  cases calls.findSome? faults with
  | some fault => rfl
  | none => exact h

end Guarded

/-- The call that records the key of a row. -/
def keyCalls (index : Nat) (row : DbInsert) : List RedbCall :=
  if row.idempotencyKey.isSome then [.insert .processedKeys index] else []

/-- The calls that store a row. -/
def eventCalls (index : Nat) (row : DbInsert) : List RedbCall :=
  if row.isScheduled then [.insert .scheduledEvents index]
  else [.insert .events index, .insert .refcount index]

/-- The calls made for the rows from a position on. -/
def rowsCalls : Nat → List DbInsert → List RedbCall
  | _, [] => []
  | index, row :: rows => keyCalls index row ++ (eventCalls index row ++ rowsCalls (index + 1) rows)

/-- The calls of the whole transaction, in order. -/
def txnCalls (rows : List DbInsert) : List RedbCall :=
  [.beginWrite, .openTable .scheduledEvents, .openTable .events, .openTable .refcount,
    .openTable .processedKeys] ++ (rowsCalls 0 rows ++ [.commit])

theorem writeKey_eq (faults : RedbCall → Option Fault) (txn : Db) (index : Nat) (row : DbInsert) :
    writeKey faults txn index row = guarded faults (keyCalls index row) (txn.insertKey row) := by
  unfold writeKey keyCalls Db.insertKey
  cases row.idempotencyKey with
  | none => rfl
  | some key =>
    simp only [invoke_eq_guarded]
    exact guarded_bind (pure_eq_guarded _)

theorem writeEvent_eq (faults : RedbCall → Option Fault) (txn : Db) (index : Nat)
    (row : DbInsert) :
    writeEvent faults txn index row
      = guarded faults (eventCalls index row) (txn.insertEvent row) := by
  unfold writeEvent eventCalls Db.insertEvent
  simp only [invoke_eq_guarded]
  cases row.isScheduled with
  | true => exact guarded_bind (pure_eq_guarded _)
  | false => exact guarded_bind (guarded_bind (pure_eq_guarded _))

theorem writeRows_eq (faults : RedbCall → Option Fault) (txn : Db) (index : Nat)
    (rows : List DbInsert) :
    writeRows faults txn index rows
      = guarded faults (rowsCalls index rows) (txn.insertRows rows) := by
  induction rows generalizing txn index with
  | nil => rfl
  | cons row rows ih =>
    simp only [writeRows, writeKey_eq, writeEvent_eq]
    exact guarded_bind (guarded_bind (ih _ _))

/-- **The transaction commits all its rows or none**: it makes its calls in order and,
    if none fails, leaves the database with every row inserted. -/
theorem writeTxn_eq (faults : RedbCall → Option Fault) (db : Db) (rows : List DbInsert) :
    writeTxn faults db rows = guarded faults (txnCalls rows) (db.insertRows rows) := by
  unfold writeTxn
  simp only [invoke_eq_guarded, writeRows_eq]
  exact guarded_bind (guarded_bind (guarded_bind (guarded_bind (guarded_bind
    (guarded_bind (guarded_bind (pure_eq_guarded _)))))))

/-- How the blocking task ends. -/
inductive WriteOutcome where
  | committed
  /-- The closure returned an error: `Ok(Err(_))` after the join. -/
  | failed (msg : String)
  /-- The closure panicked: `Err(_)` after the join. -/
  | panicked
  deriving DecidableEq, Repr

/-- The end of a blocking task, and the database it leaves. -/
def joinWrite (db : Db) : Except Fault Db → WriteOutcome × Db
  | .ok txn => (.committed, txn)
  | .error (.error msg) => (.failed msg, db)
  | .error .panic => (.panicked, db)

/-- The end the first failing call decides. -/
def writeOutcome (faults : RedbCall → Option Fault) (rows : List DbInsert) : WriteOutcome :=
  match (txnCalls rows).findSome? faults with
  | none => .committed
  | some (.error msg) => .failed msg
  | some .panic => .panicked

/-- The rows a transaction leaves in the database. -/
def WriteOutcome.committedRows (outcome : WriteOutcome) (rows : List DbInsert) : List DbInsert :=
  match outcome with
  | .committed => rows
  | .failed _ => []
  | .panicked => []

theorem joinWrite_writeTxn (faults : RedbCall → Option Fault) (db : Db) (rows : List DbInsert) :
    joinWrite db (writeTxn faults db rows)
      = (writeOutcome faults rows,
          db.insertRows ((writeOutcome faults rows).committedRows rows)) := by
  rw [writeTxn_eq]
  unfold guarded writeOutcome
  cases (txnCalls rows).findSome? faults with
  | none => rfl
  | some fault => cases fault <;> rfl

/-! ## The batch -/

/-- What one turn of `process_events` does. -/
structure BatchOutcome where
  db : Db
  /-- Rows of the write transaction that are durable. -/
  committed : List DbInsert
  /-- Duplicates, acknowledged and discarded by the check. -/
  discarded : List Item
  /-- Messages whose publisher is signalled by the dispatch loop. -/
  acked : List Item
  /-- Messages handed to `SubscriptionManager::dispatch`, in order. -/
  dispatched : List Item

/-- One turn of the loop of `process_events`, after the batch has been received. -/
def processBatch (json : SerdeJson) (faults : RedbCall → Option Fault) (db : Db)
    (batch : List Item) : BatchOutcome :=
  let checked := DupCheck.run Item.idempotencyKey db.keyRecorded batch
  -- from here on the batch is `valid_batch`
  let batch := checked.valid
  let dbInserts := batch.filterMap (Item.row json)
  let (outcome, db) :=
    if dbInserts.isEmpty then (.committed, db)
    else joinWrite db (writeTxn faults db dbInserts)
  match outcome with
  | .panicked =>
    -- Failed to persist batch to redb
    { db := db, committed := [], discarded := checked.duplicates, acked := [], dispatched := [] }
  -- committed, or an error that the check after the join does not see
  | outcome =>
    { db := db
      committed := outcome.committedRows dbInserts
      discarded := checked.duplicates
      acked := batch.filter fun item => item.msg.ackTx.isSome
      dispatched := batch.filter fun item =>
        !item.msg.envelope.isScheduled item.dispatchNow }

/-- The messages of a batch that pass the duplicate check. -/
def validBatch (db : Db) (batch : List Item) : List Item :=
  (DupCheck.run Item.idempotencyKey db.keyRecorded batch).valid

/-- `db_inserts`. -/
def dbInserts (json : SerdeJson) (db : Db) (batch : List Item) : List DbInsert :=
  (validBatch db batch).filterMap (Item.row json)

/-- How the write step of a batch ends; without rows there is no transaction. -/
def batchWrite (json : SerdeJson) (faults : RedbCall → Option Fault) (db : Db)
    (batch : List Item) : WriteOutcome :=
  if (dbInserts json db batch).isEmpty then .committed
  else writeOutcome faults (dbInserts json db batch)

/-- **One turn**, by the way its write step ends. -/
theorem processBatch_eq (json : SerdeJson) (faults : RedbCall → Option Fault) (db : Db)
    (batch : List Item) :
    processBatch json faults db batch =
      { db := db.insertRows ((batchWrite json faults db batch).committedRows
          (dbInserts json db batch))
        committed := (batchWrite json faults db batch).committedRows (dbInserts json db batch)
        discarded := (DupCheck.run Item.idempotencyKey db.keyRecorded batch).duplicates
        acked :=
          if batchWrite json faults db batch = .panicked then []
          else (validBatch db batch).filter fun item => item.msg.ackTx.isSome
        dispatched :=
          if batchWrite json faults db batch = .panicked then []
          else (validBatch db batch).filter fun item =>
            !item.msg.envelope.isScheduled item.dispatchNow } := by
  have hvalid : (DupCheck.run Item.idempotencyKey db.keyRecorded batch).valid
      = validBatch db batch := rfl
  have hrows : (validBatch db batch).filterMap (Item.row json) = dbInserts json db batch := rfl
  unfold processBatch batchWrite
  dsimp only
  rw [joinWrite_writeTxn, hvalid, hrows]
  by_cases hempty : (dbInserts json db batch).isEmpty = true
  · simp only [hempty, ↓reduceIte]
    rw [List.isEmpty_iff.mp hempty]
    rfl
  · simp only [hempty, Bool.false_eq_true, ↓reduceIte]
    cases writeOutcome faults (dbInserts json db batch) <;> rfl

end TokioEvents
