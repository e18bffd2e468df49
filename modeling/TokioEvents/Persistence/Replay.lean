/-
  TokioEvents.Persistence.Replay

  `RedbDispatcher::replay_dlq` and the re-injection of stored rows
  (`src/persistence/redb.rs`).

  `replay_dlq` deletes every decodable row of `DLQ_TABLE` and commits before it sends
  the first of them.  A row whose type is not registered is then skipped, and the
  result of `try_send` is ignored, so both the row and the count are right only if
  every send finds a registered type and room in the queue.
-/

import Mathlib.Data.List.Nodup
import TokioEvents.Lib.Mpsc
import TokioEvents.Persistence.ProcessEvents
import TokioEvents.Registry.DashMap

namespace TokioEvents

/-- The event of a stored envelope. -/
def PersistedEnvelope.envelope (persisted : PersistedEnvelope) (typeId : TypeId) :
    EventEnvelope :=
  .fromSerialized typeId persisted.typeName persisted.metadata persisted.priority
    persisted.payload

/-- The message that carries a stored envelope back to the worker. -/
def PersistedEnvelope.message (persisted : PersistedEnvelope) (typeId : TypeId) :
    RedbDispatcherMessage :=
  ⟨persisted.envelope typeId, none⟩

/-! ## The rows -/

/-- `envelopes`: the decodable rows of `DLQ_TABLE`, in key order. -/
def Db.dlqEnvelopes (json : SerdeJson) (db : Db) : List (Uuid × PersistedEnvelope) :=
  db.dlq.toList.filterMap fun row => (json.fromSlice row.2).map fun persisted => (row.1, persisted)

/-- Remove replayed items from the DLQ table. -/
def Db.removeDlq (db : Db) (envelopes : List (Uuid × PersistedEnvelope)) : Db :=
  { db with dlq := envelopes.foldl (fun dlq row => dlq.erase row.1) db.dlq }

theorem getElem?_removeDlq {db : Db} {envelopes : List (Uuid × PersistedEnvelope)} {id : Uuid}
    (h : id ∈ envelopes.map (·.1)) : (db.removeDlq envelopes).dlq[id]? = none :=
  (Table.getElem?_foldl_erase Prod.fst envelopes db.dlq id).1 h

theorem mem_dlqEnvelopes {json : SerdeJson} {db : Db} {id : Uuid} :
    id ∈ (db.dlqEnvelopes json).map (·.1)
      ↔ ∃ bytes, db.dlq[id]? = some bytes ∧ (json.fromSlice bytes).isSome = true := by
  unfold Db.dlqEnvelopes
  simp only [List.mem_map, List.mem_filterMap, Option.map_eq_some_iff]
  constructor
  · rintro ⟨_, ⟨⟨id', bytes⟩, hrow, persisted, hdecode, rfl⟩, rfl⟩
    exact ⟨bytes, Std.ExtTreeMap.mem_toList_iff_getElem?_eq_some.mp hrow, by simp [hdecode]⟩
  · rintro ⟨bytes, hrow, hdecode⟩
    obtain ⟨persisted, hdecode⟩ := Option.isSome_iff_exists.mp hdecode
    exact ⟨(id, persisted), ⟨(id, bytes),
      Std.ExtTreeMap.mem_toList_iff_getElem?_eq_some.mpr hrow, persisted, hdecode, rfl⟩, rfl⟩

theorem nodup_dlqEnvelopes (json : SerdeJson) (db : Db) :
    ((db.dlqEnvelopes json).map (·.1)).Nodup := by
  have hkeys : (db.dlq.toList.map (·.1)).Nodup := by
    rw [Std.ExtTreeMap.map_fst_toList_eq_keys]
    exact Std.ExtTreeMap.nodup_keys
  refine List.Sublist.nodup ?_ hkeys
  unfold Db.dlqEnvelopes
  induction db.dlq.toList with
  | nil => exact List.Sublist.refl _
  | cons row rows ih =>
    cases hdecode : json.fromSlice row.2 with
    | none =>
      rw [List.filterMap_cons_none (by simp [hdecode])]
      exact ih.cons _
    | some persisted =>
      rw [List.filterMap_cons_some (b := (row.1, persisted)) (by simp [hdecode])]
      exact ih.cons_cons _

/-! ## The sends -/

/-- What the sending loop of `replay_dlq` does. -/
structure DlqSends where
  count : Nat
  /-- The rows whose message entered the queue, in order. -/
  enqueued : List Uuid
  queue : Mpsc.Channel RedbDispatcherMessage

section Sends

variable {R : Type} [EventRegistry R] (registry : R)
  (env : Nat → Mpsc.Channel RedbDispatcherMessage → Mpsc.Channel RedbDispatcherMessage)

/-- The loop over `envelopes`.  `env i` is what publishers and the worker have done to
    the queue by the time row `i` is reached. -/
def sendDlq : Nat → Mpsc.Channel RedbDispatcherMessage → List (Uuid × PersistedEnvelope) → DlqSends
  | _, queue, [] => ⟨0, [], queue⟩
  | i, queue, (id, persisted) :: rest =>
    let queue := env i queue
    match EventRegistry.getTypeId registry persisted.typeName with
    | some typeId =>
      match queue.trySend (persisted.message typeId) with
      | .ok queue =>
        let r := sendDlq (i + 1) queue rest
        ⟨r.count + 1, id :: r.enqueued, r.queue⟩
      | .error _ =>
        let r := sendDlq (i + 1) queue rest
        ⟨r.count + 1, r.enqueued, r.queue⟩
    | none => sendDlq (i + 1) queue rest

/-- Every row has a registered type and finds a queue that accepts it. -/
def AllAccepted : Nat → Mpsc.Channel RedbDispatcherMessage → List (Uuid × PersistedEnvelope) → Prop
  | _, _, [] => True
  | i, queue, (_, persisted) :: rest =>
    ∃ typeId, EventRegistry.getTypeId registry persisted.typeName = some typeId ∧
      (env i queue).Accepts ∧
      AllAccepted (i + 1) ((env i queue).push (persisted.message typeId)) rest

theorem sendDlq_enqueued_sublist (i : Nat) (queue : Mpsc.Channel RedbDispatcherMessage)
    (rows : List (Uuid × PersistedEnvelope)) :
    (sendDlq registry env i queue rows).enqueued.Sublist (rows.map (·.1)) := by
  induction rows generalizing i queue with
  | nil => exact List.Sublist.refl _
  | cons row rest ih =>
    obtain ⟨id, persisted⟩ := row
    unfold sendDlq
    dsimp only
    split
    · split
      · exact (ih _ _).cons_cons _
      · exact (ih _ _).cons _
    · exact (ih _ _).cons _

/-- **All rows are enqueued** exactly when all are accepted, and then the count is
    their number. -/
theorem sendDlq_enqueued_eq_iff (i : Nat) (queue : Mpsc.Channel RedbDispatcherMessage)
    (rows : List (Uuid × PersistedEnvelope)) :
    (sendDlq registry env i queue rows).enqueued = rows.map (·.1)
      ↔ AllAccepted registry env i queue rows := by
  induction rows generalizing i queue with
  | nil => simp [sendDlq, AllAccepted]
  | cons row rest ih =>
    obtain ⟨id, persisted⟩ := row
    -- once a row is left out the rest is too short
    have hshort : ∀ queue, (sendDlq registry env (i + 1) queue rest).enqueued
        ≠ id :: rest.map (·.1) := by
      intro queue h
      have hlen := (sendDlq_enqueued_sublist registry env (i + 1) queue rest).length_le
      rw [h, List.length_cons] at hlen
      omega
    unfold sendDlq AllAccepted
    cases hname : EventRegistry.getTypeId registry persisted.typeName with
    | none => simpa using hshort _
    | some typeId =>
      by_cases hacc : (env i queue).Accepts
      · simp [Mpsc.Channel.trySend_of_accepts hacc, hacc, ih]
      · obtain ⟨e, herror⟩ :=
          Mpsc.Channel.exists_trySend_error hacc (persisted.message typeId)
        simpa [herror, hacc] using hshort _

theorem sendDlq_count (i : Nat) (queue : Mpsc.Channel RedbDispatcherMessage)
    (rows : List (Uuid × PersistedEnvelope)) (h : AllAccepted registry env i queue rows) :
    (sendDlq registry env i queue rows).count = rows.length := by
  induction rows generalizing i queue with
  | nil => rfl
  | cons row rest ih =>
    obtain ⟨id, persisted⟩ := row
    obtain ⟨typeId, hname, hacc, hrest⟩ := h
    unfold sendDlq
    simp [hname, Mpsc.Channel.trySend_of_accepts hacc, ih _ _ hrest]

end Sends

/-! ## The call -/

/-- How the transaction of `replay_dlq` ends. -/
inductive DlqTxn where
  | committed
  /-- The first `open_table` failed: the call returns `Ok(0)`. -/
  | unopened
  /-- Any other call returned an error. -/
  | failed (msg : String)
  /-- The blocking task panicked. -/
  | panicked (msg : String)
  deriving DecidableEq, Repr

/-- What a call of `replay_dlq` returns and leaves behind. -/
structure DlqReplay where
  result : Except Error Nat
  db : Db
  /-- The rows whose message entered the queue, in order. -/
  enqueued : List Uuid

/-- `replay_dlq`; `sender` is the queue, if the dispatcher still holds a sender. -/
def replayDlq {R : Type} [EventRegistry R] (json : SerdeJson) (registry : R)
    (env : Nat → Mpsc.Channel RedbDispatcherMessage → Mpsc.Channel RedbDispatcherMessage)
    (sender : Option (Mpsc.Channel RedbDispatcherMessage)) (txn : DlqTxn) (db : Db) : DlqReplay :=
  match sender with
  | none => ⟨.error (.internal "Dispatcher not initialized"), db, []⟩
  | some queue =>
    match txn with
    | .unopened => ⟨.ok 0, db, []⟩
    | .failed msg => ⟨.error (.internal msg), db, []⟩
    | .panicked msg => ⟨.error (.internal msg), db, []⟩
    | .committed =>
      let envelopes := db.dlqEnvelopes json
      let r := sendDlq registry env 0 queue envelopes
      ⟨.ok r.count, db.removeDlq envelopes, r.enqueued⟩

/-- No event is lost: each decodable row was enqueued once and removed, or is still
    there; and the count is the number of events enqueued. -/
structure DlqReplay.Lossless (json : SerdeJson) (db : Db) (replay : DlqReplay) : Prop where
  rows : ∀ id bytes, db.dlq[id]? = some bytes → (json.fromSlice bytes).isSome = true →
    (replay.enqueued.count id = 1 ∧ replay.db.dlq[id]? = none) ∨
      replay.db.dlq[id]? = some bytes
  count : ∀ n, replay.result = .ok n → n = replay.enqueued.length

/-- **When `replay_dlq` loses nothing.** A call loses no event and counts right if and
    only if it commits nothing, or every decodable row has a registered type and finds
    a queue that accepts it. -/
theorem replayDlq_lossless_iff {R : Type} [EventRegistry R] (json : SerdeJson) (registry : R)
    (env : Nat → Mpsc.Channel RedbDispatcherMessage → Mpsc.Channel RedbDispatcherMessage)
    (sender : Option (Mpsc.Channel RedbDispatcherMessage)) (txn : DlqTxn) (db : Db) :
    (replayDlq json registry env sender txn db).Lossless json db
      ↔ ∀ queue, sender = some queue → txn = .committed →
        AllAccepted registry env 0 queue (db.dlqEnvelopes json) := by
  cases sender with
  | none =>
    simp only [reduceCtorEq, false_implies, implies_true, iff_true]
    exact ⟨fun _ _ h _ => .inr h, by simp [replayDlq]⟩
  | some queue =>
    simp only [Option.some.injEq, forall_eq']
    cases txn with
    | unopened =>
      simp only [reduceCtorEq, false_implies, iff_true]
      exact ⟨fun _ _ h _ => .inr h, by simp [replayDlq]⟩
    | failed msg =>
      simp only [reduceCtorEq, false_implies, iff_true]
      exact ⟨fun _ _ h _ => .inr h, by simp [replayDlq]⟩
    | panicked msg =>
      simp only [reduceCtorEq, false_implies, iff_true]
      exact ⟨fun _ _ h _ => .inr h, by simp [replayDlq]⟩
    | committed =>
      simp only [forall_const]
      rw [← sendDlq_enqueued_eq_iff]
      set envelopes := db.dlqEnvelopes json with henvelopes
      have hsublist := sendDlq_enqueued_sublist registry env 0 queue envelopes
      have hnodup : (envelopes.map (·.1)).Nodup := nodup_dlqEnvelopes json db
      constructor
      · intro h
        -- every removed row must have been enqueued, so none was left out
        refine hsublist.eq_of_length_le (hnodup.subperm fun id hid => ?_).length_le
        obtain ⟨bytes, hrow, hdecode⟩ := mem_dlqEnvelopes.mp (henvelopes ▸ hid)
        rcases h.rows id bytes hrow hdecode with ⟨hcount, -⟩ | hstill
        · exact List.count_pos_iff.mp (hcount ▸ Nat.one_pos)
        · exact absurd ((getElem?_removeDlq hid).symm.trans hstill) (by simp)
      · intro h
        constructor
        · intro id bytes hrow hdecode
          left
          have hid : id ∈ envelopes.map (·.1) := mem_dlqEnvelopes.mpr ⟨bytes, hrow, hdecode⟩
          constructor
          · show (sendDlq registry env 0 queue envelopes).enqueued.count id = 1
            rw [h]
            exact List.count_eq_one_of_mem hnodup hid
          · exact getElem?_removeDlq hid
        · rintro n ⟨⟩
          show (sendDlq registry env 0 queue envelopes).count
            = (sendDlq registry env 0 queue envelopes).enqueued.length
          rw [h, List.length_map,
            sendDlq_count registry env 0 queue envelopes
              ((sendDlq_enqueued_eq_iff registry env 0 queue envelopes).mp h)]

/-- A DLQ with one order in it. -/
def failedOrder : Db :=
  { Db.empty with dlq := (∅ : Table Uuid Bytes).insert 7 [] }

/-- The codec of that row. -/
def failedOrderJson : SerdeJson :=
  .ofList [⟨"OrderEvent", { eventId := 7, timestamp := 0 }, .normal, []⟩]

/-- Replayed before anyone has subscribed to `OrderEvent`, the order is lost. -/
theorem not_lossless_unregistered :
    ¬ (replayDlq failedOrderJson DashMapRegistry.new (fun _ queue => queue)
      (some (Mpsc.Channel.new 10)) .committed failedOrder).Lossless failedOrderJson
        failedOrder := by
  intro h
  have hrow := h.rows 7 [] (by decide) (by decide)
  revert hrow
  decide

end TokioEvents
