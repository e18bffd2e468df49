/-
  TokioEvents.Persistence.GroupCommit

  Group commit against one message per batch.  Both runs read the same counts,
  serializations and clocks, every transaction commits and nothing else touches the
  database.

  `batch_keys` takes in the key of every message that passes the check, also of one
  that will leave no row (no subscriber, or not serializable).  A later message of
  the batch with the same key is then discarded, while a run that commits between
  the two accepts it.  That is the only difference: the two runs agree on every
  prefix of the batches exactly when no batch discards such a message that would
  have had any effect.
-/

import TokioEvents.Persistence.ProcessEvents

namespace TokioEvents

/-- The database and the dispatched envelopes after a sequence of batches. -/
def processBatches (json : SerdeJson) : Db → List (List Item) → Db × List EventEnvelope
  | db, [] => (db, [])
  | db, batch :: batches =>
    let outcome := processBatch json noFaults db batch
    let rest := processBatches json outcome.db batches
    (rest.1, outcome.dispatched.map (·.msg.envelope) ++ rest.2)

/-- One message per batch. -/
def singly (batches : List (List Item)) : List (List Item) := batches.flatten.map fun item => [item]

@[simp] theorem singly_append (a b : List (List Item)) :
    singly (a ++ b) = singly a ++ singly b := by
  simp [singly]

/-- The envelopes the dispatch loop hands on. -/
def handedOn (items : List Item) : List EventEnvelope :=
  (items.filter fun item => !item.msg.envelope.isScheduled item.dispatchNow).map (·.msg.envelope)

@[simp] theorem handedOn_nil : handedOn [] = [] := rfl

@[simp] theorem handedOn_append (a b : List Item) :
    handedOn (a ++ b) = handedOn a ++ handedOn b := by
  simp [handedOn]

theorem handedOn_singleton_eq_nil {item : Item} :
    handedOn [item] = [] ↔ item.msg.envelope.isScheduled item.dispatchNow = true := by
  simp [handedOn]

theorem processBatches_singleton (json : SerdeJson) (db : Db) (batch : List Item) :
    processBatches json db [batch]
      = (db.insertRows (dbInserts json db batch), handedOn (validBatch db batch)) := by
  have hcommit : ∀ rows, writeOutcome noFaults rows = .committed := by
    intro rows
    have hnone : (txnCalls rows).findSome? noFaults = none :=
      List.findSome?_eq_none_iff.mpr fun _ _ => rfl
    unfold writeOutcome
    rw [hnone]
  have hwrite : batchWrite json noFaults db batch = .committed := by
    unfold batchWrite
    rw [hcommit, ite_self]
  simp [processBatches, processBatch_eq, hwrite, WriteOutcome.committedRows, handedOn]

theorem processBatches_append (json : SerdeJson) (db : Db) (a b : List (List Item)) :
    processBatches json db (a ++ b)
      = ((processBatches json (processBatches json db a).1 b).1,
          (processBatches json db a).2 ++
            (processBatches json (processBatches json db a).1 b).2) := by
  induction a generalizing db with
  | nil => rfl
  | cons batch a ih => simp [processBatches, ih]

/-- The item leaves a row. -/
def Item.Recordable (json : SerdeJson) (item : Item) : Prop := (item.row json).isSome

theorem Item.row_idempotencyKey {json : SerdeJson} {item : Item} {row : DbInsert}
    (h : item.row json = some row) : row.idempotencyKey = item.idempotencyKey := by
  obtain ⟨-, bytes, -, rfl⟩ := prepare_eq_some.mp h
  rfl

/-- A key is among the rows of some items when an item that leaves a row carries it. -/
theorem exists_row_key_iff (json : SerdeJson) (items : List Item) (k : String) :
    (∃ row ∈ items.filterMap (Item.row json), row.idempotencyKey = some k)
      ↔ ∃ item ∈ items, item.idempotencyKey = some k ∧ item.Recordable json := by
  simp only [List.mem_filterMap, Item.Recordable, Option.isSome_iff_exists]
  constructor
  · rintro ⟨row, ⟨item, hmem, hrow⟩, hkey⟩
    exact ⟨item, hmem, by rw [← Item.row_idempotencyKey hrow, hkey], row, hrow⟩
  · rintro ⟨item, hmem, hkey, row, hrow⟩
    exact ⟨row, ⟨item, hmem, hrow⟩, by rw [Item.row_idempotencyKey hrow, hkey]⟩

/-! ## One batch -/

section Batch

variable (json : SerdeJson) (db : Db)

/-- The batch as a whole. -/
def grouped (batch : List Item) : Db × List EventEnvelope :=
  processBatches json db [batch]

/-- The same batch, message by message. -/
def oneByOne (batch : List Item) : Db × List EventEnvelope :=
  processBatches json db (batch.map fun item => [item])

@[simp] theorem grouped_nil : grouped json db [] = (db, []) := by
  simp [grouped, processBatches_singleton, dbInserts, validBatch]

@[simp] theorem oneByOne_nil : oneByOne json db [] = (db, []) := rfl

/-- A message the table knows the key of has no effect; any other leaves its row and
    is handed on unless it is scheduled. -/
theorem oneByOne_concat (batch : List Item) (item : Item) :
    oneByOne json db (batch ++ [item])
      = if ∃ k, item.idempotencyKey = some k ∧ (oneByOne json db batch).1.keyRecorded k = true then
          oneByOne json db batch
        else ((oneByOne json db batch).1.insertRows (item.row json).toList,
          (oneByOne json db batch).2 ++ handedOn [item]) := by
  have hrun : oneByOne json db (batch ++ [item])
      = ((grouped json (oneByOne json db batch).1 [item]).1,
          (oneByOne json db batch).2 ++ (grouped json (oneByOne json db batch).1 [item]).2) := by
    simp [oneByOne, grouped, processBatches_append]
  rw [hrun, grouped, processBatches_singleton]
  generalize oneByOne json db batch = state
  have hdup := DupCheck.isDuplicate_run Item.idempotencyKey state.1.keyRecorded [] item
  simp only [DupCheck.run_nil, List.not_mem_nil, false_and, exists_false, or_false] at hdup
  unfold dbInserts validBatch DupCheck.run
  simp only [List.foldl_cons, List.foldl_nil, DupCheck.step]
  by_cases h : ∃ k, item.idempotencyKey = some k ∧ state.1.keyRecorded k = true
  · simp [if_pos h, if_pos (hdup.mpr h)]
  · rw [if_neg h, if_neg (mt hdup.mp h)]
    cases hrow : item.row json <;> simp [hrow]

/-- In the group, the keys of earlier messages of the batch count as well. -/
theorem grouped_concat (batch : List Item) (item : Item) :
    grouped json db (batch ++ [item])
      = if ∃ k, item.idempotencyKey = some k ∧ (db.keyRecorded k = true ∨
            ∃ m ∈ batch, m.idempotencyKey = some k) then
          grouped json db batch
        else ((grouped json db batch).1.insertRows (item.row json).toList,
          (grouped json db batch).2 ++ handedOn [item]) := by
  have hdup := DupCheck.isDuplicate_run Item.idempotencyKey db.keyRecorded batch item
  simp only [grouped, processBatches_singleton]
  unfold dbInserts validBatch
  rw [DupCheck.run_concat, DupCheck.step]
  split
  · rename_i h
    rw [if_pos (hdup.mp h)]
  · rename_i h
    rw [if_neg (mt hdup.mpr h)]
    cases hrow : item.row json <;> simp [hrow]

/-- Message by message, a key is recorded once a message that carries it left a row. -/
theorem keyRecorded_oneByOne (batch : List Item) (k : String) :
    (oneByOne json db batch).1.keyRecorded k = true
      ↔ db.keyRecorded k = true ∨
        ∃ m ∈ batch, m.idempotencyKey = some k ∧ m.Recordable json := by
  induction batch using List.reverseRecOn with
  | nil => simp
  | append_singleton batch item ih =>
    have hnew : (∃ m ∈ batch ++ [item], m.idempotencyKey = some k ∧ m.Recordable json)
        ↔ (∃ m ∈ batch, m.idempotencyKey = some k ∧ m.Recordable json) ∨
          (item.idempotencyKey = some k ∧ item.Recordable json) := by
      simp [or_and_right, exists_or]
    rw [hnew, ← or_assoc, ← ih, oneByOne_concat]
    split
    · rename_i h
      obtain ⟨k', hk', hrec⟩ := h
      constructor
      · exact .inl
      · rintro (h | ⟨hk, -⟩)
        · exact h
        · rw [hk'] at hk
          exact Option.some.inj hk ▸ hrec
    · have hkey := exists_row_key_iff json [item] k
      simp only [List.filterMap_cons, List.filterMap_nil, List.mem_singleton,
        exists_eq_left] at hkey
      rw [keyRecorded_insertRows, ← hkey]
      cases item.row json <;> simp

/-- In the group, only the messages that passed the check can record a key. -/
theorem keyRecorded_grouped (batch : List Item) (k : String) :
    (grouped json db batch).1.keyRecorded k = true
      ↔ db.keyRecorded k = true ∨
        ∃ m ∈ validBatch db batch, m.idempotencyKey = some k ∧ m.Recordable json := by
  rw [grouped, processBatches_singleton, keyRecorded_insertRows]
  exact or_congr Iff.rfl (exists_row_key_iff json _ k)

theorem validBatch_subset {batch : List Item} {item : Item} (h : item ∈ validBatch db batch) :
    item ∈ batch :=
  (DupCheck.mem_valid_or_mem_duplicates Item.idempotencyKey db.keyRecorded).mp (.inl h)

/-- The group discards the item although nothing has recorded its key: an earlier
    message of the batch carries it, but none of those leaves a row. -/
def DroppedUnrecorded (earlier : List Item) (item : Item) : Prop :=
  ∃ k, item.idempotencyKey = some k ∧ db.keyRecorded k = false ∧
    (∃ m ∈ earlier, m.idempotencyKey = some k) ∧
    ∀ m ∈ earlier, m.idempotencyKey = some k → ¬ m.Recordable json

/-- Every message the group discards so would have had no effect of its own: it leaves
    no row, and the scheduler rather than the loop would hand it on. -/
def GroupCommitSafe (batch : List Item) : Prop :=
  ∀ earlier item, earlier ++ [item] <+: batch → DroppedUnrecorded json db earlier item →
    ¬ item.Recordable json ∧ item.msg.envelope.isScheduled item.dispatchNow = true

theorem groupCommitSafe_concat {batch : List Item} {item : Item} :
    GroupCommitSafe json db (batch ++ [item])
      ↔ GroupCommitSafe json db batch ∧
        (DroppedUnrecorded json db batch item →
          ¬ item.Recordable json ∧ item.msg.envelope.isScheduled item.dispatchNow = true) := by
  unfold GroupCommitSafe
  constructor
  · intro h
    exact ⟨fun earlier m hp => h earlier m (hp.trans (List.prefix_append _ _)),
      h batch item (List.prefix_refl _)⟩
  · rintro ⟨hpre, hlast⟩ earlier m hp
    rcases List.prefix_concat_iff.mp hp with heq | hp
    · obtain ⟨rfl, hm⟩ := List.append_inj' heq rfl
      obtain rfl := List.singleton_inj.mp hm
      exact hlast
    · exact hpre earlier m hp

/-- **The three cases of one more message**: both runs discard it, both accept it, or
    only the group discards it. -/
theorem concat_cases (batch : List Item) (item : Item) :
    (grouped json db (batch ++ [item]) = grouped json db batch ∧
      oneByOne json db (batch ++ [item]) = oneByOne json db batch ∧
      ¬ DroppedUnrecorded json db batch item) ∨
    (grouped json db (batch ++ [item])
        = ((grouped json db batch).1.insertRows (item.row json).toList,
            (grouped json db batch).2 ++ handedOn [item]) ∧
      oneByOne json db (batch ++ [item])
        = ((oneByOne json db batch).1.insertRows (item.row json).toList,
            (oneByOne json db batch).2 ++ handedOn [item]) ∧
      ¬ DroppedUnrecorded json db batch item ∧
      ∀ k, item.idempotencyKey = some k →
        (grouped json db batch).1.keyRecorded k = (oneByOne json db batch).1.keyRecorded k) ∨
    (grouped json db (batch ++ [item]) = grouped json db batch ∧
      oneByOne json db (batch ++ [item])
        = ((oneByOne json db batch).1.insertRows (item.row json).toList,
            (oneByOne json db batch).2 ++ handedOn [item]) ∧
      DroppedUnrecorded json db batch item) := by
  rw [grouped_concat, oneByOne_concat]
  by_cases hsingle : ∃ k, item.idempotencyKey = some k ∧
      (oneByOne json db batch).1.keyRecorded k = true
  · -- recorded: by the table or by an earlier message that left a row
    left
    obtain ⟨k, hk, hrec⟩ := hsingle
    rw [keyRecorded_oneByOne] at hrec
    refine ⟨if_pos ⟨k, hk, hrec.imp_right fun ⟨m, hm, hkey, _⟩ => ⟨m, hm, hkey⟩⟩,
      if_pos ⟨k, hk, (keyRecorded_oneByOne json db batch k).mpr hrec⟩, ?_⟩
    rintro ⟨k', hk', hnot, -, hnone⟩
    obtain rfl := Option.some.inj (hk.symm.trans hk')
    rcases hrec with hrec | ⟨m, hm, hkey, hrow⟩
    · exact absurd hrec (by simp [hnot])
    · exact hnone m hm hkey hrow
  · right
    by_cases hgroup : ∃ k, item.idempotencyKey = some k ∧ (db.keyRecorded k = true ∨
        ∃ m ∈ batch, m.idempotencyKey = some k)
    · -- known to the group only, from a message that left no row
      right
      refine ⟨if_pos hgroup, if_neg hsingle, ?_⟩
      obtain ⟨k, hk, h⟩ := hgroup
      have hnot : ¬ (db.keyRecorded k = true ∨
          ∃ m ∈ batch, m.idempotencyKey = some k ∧ m.Recordable json) := fun hrec =>
        hsingle ⟨k, hk, (keyRecorded_oneByOne json db batch k).mpr hrec⟩
      obtain ⟨hdb, hnone⟩ := not_or.mp hnot
      exact ⟨k, hk, by simpa using hdb, h.resolve_left hdb,
        fun m hm hkey hrow => hnone ⟨m, hm, hkey, hrow⟩⟩
    · -- new to both
      left
      refine ⟨if_neg hgroup, if_neg hsingle, ?_, ?_⟩
      · rintro ⟨k, hk, -, hm, -⟩
        exact hgroup ⟨k, hk, .inr hm⟩
      · intro k hk
        have hfresh : ¬ (db.keyRecorded k = true ∨ ∃ m ∈ batch, m.idempotencyKey = some k) :=
          fun h => hgroup ⟨k, hk, h⟩
        rw [Bool.eq_iff_iff, keyRecorded_grouped, keyRecorded_oneByOne]
        constructor
        · rintro (h | ⟨m, hm, hkey, -⟩)
          · exact absurd (.inl h) hfresh
          · exact absurd (.inr ⟨m, validBatch_subset db hm, hkey⟩) hfresh
        · rintro (h | ⟨m, hm, hkey, -⟩)
          · exact absurd (.inl h) hfresh
          · exact absurd (.inr ⟨m, hm, hkey⟩) hfresh

/-- A safe batch ends the same way in both runs. -/
theorem grouped_eq_of_safe {batch : List Item} (h : GroupCommitSafe json db batch) :
    grouped json db batch = oneByOne json db batch := by
  induction batch using List.reverseRecOn with
  | nil => simp
  | append_singleton batch item ih =>
    obtain ⟨hpre, hlast⟩ := (groupCommitSafe_concat json db).mp h
    have heq := ih hpre
    rcases concat_cases json db batch item with ⟨hg, hs, -⟩ | ⟨hg, hs, -, -⟩ | ⟨hg, hs, hdrop⟩
    · rw [hg, hs, heq]
    · rw [hg, hs, heq]
    · -- what the group discards has no row and is not handed on
      obtain ⟨hrow, hsched⟩ := hlast hdrop
      have hnone : item.row json = none := by simpa [Item.Recordable] using hrow
      rw [hg, hs, heq, handedOn_singleton_eq_nil.mpr hsched, hnone]
      simp

/-- The group never hands on more than the other run. -/
theorem grouped_sublist (batch : List Item) :
    (grouped json db batch).2.Sublist (oneByOne json db batch).2 := by
  induction batch using List.reverseRecOn with
  | nil => simp
  | append_singleton batch item ih =>
    rcases concat_cases json db batch item with ⟨hg, hs, -⟩ | ⟨hg, hs, -, -⟩ | ⟨hg, hs, -⟩
    · rw [hg, hs]
      exact ih
    · rw [hg, hs]
      exact ih.append (List.Sublist.refl _)
    · rw [hg, hs]
      exact ih.trans (List.sublist_append_left _ _)

/-- A difference inside a batch stays visible to its end, in what is handed on or in
    the recorded keys. -/
theorem safe_of_agree {batch : List Item}
    (hout : (grouped json db batch).2 = (oneByOne json db batch).2)
    (hkeys : ∀ k, (grouped json db batch).1.keyRecorded k
      = (oneByOne json db batch).1.keyRecorded k) :
    GroupCommitSafe json db batch := by
  induction batch using List.reverseRecOn with
  | nil =>
    intro earlier item hp
    simp at hp
  | append_singleton batch item ih =>
    rw [groupCommitSafe_concat]
    have hrow : ∀ (state : Db) k, (state.insertRows (item.row json).toList).keyRecorded k = true
        ↔ state.keyRecorded k = true ∨ (item.idempotencyKey = some k ∧ item.Recordable json) := by
      intro state k
      have hkey := exists_row_key_iff json [item] k
      simp only [List.filterMap_cons, List.filterMap_nil, List.mem_singleton,
        exists_eq_left] at hkey
      rw [keyRecorded_insertRows, ← hkey]
      cases item.row json <;> simp
    rcases concat_cases json db batch item with
      ⟨hg, hs, hnot⟩ | ⟨hg, hs, hnot, hfresh⟩ | ⟨hg, hs, hdrop⟩
    · -- discarded by both: the difference, if any, was there before
      rw [hg, hs] at hout
      rw [hg, hs] at hkeys
      exact ⟨ih hout hkeys, fun h => absurd h hnot⟩
    · -- accepted by both: so was the agreement on the keys
      rw [hg, hs] at hout hkeys
      refine ⟨ih (List.append_cancel_right hout) fun k => ?_, fun h => absurd h hnot⟩
      by_cases hk : item.idempotencyKey = some k
      · exact hfresh k hk
      · have := hkeys k
        rw [Bool.eq_iff_iff, hrow, hrow] at this
        rw [Bool.eq_iff_iff]
        simpa only [hk, false_and, or_false] using this
    · -- discarded by the group only: a row or a dispatch would show
      rw [hg, hs] at hout hkeys
      have hlen := (grouped_sublist json db batch).length_le
      have hnil : handedOn [item] = [] := by
        have := congrArg List.length hout
        rw [List.length_append] at this
        exact List.eq_nil_of_length_eq_zero (by omega)
      rw [hnil, List.append_nil] at hout
      obtain ⟨k, hk, hdb, -, hnone⟩ := id hdrop
      have hgroup : (grouped json db batch).1.keyRecorded k ≠ true := by
        rw [Ne, keyRecorded_grouped]
        rintro (h | ⟨m, hm, hkey, hrec⟩)
        · simp [hdb] at h
        · exact hnone m (validBatch_subset db hm) hkey hrec
      have hunrec : ¬ item.Recordable json := by
        intro hrec
        apply hgroup
        rw [hkeys k, hrow]
        exact .inr ⟨hk, hrec⟩
      refine ⟨ih hout fun k => ?_, fun _ => ⟨hunrec, handedOn_singleton_eq_nil.mp hnil⟩⟩
      have := hkeys k
      rw [Bool.eq_iff_iff, hrow] at this
      rw [Bool.eq_iff_iff]
      simpa only [hunrec, and_false, or_false] using this

end Batch

/-- **Group commit is transparent exactly when it is safe.** Over every prefix of the
    batches the two runs leave the same tables and dispatch the same sequence if and
    only if every batch is safe for the database it meets. -/
theorem groupCommit_iff (json : SerdeJson) (db : Db) (batches : List (List Item)) :
    (∀ done, done <+: batches →
        processBatches json db done = processBatches json db (singly done))
      ↔ ∀ done batch, done ++ [batch] <+: batches →
        GroupCommitSafe json (processBatches json db done).1 batch := by
  have hsingly : ∀ batch : List Item, singly [batch] = batch.map fun item => [item] := by
    intro batch
    simp [singly]
  constructor
  · intro h done batch hp
    have hdone := h done ((List.prefix_append _ _).trans hp)
    have hnext := h (done ++ [batch]) hp
    rw [singly_append, hsingly, processBatches_append, processBatches_append, ← hdone] at hnext
    obtain ⟨hdb, hout⟩ := Prod.mk.inj hnext
    exact safe_of_agree json _ (List.append_cancel_left hout)
      fun k => congrArg (fun db : Db => db.keyRecorded k) hdb
  · intro h done
    induction done using List.reverseRecOn with
    | nil => intro _; rfl
    | append_singleton done batch ih =>
      intro hp
      have hdone := ih ((List.prefix_append _ _).trans hp)
      have hbatch := grouped_eq_of_safe json _ (h done batch hp)
      unfold grouped oneByOne at hbatch
      rw [singly_append, hsingly, processBatches_append, processBatches_append, ← hdone, hbatch]

/-- An event under the idempotency key `k`, of a type with that many subscribers. -/
def keyedEvent (typeId : TypeId) (typeName : String) (subCount : Nat) : Item where
  msg := ⟨.fromSerialized typeId typeName
    { eventId := .ofNat 128 typeId, timestamp := 0, idempotencyKey := some "k" } .normal [], none⟩
  subCount := subCount
  persistNow := 0
  dispatchNow := 0

/-- The codec that knows the two events below. -/
def keyedJson : SerdeJson :=
  .ofList [
    ⟨"AuditEvent", { eventId := 1, timestamp := 0, idempotencyKey := some "k" }, .normal, []⟩,
    ⟨"OrderEvent", { eventId := 2, timestamp := 0, idempotencyKey := some "k" }, .normal, []⟩]

/-- Nobody subscribes to the audit event, so it is not stored; the group still
    discards the order that carries the same key. -/
theorem groupCommit_ne :
    processBatches keyedJson Db.empty [[keyedEvent 1 "AuditEvent" 0, keyedEvent 2 "OrderEvent" 1]]
      ≠ processBatches keyedJson Db.empty
        (singly [[keyedEvent 1 "AuditEvent" 0, keyedEvent 2 "OrderEvent" 1]]) := by
  intro h
  have hlen := congrArg (fun r : Db × List EventEnvelope => r.2.length) h
  revert hlen
  decide

end TokioEvents
