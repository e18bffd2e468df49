/-
  TokioEvents.Persistence.Rows

  What the write transaction and the ack worker do to the rows of one event in
  `EVENTS_TABLE`, `REFCOUNT_TABLE` and `SCHEDULED_EVENTS_TABLE`.
-/

import TokioEvents.Persistence.AckWorker
import TokioEvents.Persistence.ProcessEvents

namespace TokioEvents
namespace Db

/-! ## The write transaction -/

theorem events_insertRow (db : Db) (row : DbInsert) (e : Uuid) :
    (db.insertRow row).events[e]?
      = if row.isScheduled = false ∧ row.id = e then some row.bytes else db.events[e]? := by
  have hkey : (db.insertKey row).events = db.events := by
    unfold insertKey
    cases row.idempotencyKey <;> rfl
  unfold insertRow insertEvent
  cases row.isScheduled with
  | true => simp [hkey]
  | false => simp [hkey, Std.ExtTreeMap.getElem?_insert]

theorem scheduledEvents_insertRow (db : Db) (row : DbInsert) (key : Nat × Uuid) :
    (db.insertRow row).scheduledEvents[key]?
      = if row.isScheduled = true ∧ (row.deliverAtMs, row.id) = key then some row.bytes
        else db.scheduledEvents[key]? := by
  have hkey : (db.insertKey row).scheduledEvents = db.scheduledEvents := by
    unfold insertKey
    cases row.idempotencyKey <;> rfl
  unfold insertRow insertEvent
  cases row.isScheduled with
  | true => simp [hkey, Std.ExtTreeMap.getElem?_insert]
  | false => simp [hkey]

theorem refcount_insertRow (db : Db) (row : DbInsert) (e : Uuid) :
    (db.insertRow row).refcount[e]?
      = if row.isScheduled = false ∧ row.id = e then some row.subCount else db.refcount[e]? := by
  have hkey : (db.insertKey row).refcount = db.refcount := by
    unfold insertKey
    cases row.idempotencyKey <;> rfl
  unfold insertRow insertEvent
  cases row.isScheduled with
  | true => simp [hkey]
  | false => simp [hkey, Std.ExtTreeMap.getElem?_insert]

/-- The rows of other events stay as they are. -/
theorem insertRows_of_not_mem {rows : List DbInsert} {e : Uuid} (h : e ∉ rows.map (·.id))
    (db : Db) :
    (db.insertRows rows).events[e]? = db.events[e]? ∧
      (db.insertRows rows).refcount[e]? = db.refcount[e]? := by
  induction rows generalizing db with
  | nil => exact ⟨rfl, rfl⟩
  | cons row rows ih =>
    rw [List.map_cons, List.mem_cons, not_or] at h
    have hne : ¬ (row.isScheduled = false ∧ row.id = e) := fun hrow => h.1 hrow.2.symm
    obtain ⟨hevents, hrefcount⟩ := ih h.2 (db.insertRow row)
    exact ⟨hevents.trans (by rw [events_insertRow, if_neg hne]),
      hrefcount.trans (by rw [refcount_insertRow, if_neg hne])⟩

/-- An unscheduled event has the row that was inserted for it. -/
theorem insertRows_of_mem {rows : List DbInsert} {row : DbInsert} (hnodup : (rows.map (·.id)).Nodup)
    (hmem : row ∈ rows) (hunscheduled : row.isScheduled = false) (db : Db) :
    (db.insertRows rows).events[row.id]? = some row.bytes ∧
      (db.insertRows rows).refcount[row.id]? = some row.subCount := by
  induction rows generalizing db with
  | nil => cases hmem
  | cons first rows ih =>
    rw [List.map_cons, List.nodup_cons] at hnodup
    rcases List.mem_cons.mp hmem with rfl | hlater
    · obtain ⟨hevents, hrefcount⟩ := insertRows_of_not_mem hnodup.1 (db.insertRow row)
      exact ⟨hevents.trans (by rw [events_insertRow, if_pos ⟨hunscheduled, rfl⟩]),
        hrefcount.trans (by rw [refcount_insertRow, if_pos ⟨hunscheduled, rfl⟩])⟩
    · exact ih hnodup.2 hlater (db.insertRow first)

/-- Nothing is scheduled by rows of unscheduled events. -/
theorem scheduledEvents_insertRows_of_unscheduled {rows : List DbInsert}
    (h : ∀ row ∈ rows, row.isScheduled = false) (db : Db) :
    (db.insertRows rows).scheduledEvents = db.scheduledEvents := by
  induction rows generalizing db with
  | nil => rfl
  | cons row rows ih =>
    refine (ih (fun row' hmem => h row' (List.mem_cons_of_mem _ hmem)) (db.insertRow row)).trans ?_
    apply Std.ExtTreeMap.ext_getElem?
    intro key
    rw [scheduledEvents_insertRow, if_neg]
    simp [h row List.mem_cons_self]

/-! ## The ack worker -/

/-- A completion concerns the rows of its own event only. -/
theorem ack_of_ne {completion : Completion} {e : Uuid} (h : e ≠ completion.1) (db : Db) :
    (db.ack completion).events[e]? = db.events[e]? ∧
      (db.ack completion).refcount[e]? = db.refcount[e]? := by
  have hne : ¬ completion.1 = e := fun heq => h heq.symm
  rcases db.ack_cases completion with hack | ⟨n, hack⟩ | ⟨dlq, hack⟩
  · rw [hack]
    exact ⟨rfl, rfl⟩
  · rw [hack]
    simp [Std.ExtTreeMap.getElem?_insert, hne]
  · rw [hack]
    simp [Std.ExtTreeMap.getElem?_erase, hne]

/-- **A completion**, by the refcount it finds. -/
theorem ack_rows (db : Db) (completion : Completion) :
    (db.refcount[completion.1]? = none ∧ db.ack completion = db) ∨
    ∃ current, db.refcount[completion.1]? = some current ∧
      ((current ≤ 1 ∧ (db.ack completion).events[completion.1]? = none ∧
          (db.ack completion).refcount[completion.1]? = none) ∨
        (1 < current ∧ (db.ack completion).events[completion.1]? = db.events[completion.1]? ∧
          (db.ack completion).refcount[completion.1]? = some (current - 1))) := by
  unfold ack
  dsimp only
  cases hcount : db.refcount[completion.1]? with
  | none => exact .inl ⟨rfl, rfl⟩
  | some current =>
    refine .inr ⟨current, rfl, ?_⟩
    by_cases hlast : current ≤ 1
    · left
      simp only [hlast, ↓reduceIte, true_and]
      cases completion.2 with
      | true => simp
      | false => cases db.events[completion.1]? <;> simp
    · right
      simp only [hlast, ↓reduceIte]
      exact ⟨Nat.lt_of_not_le hlast, by simp⟩

theorem scheduledEvents_ack (db : Db) (completion : Completion) :
    (db.ack completion).scheduledEvents = db.scheduledEvents := by
  rcases db.ack_cases completion with hack | ⟨n, hack⟩ | ⟨dlq, hack⟩ <;> rw [hack]

/-! ## Consistent databases -/

/-- Every row of `EVENTS_TABLE` has its refcount, and refcounts are positive. -/
structure Consistent (db : Db) : Prop where
  paired : ∀ e : Uuid, (db.events[e]?).isSome = (db.refcount[e]?).isSome
  positive : ∀ (e : Uuid) refcount, db.refcount[e]? = some refcount → 0 < refcount

theorem consistent_empty : Db.empty.Consistent where
  paired _ := by simp [Db.empty]
  positive _ _ h := by simp [Db.empty] at h

theorem Consistent.insertRow {db : Db} (h : db.Consistent) {row : DbInsert}
    (hpos : 0 < row.subCount) : (db.insertRow row).Consistent where
  paired e := by
    rw [events_insertRow, refcount_insertRow]
    split
    · rfl
    · exact h.paired e
  positive e refcount hget := by
    rw [refcount_insertRow] at hget
    split at hget
    · cases hget
      exact hpos
    · exact h.positive e refcount hget

theorem Consistent.insertRows {db : Db} (h : db.Consistent) {rows : List DbInsert}
    (hpos : ∀ row ∈ rows, 0 < row.subCount) : (db.insertRows rows).Consistent := by
  induction rows generalizing db with
  | nil => exact h
  | cons row rows ih =>
    exact ih (h.insertRow (hpos row List.mem_cons_self)) fun row' hmem =>
      hpos row' (List.mem_cons_of_mem _ hmem)

theorem Consistent.ack {db : Db} (h : db.Consistent) (completion : Completion) :
    (db.ack completion).Consistent := by
  have hrows : ∀ e : Uuid,
      ((db.ack completion).events[e]?).isSome = ((db.ack completion).refcount[e]?).isSome ∧
      ∀ refcount, (db.ack completion).refcount[e]? = some refcount → 0 < refcount := by
    intro e
    by_cases he : e = completion.1
    · subst he
      rcases db.ack_rows completion with ⟨-, hsame⟩ | ⟨current, hcurrent, hcases⟩
      · rw [hsame]
        exact ⟨h.paired _, h.positive _⟩
      · rcases hcases with ⟨-, hevents, hrefcount⟩ | ⟨hearlier, hevents, hrefcount⟩
        · rw [hevents, hrefcount]
          exact ⟨rfl, fun _ hget => by cases hget⟩
        · rw [hevents, hrefcount, h.paired, hcurrent]
          refine ⟨rfl, fun refcount hget => ?_⟩
          cases hget
          omega
    · obtain ⟨hevents, hrefcount⟩ := ack_of_ne he db
      rw [hevents, hrefcount]
      exact ⟨h.paired e, h.positive e⟩
  exact ⟨fun e => (hrows e).1, fun e => (hrows e).2⟩

end Db
end TokioEvents
