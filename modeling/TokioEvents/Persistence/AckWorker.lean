/-
  TokioEvents.Persistence.AckWorker

  The background worker of `RedbRegistry::new` that applies handler completions to
  the database (`src/persistence/redb.rs`).  A completion is `(event_id, true)` from
  `ack_event` or `(event_id, false)` from `mark_failed`.

  The worker counts completions down and, at the last one, moves the payload to
  `DLQ_TABLE` if *that* completion is a failure.  Failures that arrive earlier leave
  no trace, so the fate of an event with mixed completions depends on their order.
-/

import TokioEvents.Persistence.Tables

namespace TokioEvents

/-- A message of the ack channel: the event and whether its handler succeeded. -/
abbrev Completion := Uuid × Bool

namespace Db

/-- One pass of the ack worker whose transaction commits. -/
def ack (db : Db) (msg : Completion) : Db :=
  let eventId := msg.1
  let isSuccess := msg.2
  match db.refcount[eventId]? with
  | none => db
  | some current =>
    if current ≤ 1 then
      -- Last subscriber processed it, remove it from the DB
      let db := { db with refcount := db.refcount.erase eventId }
      let db :=
        if !isSuccess then
          -- Event failed permanently, move the payload to DLQ_TABLE
          match db.events[eventId]? with
          | some payload => { db with dlq := db.dlq.insert eventId payload }
          | none => db
        else db
      { db with events := db.events.erase eventId }
    else { db with refcount := db.refcount.insert eventId (current - 1) }

/-- **One pass**: nothing is known of the event, or it is counted down, or it leaves
    `EVENTS_TABLE` for good. -/
theorem ack_cases (db : Db) (msg : Completion) :
    db.ack msg = db ∨
    (∃ n, db.ack msg = { db with refcount := db.refcount.insert msg.1 n }) ∨
    (∃ dlq, db.ack msg = { db with
      refcount := db.refcount.erase msg.1
      events := db.events.erase msg.1
      dlq := dlq }) := by
  unfold ack
  dsimp only
  split
  · exact .inl rfl
  · split
    · right; right
      cases msg.2 <;> cases db.events[msg.1]? <;> exact ⟨_, rfl⟩
    · exact .inr (.inl ⟨_, rfl⟩)

/-- The completions of one event, in the order in which they arrive. -/
def ackAll (db : Db) (eventId : Uuid) (completions : List Bool) : Db :=
  completions.foldl (fun db isSuccess => db.ack (eventId, isSuccess)) db

/-- The database after the last completion of an event whose row is `payload`. -/
def finish (db : Db) (eventId : Uuid) (payload : Bytes) (isSuccess : Bool) : Db :=
  { db with
    refcount := db.refcount.erase eventId
    dlq := if isSuccess then db.dlq else db.dlq.insert eventId payload
    events := db.events.erase eventId }

theorem ack_last {db : Db} {eventId : Uuid} {payload : Bytes} {current : Nat} (isSuccess : Bool)
    (hrow : db.events[eventId]? = some payload) (hcount : db.refcount[eventId]? = some current)
    (hlast : current ≤ 1) :
    db.ack (eventId, isSuccess) = db.finish eventId payload isSuccess := by
  cases isSuccess <;> simp [ack, finish, hcount, hlast, hrow]

theorem ack_earlier {db : Db} {eventId : Uuid} {current : Nat} (isSuccess : Bool)
    (hcount : db.refcount[eventId]? = some current) (hearlier : 1 < current) :
    db.ack (eventId, isSuccess)
      = { db with refcount := db.refcount.insert eventId (current - 1) } := by
  simp [ack, hcount, Nat.not_le.mpr hearlier]

/-- Counting down first and finishing then is finishing at once. -/
theorem finish_refcount_insert (db : Db) (eventId : Uuid) (payload : Bytes) (isSuccess : Bool)
    (n : Nat) :
    { db with refcount := db.refcount.insert eventId n }.finish eventId payload isSuccess
      = db.finish eventId payload isSuccess := by
  have h : (db.refcount.insert eventId n).erase eventId = db.refcount.erase eventId := by
    apply Std.ExtTreeMap.ext_getElem?
    intro k
    by_cases hk : eventId = k <;> simp [Std.ExtTreeMap.getElem?_erase,
      Std.ExtTreeMap.getElem?_insert, hk]
  simp [finish, h]

/-- **Only the last completion counts.** A row with refcount `n` and `n` completions
    end as the last completion alone decides. -/
theorem ackAll_eq_finish {db : Db} {eventId : Uuid} {payload : Bytes} (earlier : List Bool)
    (last : Bool) (hrow : db.events[eventId]? = some payload)
    (hcount : db.refcount[eventId]? = some (earlier.length + 1)) :
    db.ackAll eventId (earlier ++ [last]) = db.finish eventId payload last := by
  induction earlier generalizing db with
  | nil => exact ack_last last hrow hcount (by simp)
  | cons c earlier ih =>
    have hstep : db.ackAll eventId (c :: earlier ++ [last])
        = (db.ack (eventId, c)).ackAll eventId (earlier ++ [last]) := rfl
    rw [hstep, ack_earlier c hcount (by simp)]
    rw [ih (by exact hrow) (by simp)]
    exact finish_refcount_insert db eventId payload last _

/-- The fate of an event does not depend on the order of its completions, its
    payload is in `DLQ_TABLE` if one of them failed, and in no table if none did. -/
structure OrderFree (db : Db) (eventId : Uuid) (payload : Bytes) (completions : List Bool) :
    Prop where
  sameTables : ∀ order, order.Perm completions →
    (db.ackAll eventId order).events = (db.ackAll eventId completions).events ∧
    (db.ackAll eventId order).refcount = (db.ackAll eventId completions).refcount ∧
    (db.ackAll eventId order).dlq = (db.ackAll eventId completions).dlq
  failed : false ∈ completions → (db.ackAll eventId completions).dlq[eventId]? = some payload
  succeeded : false ∉ completions →
    (db.ackAll eventId completions).events[eventId]? = none ∧
    (db.ackAll eventId completions).refcount[eventId]? = none ∧
    (db.ackAll eventId completions).dlq[eventId]? ≠ some payload

/-- Every arrival order of a non-empty list of completions ends in a last one. -/
theorem exists_last_of_perm {completions order : List Bool} (hp : order.Perm completions)
    (hne : completions ≠ []) :
    ∃ earlier last, order = earlier ++ [last] ∧ last ∈ completions ∧
      earlier.length + 1 = completions.length := by
  have hne' : order ≠ [] := fun h => hne (List.perm_nil.mp (h ▸ hp.symm))
  refine ⟨order.dropLast, order.getLast hne', (List.dropLast_append_getLast hne').symm,
    hp.mem_iff.mp (List.getLast_mem hne'), ?_⟩
  rw [← hp.length_eq, List.length_dropLast]
  exact Nat.sub_add_cancel (List.length_pos_iff.mpr hne')

/-- Any completion can be the one that arrives last. -/
theorem exists_perm_with_last {completions : List Bool} {c : Bool} (hc : c ∈ completions) :
    ∃ earlier, (earlier ++ [c]).Perm completions ∧ earlier.length + 1 = completions.length := by
  have hp : (completions.erase c ++ [c]).Perm completions :=
    List.perm_append_singleton c _ |>.trans (List.perm_cons_erase hc).symm
  exact ⟨completions.erase c, hp, by simpa using hp.length_eq⟩

/-- **When completions commute.** For an event row with refcount `n ≥ 1` and `n`
    completions, the outcome is free of their order exactly when all failed, or all
    succeeded and `DLQ_TABLE` did not hold this payload for the event, or some failed and
    `DLQ_TABLE` already held it. -/
theorem orderFree_iff (db : Db) (eventId : Uuid) (payload : Bytes) (n : Nat)
    (completions : List Bool) (hrow : db.events[eventId]? = some payload)
    (hcount : db.refcount[eventId]? = some n) (hpos : 1 ≤ n) (hlen : completions.length = n) :
    OrderFree db eventId payload completions
      ↔ true ∉ completions ∨
        (false ∉ completions ∧ db.dlq[eventId]? ≠ some payload) ∨
        (false ∈ completions ∧ db.dlq[eventId]? = some payload) := by
  have hne : completions ≠ [] := by rintro rfl; simp at hlen; omega
  -- every arrival order ends as one of its completions decides
  have hfinish : ∀ order, order.Perm completions →
      ∃ last ∈ completions, db.ackAll eventId order = db.finish eventId payload last := by
    intro order hp
    obtain ⟨earlier, last, rfl, hlast, hlength⟩ := exists_last_of_perm hp hne
    exact ⟨last, hlast, ackAll_eq_finish earlier last hrow (by rw [hcount, hlength, hlen])⟩
  -- and every completion decides some arrival order
  have hdecides : ∀ c ∈ completions, ∃ order, order.Perm completions ∧
      db.ackAll eventId order = db.finish eventId payload c := by
    intro c hc
    obtain ⟨earlier, hp, hlength⟩ := exists_perm_with_last hc
    exact ⟨_, hp, ackAll_eq_finish earlier c hrow (by rw [hcount, hlength, hlen])⟩
  obtain ⟨last, hlast, hgiven⟩ := hfinish completions (List.Perm.refl _)
  constructor
  · intro h
    by_cases htrue : true ∈ completions
    · by_cases hfalse : false ∈ completions
      · -- both can arrive last, so a success in last place must find the row in the DLQ
        right; right
        obtain ⟨order, hp, horder⟩ := hdecides true htrue
        have hsame := (h.sameTables order hp).2.2
        have hdlq := h.failed hfalse
        rw [← hsame, horder] at hdlq
        exact ⟨hfalse, by simpa [finish] using hdlq⟩
      · right; left
        obtain rfl : last = true := by cases last <;> simp_all
        have hdlq := (h.succeeded hfalse).2.2
        rw [hgiven] at hdlq
        exact ⟨hfalse, by simpa [finish] using hdlq⟩
    · exact .inl htrue
  · rintro (htrue | ⟨hfalse, hdlq⟩ | ⟨hfalse, hdlq⟩)
    · -- all failed
      have hall : ∀ c ∈ completions, c = false := fun c hc => by cases c <;> simp_all
      refine ⟨?_, ?_, fun hno => absurd (hall last hlast ▸ hlast) hno⟩
      · intro order hp
        obtain ⟨c, hc, horder⟩ := hfinish order hp
        rw [horder, hgiven, hall c hc, hall last hlast]
        exact ⟨rfl, rfl, rfl⟩
      · intro _
        rw [hgiven, hall last hlast]
        simp [finish]
    · -- all succeeded
      have hall : ∀ c ∈ completions, c = true := fun c hc => by cases c <;> simp_all
      refine ⟨?_, fun hyes => absurd hyes hfalse, ?_⟩
      · intro order hp
        obtain ⟨c, hc, horder⟩ := hfinish order hp
        rw [horder, hgiven, hall c hc, hall last hlast]
        exact ⟨rfl, rfl, rfl⟩
      · intro _
        rw [hgiven, hall last hlast]
        simp [finish, hdlq]
    · -- the row is in the DLQ whichever comes last
      have hsame : db.dlq.insert eventId payload = db.dlq := by
        apply Std.ExtTreeMap.ext_getElem?
        intro k
        by_cases hk : eventId = k
        · subst hk; simp [hdlq]
        · simp [Std.ExtTreeMap.getElem?_insert, hk]
      have hfin : ∀ c, (db.finish eventId payload c).dlq = db.dlq := by
        intro c
        cases c <;> simp [finish, hsame]
      refine ⟨?_, ?_, fun hno => absurd hfalse hno⟩
      · intro order hp
        obtain ⟨c, -, horder⟩ := hfinish order hp
        rw [horder, hgiven, hfin, hfin]
        exact ⟨rfl, rfl, rfl⟩
      · intro _
        rw [hgiven, hfin, hdlq]

/-- An event row with two counted subscribers. -/
def twoSubscribers : Db :=
  { Db.empty with
    events := (∅ : Table Uuid Bytes).insert 7 [1]
    refcount := (∅ : Table Uuid Nat).insert 7 2 }

/-- With two failures the outcome is free of their order. -/
theorem orderFree_twoSubscribers : OrderFree twoSubscribers 7 [1] [false, false] :=
  (orderFree_iff twoSubscribers 7 [1] 2 [false, false] (by decide) (by decide) (by decide)
    (by decide)).mpr (.inl (by decide))

/-- A failure followed by a success leaves the payload in no table. -/
theorem not_orderFree_twoSubscribers : ¬ OrderFree twoSubscribers 7 [1] [false, true] := by
  intro h
  have hdlq := h.failed (by decide)
  revert hdlq
  decide

end Db
end TokioEvents
