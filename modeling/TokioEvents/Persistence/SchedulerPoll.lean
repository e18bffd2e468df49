/-
  TokioEvents.Persistence.SchedulerPoll

  One poll of `RedbDispatcher::scheduler_loop` (`src/persistence/redb.rs`) as the loop it
  is: the scan of `SCHEDULED_EVENTS_TABLE` with its two accumulators and its `break`, the
  removals, and the commit that decides about all of it.

  The scan stops at the first row that is not due.  Because the keys are ordered by their
  timestamp first, it has then seen every due row.
-/

import TokioEvents.Persistence.Bus.System

namespace TokioEvents

/-! ## The blocking task -/

/-- What a poll meets besides the table: each step of the transaction fails or not. -/
structure PollEnv where
  begin : Option String
  openTable : Option String
  commit : Option String

/-- The transaction commits. -/
def PollEnv.Commits (env : PollEnv) : Prop :=
  env.begin = none ∧ env.openTable = none ∧ env.commit = none

instance (env : PollEnv) : Decidable env.Commits := inferInstanceAs (Decidable (_ ∧ _ ∧ _))

/-- The loop over the rows, with `ready_events` and `to_remove`. -/
def scanScheduled (json : SerdeJson) (nowMs : Nat) :
    List ((Nat × Uuid) × Bytes) → List PersistedEnvelope → List (Nat × Uuid) →
      List PersistedEnvelope × List (Nat × Uuid)
  | [], readyEvents, toRemove => (readyEvents, toRemove)
  | (key, bytes) :: rows, readyEvents, toRemove =>
    if key.1 ≤ nowMs then
      match json.fromSlice bytes with
      | some persisted =>
        scanScheduled json nowMs rows (readyEvents ++ [persisted]) (toRemove ++ [key])
      | none => scanScheduled json nowMs rows readyEvents (toRemove ++ [key])
    -- `break`
    else (readyEvents, toRemove)

/-- The closure of `spawn_blocking`: its result, and the database it leaves. -/
def pullScheduled (json : SerdeJson) (env : PollEnv) (nowMs : Nat) (db : Db) :
    Except String (List PersistedEnvelope) × Db :=
  match env.begin with
  | some e => (.error e, db)
  | none =>
    match env.openTable with
    | some e => (.error e, db)
    | none =>
      let (readyEvents, toRemove) := scanScheduled json nowMs db.scheduledEvents.toList [] []
      match env.commit with
      -- the removals are rolled back
      | some e => (.error e, db)
      | none =>
        (.ok readyEvents, { db with
          scheduledEvents := toRemove.foldl (fun t key => t.erase key) db.scheduledEvents })

/-! ## The scan is a prefix of the table -/

/-- The rows up to the first that is not due. -/
theorem scanScheduled_eq (json : SerdeJson) (nowMs : Nat) (rows : List ((Nat × Uuid) × Bytes))
    (readyEvents : List PersistedEnvelope) (toRemove : List (Nat × Uuid)) :
    scanScheduled json nowMs rows readyEvents toRemove
      = (readyEvents ++ (rows.takeWhile fun row => decide (row.1.1 ≤ nowMs)).filterMap
          fun row => json.fromSlice row.2,
        toRemove ++ (rows.takeWhile fun row => decide (row.1.1 ≤ nowMs)).map (·.1)) := by
  induction rows generalizing readyEvents toRemove with
  | nil =>
    unfold scanScheduled
    simp only [List.takeWhile_nil, List.filterMap_nil, List.map_nil, List.append_nil]
  | cons row rows ih =>
    obtain ⟨key, bytes⟩ := row
    unfold scanScheduled
    by_cases hdue : key.1 ≤ nowMs
    · rw [if_pos hdue, List.takeWhile_cons_of_pos (by simpa using hdue), List.map_cons]
      cases hdecode : json.fromSlice bytes with
      | none =>
        simp only [List.filterMap_cons, hdecode]
        rw [ih, List.append_assoc, List.singleton_append]
      | some persisted =>
        simp only [List.filterMap_cons, hdecode]
        rw [ih, List.append_assoc, List.append_assoc, List.singleton_append,
          List.singleton_append]
    · rw [if_neg hdue, List.takeWhile_cons_of_neg (by simpa using hdue), List.filterMap_nil,
        List.map_nil, List.append_nil, List.append_nil]

theorem pullScheduled_of_commits {json : SerdeJson} {env : PollEnv} {nowMs : Nat} {db : Db}
    (h : env.Commits) :
    pullScheduled json env nowMs db = (.ok (db.readyEvents json nowMs), db.poll nowMs) := by
  obtain ⟨hbegin, hopen, hcommit⟩ := h
  unfold pullScheduled
  rw [hbegin, hopen, hcommit, scanScheduled_eq]
  dsimp only
  rw [List.nil_append, List.nil_append, List.foldl_map]
  rfl

theorem pullScheduled_of_not_commits {env : PollEnv} (h : ¬ env.Commits) (json : SerdeJson)
    (nowMs : Nat) (db : Db) : ∃ e, pullScheduled json env nowMs db = (.error e, db) := by
  unfold pullScheduled
  cases hbegin : env.begin with
  | some e => exact ⟨e, rfl⟩
  | none =>
    cases hopen : env.openTable with
    | some e => exact ⟨e, rfl⟩
    | none =>
      cases hcommit : env.commit with
      | some e => exact ⟨e, rfl⟩
      | none => exact absurd ⟨hbegin, hopen, hcommit⟩ h

/-! ## What a poll is for -/

/-- The order of the table: by timestamp, and by id at the same timestamp. -/
def KeyBefore (a b : Nat × Uuid) : Prop := a.1 < b.1 ∨ a.1 = b.1 ∧ a.2 < b.2

theorem keyBefore_of_compare {a b : Nat × Uuid} (h : compare a b = .lt) : KeyBefore a b := by
  have hlex : (compare a.1 b.1).then (compare a.2 b.2) = .lt := h
  rw [Ordering.then_eq_lt] at hlex
  rcases hlex with hlt | ⟨heq, hlt⟩
  · exact .inl (Nat.compare_eq_lt.mp hlt)
  · exact .inr ⟨Nat.compare_eq_eq.mp heq, lt_of_compare_eq_lt hlt⟩

/-- **The poll, as a filter of the table**: the due rows are removed and no other one is;
    the decodable ones among them are yielded, once each and in the order of the table. -/
structure Polled (json : SerdeJson) (nowMs : Nat) (db db' : Db)
    (readyEvents : List PersistedEnvelope) : Prop where
  removed : ∀ key : Nat × Uuid, key.1 ≤ nowMs → db'.scheduledEvents[key]? = none
  untouched : ∀ key : Nat × Uuid, nowMs < key.1 →
    db'.scheduledEvents[key]? = db.scheduledEvents[key]?
  others : db'.events = db.events ∧ db'.refcount = db.refcount ∧ db'.dlq = db.dlq ∧
    db'.processedKeys = db.processedKeys
  yields : ∃ rows : List ((Nat × Uuid) × PersistedEnvelope),
    rows.map (·.2) = readyEvents ∧ rows.Pairwise (fun a b => KeyBefore a.1 b.1) ∧
      ∀ key persisted, (key, persisted) ∈ rows ↔ key.1 ≤ nowMs ∧
        ∃ bytes, db.scheduledEvents[key]? = some bytes ∧ json.fromSlice bytes = some persisted

/-- The due rows that decode, with their keys. -/
def Db.decodedDueRows (json : SerdeJson) (db : Db) (nowMs : Nat) :
    List ((Nat × Uuid) × PersistedEnvelope) :=
  (db.dueRows nowMs).filterMap fun row => (json.fromSlice row.2).map fun persisted =>
    (row.1, persisted)

section Decoded

variable {json : SerdeJson} {db : Db} {nowMs : Nat}

theorem Db.map_decodedDueRows :
    (db.decodedDueRows json nowMs).map (·.2) = db.readyEvents json nowMs := by
  unfold decodedDueRows readyEvents
  rw [List.map_filterMap]
  congr 1
  funext row
  rw [Option.map_map]
  exact Option.map_id'

theorem Db.mem_decodedDueRows {key : Nat × Uuid} {persisted : PersistedEnvelope} :
    (key, persisted) ∈ db.decodedDueRows json nowMs
      ↔ key.1 ≤ nowMs ∧
        ∃ bytes, db.scheduledEvents[key]? = some bytes ∧ json.fromSlice bytes = some persisted := by
  unfold decodedDueRows
  rw [List.mem_filterMap]
  constructor
  · rintro ⟨⟨key', bytes⟩, hrow, heq⟩
    obtain ⟨persisted', hdecode, hpair⟩ := Option.map_eq_some_iff.mp heq
    cases hpair
    obtain ⟨hget, hdue⟩ := mem_dueRows.mp hrow
    exact ⟨hdue, bytes, hget, hdecode⟩
  · rintro ⟨hdue, bytes, hget, hdecode⟩
    refine ⟨(key, bytes), mem_dueRows.mpr ⟨hget, hdue⟩, ?_⟩
    rw [hdecode]
    rfl

theorem Db.ordered_decodedDueRows :
    (db.decodedDueRows json nowMs).Pairwise fun a b => KeyBefore a.1 b.1 := by
  have hordered : (db.dueRows nowMs).Pairwise fun a b => KeyBefore a.1 b.1 := by
    have htable : db.scheduledEvents.toList.Pairwise fun a b => KeyBefore a.1 b.1 := by
      refine Std.ExtTreeMap.ordered_keys_toList.imp fun {a b} h => ?_
      exact keyBefore_of_compare h
    exact htable.sublist (List.takeWhile_sublist _)
  refine hordered.filterMap _ fun a b hbefore a' ha b' hb => ?_
  obtain ⟨persisted, -, rfl⟩ := Option.map_eq_some_iff.mp ha
  obtain ⟨persisted', -, rfl⟩ := Option.map_eq_some_iff.mp hb
  exact hbefore

/-- The rows a committed poll takes are the due ones. -/
theorem polled_poll : Polled json nowMs db (db.poll nowMs) (db.readyEvents json nowMs) where
  removed := by
    intro key hdue
    rw [Db.getElem?_poll, if_pos hdue]
  untouched := by
    intro key hlater
    rw [Db.getElem?_poll, if_neg (Nat.not_le.mpr hlater)]
  others := ⟨rfl, rfl, rfl, rfl⟩
  yields := ⟨db.decodedDueRows json nowMs, Db.map_decodedDueRows, Db.ordered_decodedDueRows,
    fun _ _ => Db.mem_decodedDueRows⟩

end Decoded

/-! ## The poll of the scheduler -/

namespace PersistentBus

/-- The match on the result of the blocking task. -/
def afterPull (s : PersistentBus) :
    Except String (List PersistedEnvelope) × Db → PersistentBus
  | (.ok events, db) => { s with db := db, scheduler := .firing events }
  -- `error!("Scheduler DB error: \x7b\x7d", e)`
  | (.error _, db) => { s with db := db, scheduler := .sleeping }

variable {json : SerdeJson} {s : PersistentBus} {nowMs : Nat} {env : PollEnv}

/-- The poll of the system is the blocking task and the match on its result. -/
theorem poll_eq_afterPull (hscheduler : s.scheduler = .polling nowMs) :
    s.poll json (decide env.Commits) = some (s.afterPull (pullScheduled json env nowMs s.db)) := by
  unfold poll
  rw [hscheduler]
  by_cases hcommits : env.Commits
  · rw [pullScheduled_of_commits hcommits, decide_eq_true hcommits]
    rfl
  · obtain ⟨e, herror⟩ := pullScheduled_of_not_commits hcommits json nowMs s.db
    rw [herror, decide_eq_false hcommits]
    rfl

/-- **A poll filters the table.**  If its transaction commits, the poll removes exactly the
    due rows and has exactly the decodable ones among them to send; otherwise it removes
    nothing and has nothing to send. -/
theorem poll_filters (json : SerdeJson) (env : PollEnv) (s : PersistentBus) (nowMs : Nat)
    (hscheduler : s.scheduler = .polling nowMs) :
    ∃ s', s.poll json (decide env.Commits) = some s' ∧
      s' = s.afterPull (pullScheduled json env nowMs s.db) ∧
      (env.Commits → ∃ readyEvents db, Polled json nowMs s.db db readyEvents ∧
        s' = { s with db := db, scheduler := .firing readyEvents }) ∧
      (¬ env.Commits → s' = { s with scheduler := .sleeping }) := by
  refine ⟨_, poll_eq_afterPull hscheduler, rfl, ?_, ?_⟩
  · intro hcommits
    refine ⟨s.db.readyEvents json nowMs, s.db.poll nowMs, polled_poll, ?_⟩
    rw [pullScheduled_of_commits hcommits]
    rfl
  · intro hcommits
    obtain ⟨e, herror⟩ := pullScheduled_of_not_commits hcommits json nowMs s.db
    rw [herror]
    rfl

/-- A codec that knows one order. -/
def tickJson : SerdeJson :=
  .ofList [⟨"OrderEvent", { eventId := 7, timestamp := 0, deliverAt := some 1000000 }, .normal, []⟩]

/-- Two rows for the same millisecond, the first corrupted, and a later one. -/
def tickRows : Db :=
  { Db.empty with
    scheduledEvents := (((∅ : Table (Nat × Uuid) Bytes).insert (3, 9) []).insert (1, 7) []).insert
      (1, 6) [1] }

/-- The scheduler polls at the second millisecond. -/
def tickPolls : PersistentBus :=
  { boot tickJson {} tickRows with scheduler := .polling 2 }

theorem poll_filters_tickPolls :
    ∃ s', tickPolls.poll tickJson true = some s' ∧ s'.scheduler = .firing [⟨"OrderEvent",
      { eventId := 7, timestamp := 0, deliverAt := some 1000000 }, .normal, []⟩] := by
  obtain ⟨s', hpoll, hs', -, -⟩ := poll_filters tickJson ⟨none, none, none⟩ tickPolls 2 rfl
  refine ⟨s', hpoll, ?_⟩
  rw [hs']
  rfl

end PersistentBus
end TokioEvents
