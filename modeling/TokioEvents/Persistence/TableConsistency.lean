/-
  TokioEvents.Persistence.TableConsistency

  `EVENTS_TABLE` and `REFCOUNT_TABLE` hold rows for the same events, and no stored
  refcount is zero, whatever the tasks of a persistent bus do to them: the worker inserts
  both rows of an event at once, the ack worker counts down a refcount that is not the
  last and removes both rows at the last, and the garbage collection of `replay_pending`
  removes both, also those of an event that was inserted again after it was found dead.

  A row of `EVENTS_TABLE` without a refcount would stay for good: `replay_pending` passes
  it over.
-/

import TokioEvents.Persistence.Bus.Crowd
import TokioEvents.Persistence.Rows

namespace TokioEvents
namespace PersistentBus

variable {json : SerdeJson} {config : BusConfig} {s s' : PersistentBus}

/-! ## One step -/

/-- The rows that a collection leaves were there. -/
theorem rows_collectDead (db : Db) (dead : List Uuid) (e : Uuid) :
    ((db.collectDead dead).events[e]? = none ∧ (db.collectDead dead).refcount[e]? = none) ∨
    ((db.collectDead dead).events[e]? = db.events[e]? ∧
      (db.collectDead dead).refcount[e]? = db.refcount[e]?) := by
  have hevents := Table.getElem?_foldl_erase id dead db.events e
  have hrefcount := Table.getElem?_foldl_erase id dead db.refcount e
  rw [List.map_id] at hevents hrefcount
  by_cases he : e ∈ dead
  · exact .inl ⟨hevents.1 he, hrefcount.1 he⟩
  · exact .inr ⟨hevents.2 he, hrefcount.2 he⟩

/-- **One step of a replay call** keeps the rows of an event, or removes both. -/
theorem rows_stepReplay {a : ReplayAction} (h : s.stepReplay json a = some s') (e : Uuid) :
    (s'.db.events[e]? = none ∧ s'.db.refcount[e]? = none) ∨
    (s'.db.events[e]? = s.db.events[e]? ∧ s'.db.refcount[e]? = s.db.refcount[e]?) := by
  obtain ⟨⟨envelopes, hdb⟩, -⟩ := stepReplay_frame h
  rw [hdb]
  cases s.collected a with
  | none => exact .inr ⟨rfl, rfl⟩
  | some dead => exact rows_collectDead s.db dead e

/-- The rows of a batch have positive counts. -/
theorem subCount_pos_of_mem_rowsOf {done : List Counted} {row : DbInsert}
    (h : row ∈ rowsOf json done) : 0 < row.subCount := by
  obtain ⟨counted, -, hprepare⟩ := List.mem_filterMap.mp h
  obtain ⟨hpos, bytes, -, rfl⟩ := prepare_eq_some.mp hprepare
  exact hpos

/-- **One step** keeps the database consistent. -/
theorem consistent_step {a : Action} (hdb : s.db.Consistent)
    (h : step json config s a = some s') : s'.db.Consistent := by
  have hsame : s'.db.events = s.db.events ∧ s'.db.refcount = s.db.refcount → s'.db.Consistent := by
    rintro ⟨hevents, hrefcount⟩
    exact ⟨by rw [hevents, hrefcount]; exact hdb.paired, by rw [hrefcount]; exact hdb.positive⟩
  by_cases hworker : ∃ b, a = .worker b
  · obtain ⟨b, rfl⟩ := hworker
    rcases stepWorker_rows h with heq | ⟨faults, done, -, -, -, heq⟩
    · rw [heq]
      exact hdb
    · rw [heq]
      exact hdb.insertRows fun row => subCount_pos_of_mem_rowsOf
  by_cases hreplay : ∃ b, a = .replay b
  · obtain ⟨b, rfl⟩ := hreplay
    have hrows := rows_stepReplay h
    refine ⟨fun e => ?_, fun e refcount hget => ?_⟩
    · rcases hrows e with ⟨hevents, hrefcount⟩ | ⟨hevents, hrefcount⟩
      · rw [hevents, hrefcount]
        rfl
      · rw [hevents, hrefcount]
        exact hdb.paired e
    · rcases hrows e with ⟨-, hrefcount⟩ | ⟨-, hrefcount⟩
      · rw [hrefcount] at hget
        cases hget
      · exact hdb.positive e refcount (hrefcount ▸ hget)
  by_cases hack : ∃ commits, a = .handler (.ack commits)
  · obtain ⟨commits, rfl⟩ := hack
    obtain ⟨completion, rest, -, rfl⟩ := ack_step_cases h
    cases commits with
    | false => exact hdb
    | true => exact hdb.ack completion
  · exact hsame (rows_of_not_worker h (fun b hb => hworker ⟨b, hb⟩)
      (fun commits ha => hack ⟨commits, ha⟩) fun b hb => hreplay ⟨b, hb⟩)

/-- **A run** keeps the database consistent. -/
theorem consistent_exec {as : List Action} (hdb : s.db.Consistent)
    (h : exec json config s as = some s') : s'.db.Consistent :=
  Transition.invariant (I := fun s => s.db.Consistent) (fun _ _ _ hI => consistent_step hI) hdb h

/-! ## Restarts -/

/-- One process after the other opens the database, each with settings of its own; each
    runs for a while and dies, which leaves what has been committed. -/
def sessions (json : SerdeJson) (db : Db) : List (BusConfig × List Action) → Option Db
  | [] => some db
  | (config, as) :: rest =>
    (exec json config (boot json config db) as).bind fun s => sessions json s.db rest

theorem consistent_sessions {db db' : Db} {runs : List (BusConfig × List Action)}
    (hdb : db.Consistent) (h : sessions json db runs = some db') : db'.Consistent := by
  induction runs generalizing db with
  | nil =>
    cases h
    exact hdb
  | cons run rest ih =>
    obtain ⟨s, hexec, hrest⟩ := Option.bind_eq_some_iff.mp h
    -- a process starts on the database as it finds it
    have hboot : (boot json run.1 db).db.Consistent := hdb
    exact ih (consistent_exec hboot hexec) hrest

/-- **The tables agree.** In every database that processes have left behind, one after the
    other and each in the middle of any run, of which the first opened an empty database,
    `EVENTS_TABLE` and `REFCOUNT_TABLE` have the same ids, and no refcount is zero. -/
theorem tables_agree {db : Db} {runs : List (BusConfig × List Action)}
    (h : sessions json .empty runs = some db) :
    (∀ e : Uuid, e ∈ db.events ↔ e ∈ db.refcount) ∧
      ∀ (e : Uuid) refcount, db.refcount[e]? = some refcount → 1 ≤ refcount := by
  have hdb : db.Consistent := consistent_sessions Db.consistent_empty h
  refine ⟨fun e => ?_, hdb.positive⟩
  rw [← Std.ExtTreeMap.isSome_getElem?_iff_mem, ← Std.ExtTreeMap.isSome_getElem?_iff_mem,
    hdb.paired e]

/-- An order is published to two subscriptions, and one of them gives it up; in the next
    process it is replayed to one, and published again before that one is done with it. -/
def orderReplayed : List (BusConfig × List Action) :=
  [({}, crowdArrives 2 ++ (oneMessage order 0 ++ [.handler (.ack true)])),
    ({ waitForPersistence := true, processingTimeoutMs := 0 },
      crowdArrives 1 ++
        [.replay .pending, .replay (.visit 0), .replay (.send 0), .replay (.collect 0 true),
          .worker .recv, .worker (.check fun _ => true), .worker (.count 0),
          .worker (.write noFaults), .worker (.deliver 0), .worker (.push 0),
          .handler (.take 0), .handler (.complete 0 true), .worker .dispatched,
          .worker (.deliver 0), .publisher (.dispatch order), .worker .recv,
          .worker (.check fun _ => true), .worker (.count 0), .handler (.ack true),
          .worker (.write noFaults)])]

theorem tables_agree_orderReplayed :
    ∃ db, sessions orderJson .empty orderReplayed = some db ∧ db.refcount[(7 : Uuid)]? = some 1 ∧
      (∀ e : Uuid, e ∈ db.events ↔ e ∈ db.refcount) ∧
      ∀ (e : Uuid) refcount, db.refcount[e]? = some refcount → 1 ≤ refcount := by
  obtain ⟨db, hdb⟩ : ∃ db, sessions orderJson .empty orderReplayed = some db :=
    Option.isSome_iff_exists.mp (by decide +kernel)
  have hrefcount : (sessions orderJson .empty orderReplayed).map (·.refcount[(7 : Uuid)]?)
      = some (some 1) := by
    decide +kernel
  rw [hdb] at hrefcount
  exact ⟨db, hdb, Option.some.inj hrefcount, tables_agree hdb⟩

end PersistentBus
end TokioEvents
