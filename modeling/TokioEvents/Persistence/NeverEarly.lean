/-
  TokioEvents.Persistence.NeverEarly

  Whether a scheduled event is handed to handlers before its time.

  The dispatch check of `process_events` compares `deliver_at` with the clock as it
  is.  `scheduler_loop` compares both after they were rounded down to milliseconds,
  and strips `deliver_at` from what it fires, so that the dispatch check lets the
  event through: an event whose time lies later in the millisecond of the poll is
  fired early.  The statement below says that this is the only way, over all runs
  whose clock does not go back.
-/

import TokioEvents.Persistence.AtLeastOnce

namespace TokioEvents

/-! ## The two roundings -/

/-- The key of a row is taken for due at a reading that lies before its time. -/
def DueTooSoon (now deliverAt : DateTime) : Prop :=
  now < deliverAt ∧ timestampMillisU64 deliverAt ≤ timestampMillisU64 now

instance (now deliverAt : DateTime) : Decidable (DueTooSoon now deliverAt) :=
  inferInstanceAs (Decidable (_ ∧ _))

/-- From 1970 on, and as long as milliseconds fit 64 bits, this is the rest of a
    millisecond. -/
theorem dueTooSoon_iff {now deliverAt : Int} (hnow : 0 ≤ now)
    (hdeliver : deliverAt < 2 ^ 64 * 1000000) :
    DueTooSoon now deliverAt ↔ now < deliverAt ∧ deliverAt / 1000000 = now / 1000000 := by
  unfold DueTooSoon timestampMillisU64
  refine and_congr_right fun (hlt : now < deliverAt) => ?_
  have hnowMs : now / 1000000 % 2 ^ 64 = now / 1000000 := Int.emod_eq_of_lt (by omega) (by omega)
  have hdeliverMs : deliverAt / 1000000 % 2 ^ 64 = deliverAt / 1000000 :=
    Int.emod_eq_of_lt (by omega) (by omega)
  rw [hnowMs, hdeliverMs]
  omega

/-- A time of whole milliseconds is never taken for due too soon. -/
theorem not_dueTooSoon_of_whole {now deliverAt : Int} (hnow : 0 ≤ now)
    (hdeliver : deliverAt < 2 ^ 64 * 1000000) (hwhole : deliverAt % 1000000 = 0) :
    ¬ DueTooSoon now deliverAt := by
  rw [dueTooSoon_iff hnow hdeliver]
  omega

/-! ## The timeline of a run -/

/-- What happens when, beside the state of the bus. -/
structure Timeline where
  /-- The metadata of the events that publishers have put into the queue. -/
  published : List EventMetadata
  /-- The last reading of the clock. -/
  clock : DateTime
  /-- The last reading of `scheduler_loop`. -/
  polledAt : DateTime
  /-- The metadata of the events that polls of the scheduler have returned, each with the
      reading of its poll. -/
  fired : List (EventMetadata × DateTime)
  /-- The metadata of the events handed to `SubscriptionManager::dispatch`, each with
      the reading of the check before. -/
  handed : List (EventMetadata × DateTime)

/-- The metadata of a fired event. -/
def EventMetadata.stripped (metadata : EventMetadata) : EventMetadata :=
  { metadata with deliverAt := none }

/-- The clock reading of a step. -/
def Action.reading : Action → Option DateTime
  | .worker (.count now) => some now
  | .worker (.deliver now) => some now
  | .scheduler (.wake now) => some now
  | _ => none

namespace PersistentBus

/-- What a step adds to the timeline. -/
def recordTime (json : SerdeJson) (s : PersistentBus) (a : Action) (s' : PersistentBus)
    (t : Timeline) : Timeline :=
  match a with
  | .publisher (.dispatch envelope) | .publisher (.tryDispatch envelope) =>
    if s.queue.buffer.length < s'.queue.buffer.length then
      { t with published := t.published ++ [envelope.metadata] }
    else t
  | .worker (.count now) => { t with clock := now }
  | .worker (.deliver now) =>
    match s'.worker with
    | .dispatching envelope _ _ =>
      { t with clock := now, handed := t.handed ++ [(envelope.metadata, now)] }
    | _ => { t with clock := now }
  | .scheduler (.wake now) => { t with clock := now, polledAt := now }
  | .scheduler (.poll true) =>
    match s.scheduler with
    | .polling nowMs =>
      { t with fired := t.fired ++
        (s.db.readyEvents json nowMs).map fun persisted => (persisted.metadata, t.polledAt) }
    | _ => t
  | _ => t

/-- The system with its timeline, under a clock that does not go back. -/
def stepTimed (json : SerdeJson) (config : BusConfig) (s : PersistentBus × Timeline)
    (a : Action) : Option (PersistentBus × Timeline) :=
  if ∀ now ∈ a.reading, s.2.clock ≤ now then
    Transition.withHistory (step json config) (recordTime json) s a
  else none

/-- The first process, on a fresh database. -/
def bootTimed (json : SerdeJson) (config : BusConfig) (clock : DateTime) :
    PersistentBus × Timeline :=
  (boot json config Db.empty, ⟨[], clock, clock, [], []⟩)

end PersistentBus

/-- No event is early: what the scheduler fires is due at the reading of its poll, and
    what is handed to handlers is an event of a publisher, stripped or not, whose time
    has come. -/
structure NeverEarly (t : Timeline) : Prop where
  fired : ∀ metadata now, (metadata, now) ∈ t.fired →
    ∀ deliverAt ∈ metadata.deliverAt, deliverAt ≤ now
  handed : ∀ metadata now, (metadata, now) ∈ t.handed →
    ∃ event ∈ t.published, (metadata = event ∨ metadata = event.stripped) ∧
      ∀ deliverAt ∈ event.deliverAt, deliverAt ≤ now

/-- No stored time is taken for due too soon by the poll that a step commits. -/
def PollsInTime (json : SerdeJson) (s : PersistentBus × Timeline) : Action → Prop
  | .scheduler (.poll true) => ∀ row ∈ s.1.db.scheduledEvents.toList,
    ∀ persisted ∈ json.fromSlice row.2, ∀ deliverAt ∈ persisted.metadata.deliverAt,
      ¬ DueTooSoon s.2.polledAt deliverAt
  | _ => True

instance (json : SerdeJson) (s : PersistentBus × Timeline) :
    (a : Action) → Decidable (PollsInTime json s a)
  | .scheduler (.poll true) => inferInstanceAs (Decidable (∀ row ∈ s.1.db.scheduledEvents.toList,
    ∀ persisted ∈ json.fromSlice row.2, ∀ deliverAt ∈ persisted.metadata.deliverAt,
      ¬ DueTooSoon s.2.polledAt deliverAt))
  | .scheduler (.poll false) | .scheduler (.wake _) | .scheduler .fire | .scheduler .send
  | .scheduler (.orphanPoll _ _) => isTrue trivial
  | .publisher _ | .worker _ | .handler _ | .replay _ | .control _ => isTrue trivial

/-! ## Where the copies of an event come from -/

namespace Timeline

variable {t t' : Timeline} {metadata : EventMetadata}

/-- The metadata of an event as published, or as fired. -/
def Known (t : Timeline) (metadata : EventMetadata) : Prop :=
  metadata ∈ t.published ∨ ∃ event now, (event, now) ∈ t.fired ∧ metadata = event.stripped

/-- The later timeline of a run. -/
structure Grows (t t' : Timeline) : Prop where
  published : t.published ⊆ t'.published
  fired : t.fired ⊆ t'.fired
  clock : t.clock ≤ t'.clock

theorem Grows.refl (t : Timeline) : t.Grows t :=
  ⟨List.Subset.refl _, List.Subset.refl _, le_refl _⟩

theorem Known.mono (h : t.Known metadata) (hgrows : t.Grows t') : t'.Known metadata := by
  rcases h with hpublished | ⟨event, now, hfired, rfl⟩
  · exact .inl (hgrows.published hpublished)
  · exact .inr ⟨event, now, hgrows.fired hfired, rfl⟩

end Timeline

/-- Every row of the two tables that replays read back is of metadata with `P`. -/
structure Db.ReadsBack (json : SerdeJson) (db : Db) (P : EventMetadata → Prop) : Prop where
  events : ∀ (id : Uuid) bytes persisted, db.events[id]? = some bytes →
    json.fromSlice bytes = some persisted → P persisted.metadata
  dlq : ∀ (id : Uuid) bytes persisted, db.dlq[id]? = some bytes →
    json.fromSlice bytes = some persisted → P persisted.metadata

/-- Every row of the scheduler's table is of metadata with `P`, under the key of its time. -/
def Db.Keyed (json : SerdeJson) (db : Db) (P : EventMetadata → Prop) : Prop :=
  ∀ (key : Nat × Uuid) bytes persisted, db.scheduledEvents[key]? = some bytes →
    json.fromSlice bytes = some persisted →
    P persisted.metadata ∧
      ∃ deliverAt, persisted.metadata.deliverAt = some deliverAt ∧
        key.1 = timestampMillisU64 deliverAt

namespace Db

variable {json : SerdeJson} {db : Db} {P Q : EventMetadata → Prop}

theorem ReadsBack.mono (h : db.ReadsBack json P) (hP : ∀ metadata, P metadata → Q metadata) :
    db.ReadsBack json Q :=
  ⟨fun id bytes persisted hget hread => hP _ (h.events id bytes persisted hget hread),
    fun id bytes persisted hget hread => hP _ (h.dlq id bytes persisted hget hread)⟩

theorem Keyed.mono (h : db.Keyed json P) (hP : ∀ metadata, P metadata → Q metadata) :
    db.Keyed json Q :=
  fun key bytes persisted hget hread => (h key bytes persisted hget hread).imp_left (hP _)

theorem dlq_insertRow (db : Db) (row : DbInsert) : (db.insertRow row).dlq = db.dlq := by
  unfold insertRow insertEvent insertKey
  cases row.idempotencyKey <;> cases row.isScheduled <;> rfl

theorem ReadsBack.insertRows {rows : List DbInsert} (h : db.ReadsBack json P)
    (hrows : ∀ row ∈ rows, ∀ persisted, json.fromSlice row.bytes = some persisted →
      P persisted.metadata) : (db.insertRows rows).ReadsBack json P := by
  induction rows generalizing db with
  | nil => exact h
  | cons row rows ih =>
    refine ih ⟨fun id bytes persisted hget hread => ?_, ?_⟩
      fun row' hmem => hrows row' (List.mem_cons_of_mem _ hmem)
    · rw [events_insertRow] at hget
      split at hget
      · cases hget
        exact hrows row List.mem_cons_self persisted hread
      · exact h.events id bytes persisted hget hread
    · rw [dlq_insertRow]
      exact h.dlq

theorem Keyed.insertRows {rows : List DbInsert} (h : db.Keyed json P)
    (hrows : ∀ row ∈ rows, row.isScheduled = true → ∀ persisted,
      json.fromSlice row.bytes = some persisted →
      P persisted.metadata ∧
        ∃ deliverAt, persisted.metadata.deliverAt = some deliverAt ∧
          row.deliverAtMs = timestampMillisU64 deliverAt) : (db.insertRows rows).Keyed json P := by
  induction rows generalizing db with
  | nil => exact h
  | cons row rows ih =>
    refine ih (fun key bytes persisted hget hread => ?_)
      fun row' hmem => hrows row' (List.mem_cons_of_mem _ hmem)
    rw [scheduledEvents_insertRow] at hget
    split at hget
    · rename_i hrow
      obtain ⟨hscheduled, rfl⟩ := hrow
      cases hget
      exact hrows row List.mem_cons_self hscheduled persisted hread
    · exact h key bytes persisted hget hread

/-- A failed event goes to the dead letters as it was stored. -/
theorem ReadsBack.ack (h : db.ReadsBack json P) (completion : Completion) :
    (db.ack completion).ReadsBack json P := by
  have hevents : ∀ (id : Uuid) bytes, (db.events.erase completion.1)[id]? = some bytes →
      db.events[id]? = some bytes := by
    intro id bytes hget
    rw [Std.ExtTreeMap.getElem?_erase] at hget
    split at hget
    · cases hget
    · exact hget
  have herased : ∀ id bytes persisted, (db.events.erase completion.1)[id]? = some bytes →
      json.fromSlice bytes = some persisted → P persisted.metadata :=
    fun id bytes persisted hget => h.events id bytes persisted (hevents id bytes hget)
  unfold Db.ack
  dsimp only
  split
  · exact h
  · split
    · cases completion.2 with
      | true => exact ⟨herased, h.dlq⟩
      | false =>
        cases hpayload : db.events[completion.1]? with
        | none => exact ⟨herased, h.dlq⟩
        | some payload =>
          refine ⟨herased, fun id bytes persisted hget hread => ?_⟩
          simp only [Bool.not_false, ↓reduceIte, Std.ExtTreeMap.getElem?_insert] at hget
          split at hget
          · cases hget
            exact h.events _ _ persisted hpayload hread
          · exact h.dlq id bytes persisted hget hread
    · exact ⟨h.events, h.dlq⟩

theorem ReadsBack.poll (h : db.ReadsBack json P) (nowMs : Nat) : (db.poll nowMs).ReadsBack json P :=
  ⟨h.events, h.dlq⟩

theorem Keyed.poll (h : db.Keyed json P) (nowMs : Nat) : (db.poll nowMs).Keyed json P := by
  intro key bytes persisted hget hread
  rw [getElem?_poll] at hget
  split at hget
  · cases hget
  · exact h key bytes persisted hget hread

/-- Removing rows from a table. -/
theorem getElem?_of_foldl_erase {K V α : Type} [Ord K] [Std.TransOrd K] [Std.LawfulEqOrd K]
    {key : α → K} {l : List α} {table : Table K V} {k : K} {v : V}
    (h : (l.foldl (fun t a => t.erase (key a)) table)[k]? = some v) : table[k]? = some v := by
  obtain ⟨hin, hout⟩ := Table.getElem?_foldl_erase key l table k
  by_cases hmem : k ∈ l.map key
  · rw [hin hmem] at h
    cases h
  · rwa [hout hmem] at h

theorem ReadsBack.collectDead (h : db.ReadsBack json P) (dead : List Uuid) :
    (db.collectDead dead).ReadsBack json P :=
  ⟨fun id bytes persisted hget => h.events id bytes persisted (getElem?_of_foldl_erase hget), h.dlq⟩

theorem ReadsBack.removeDlq (h : db.ReadsBack json P)
    (envelopes : List (Uuid × PersistedEnvelope)) : (db.removeDlq envelopes).ReadsBack json P :=
  ⟨h.events, fun id bytes persisted hget => h.dlq id bytes persisted (getElem?_of_foldl_erase hget)⟩

end Db

/-- The events of a poll that the scheduler has not dealt with. -/
def Scheduler.toFire : Scheduler → List PersistedEnvelope
  | .firing events => events
  | .sending _ rest => rest
  | _ => []

/-- Every event a replay call may still send is of metadata with `P`. -/
def Replay.Carries (json : SerdeJson) (P : EventMetadata → Prop) : Replay → Prop
  | .pending rows _ => ∀ row ∈ rows, ∀ persisted, json.fromSlice row.2.1 = some persisted →
    P persisted.metadata
  | .pendingSend envelope rows _ => P envelope.metadata ∧
    ∀ row ∈ rows, ∀ persisted, json.fromSlice row.2.1 = some persisted → P persisted.metadata
  | .dlq envelopes => ∀ persisted ∈ envelopes, P persisted.metadata

theorem Replay.Carries.mono {json : SerdeJson} {P Q : EventMetadata → Prop} {replay : Replay}
    (h : replay.Carries json P) (hP : ∀ metadata, P metadata → Q metadata) :
    replay.Carries json Q := by
  cases replay with
  | pending rows dead => exact fun row hrow persisted hread => hP _ (h row hrow persisted hread)
  | pendingSend envelope rows dead =>
    exact ⟨hP _ h.1, fun row hrow persisted hread => hP _ (h.2 row hrow persisted hread)⟩
  | dlq envelopes => exact fun persisted hmem => hP _ (h persisted hmem)

namespace PersistentBus

variable {json : SerdeJson} {config : BusConfig} {s s' : PersistentBus} {t t' : Timeline}

/-- Every copy of an event is of a published or a fired one, and the scheduler's rows
    are as published. -/
structure OfTimeline (json : SerdeJson) (s : PersistentBus) (t : Timeline) : Prop where
  messages : ∀ msg ∈ s.messages, t.Known msg.envelope.metadata
  sending : ∀ envelope rest, s.scheduler = .sending envelope rest → t.Known envelope.metadata
  toFire : ∀ persisted ∈ s.scheduler.toFire, ∃ now, (persisted.metadata, now) ∈ t.fired
  replays : ∀ replay ∈ s.replays, replay.Carries json t.Known
  reads : s.db.ReadsBack json t.Known
  keyed : s.db.Keyed json (· ∈ t.published)
  fired : ∀ metadata now, (metadata, now) ∈ t.fired → metadata ∈ t.published ∧ now ≤ t.clock
  polling : ∀ nowMs, s.scheduler = .polling nowMs →
    nowMs = timestampMillisU64 t.polledAt ∧ t.polledAt ≤ t.clock

theorem ofTimeline_boot (clock : DateTime) :
    (boot json config Db.empty).OfTimeline json (bootTimed json config clock).2 where
  messages := by simp [boot, PersistentBus.messages, Mpsc.Channel.new, Worker.messages]
  sending := by simp [boot]
  toFire := by simp [boot, Scheduler.toFire]
  replays := by simp [boot]
  reads := ⟨by simp [boot, Db.empty], by simp [boot, Db.empty]⟩
  keyed := by simp [boot, Db.empty, Db.Keyed]
  fired := by simp [bootTimed]
  polling := by simp [boot]

/-- Time passes, and publishers publish. -/
theorem OfTimeline.mono (hI : s.OfTimeline json t) (hgrows : t.Grows t')
    (hfired : t'.fired = t.fired) (hpolled : t'.polledAt = t.polledAt) :
    s.OfTimeline json t' where
  messages msg hmem := (hI.messages msg hmem).mono hgrows
  sending envelope rest hphase := (hI.sending envelope rest hphase).mono hgrows
  toFire := by
    rw [hfired]
    exact hI.toFire
  replays replay hmem := (hI.replays replay hmem).mono fun _ h => h.mono hgrows
  reads := hI.reads.mono fun _ h => h.mono hgrows
  keyed := hI.keyed.mono fun _ h => hgrows.published h
  fired metadata now hmem := by
    rw [hfired] at hmem
    obtain ⟨hpublished, hle⟩ := hI.fired metadata now hmem
    exact ⟨hgrows.published hpublished, hle.trans hgrows.clock⟩
  polling nowMs hphase := by
    obtain ⟨hms, hle⟩ := hI.polling nowMs hphase
    rw [hpolled]
    exact ⟨hms, hle.trans hgrows.clock⟩

/-! ## The steps of each task -/

/-- A row says what its event says, and a scheduled one has a time. -/
theorem event_of_mem_rowsOf {done : List Counted} {row : DbInsert}
    (h : row ∈ rowsOf json done) :
    ∃ counted ∈ done, ∃ event, event = counted.msg.envelope ∧
      (row.isScheduled = true → event.metadata.deliverAt ≠ none) ∧
      row.deliverAtMs = event.deliverAtMs ∧
      ∀ persisted, json.fromSlice row.bytes = some persisted →
        persisted.metadata = event.metadata := by
  obtain ⟨counted, hcounted, hprepare⟩ := List.mem_filterMap.mp h
  obtain ⟨read, hread, hmeta, -⟩ := fromSlice_of_prepare hprepare
  obtain ⟨-, bytes, -, rfl⟩ := prepare_eq_some.mp hprepare
  refine ⟨counted, hcounted, _, rfl, ?_, rfl, ?_⟩
  · intro hscheduled hnone
    simp [EventEnvelope.isScheduled, hnone] at hscheduled
  · intro persisted hpersisted
    rw [hread, Option.some.injEq] at hpersisted
    rw [← hpersisted, hmeta]

theorem OfTimeline.stepWorker {a : WorkerAction} (hI : s.OfTimeline json t)
    (h : s.stepWorker json config a = some s') : s'.OfTimeline json t := by
  have hsame := stepWorker_sameTasks h
  have hknown : ∀ done, s.worker = .counting done [] → ∀ counted ∈ done,
      t.Known counted.msg.envelope.metadata := by
    intro done hphase counted hmem
    refine hI.messages counted.msg ?_
    simp only [PersistentBus.messages, hphase, Worker.messages, List.append_nil, List.mem_append]
    exact .inr (List.mem_map_of_mem hmem)
  refine ⟨fun msg hmem => hI.messages msg (messages_stepWorker h hmem),
    by rw [hsame.scheduler]; exact hI.sending, by rw [hsame.scheduler]; exact hI.toFire,
    by rw [hsame.replays]; exact hI.replays, ?_, ?_, hI.fired,
    by rw [hsame.scheduler]; exact hI.polling⟩
  · rcases stepWorker_rows h with hdb | ⟨faults, done, -, hphase, -, hdb⟩
    · rw [hdb]
      exact hI.reads
    · rw [hdb]
      refine hI.reads.insertRows fun row hmem persisted hread => ?_
      obtain ⟨counted, hcounted, event, rfl, -, -, hmeta⟩ := event_of_mem_rowsOf hmem
      rw [hmeta persisted hread]
      exact hknown done hphase counted hcounted
  · rcases stepWorker_rows h with hdb | ⟨faults, done, -, hphase, -, hdb⟩
    · rw [hdb]
      exact hI.keyed
    · rw [hdb]
      refine hI.keyed.insertRows fun row hmem hscheduled persisted hread => ?_
      obtain ⟨counted, hcounted, event, rfl, htime, hms, hmeta⟩ := event_of_mem_rowsOf hmem
      obtain ⟨deliverAt, hdeliver⟩ := Option.ne_none_iff_exists'.mp (htime hscheduled)
      rw [hmeta persisted hread]
      refine ⟨?_, deliverAt, hdeliver, by simp [hms, EventEnvelope.deliverAtMs, hdeliver]⟩
      rcases hknown done hphase counted hcounted with hpublished | ⟨other, now, -, hstripped⟩
      · exact hpublished
      · -- a fired event is not scheduled again
        rw [hstripped] at hdeliver
        cases hdeliver

/-- A message that is put into the queue. -/
theorem OfTimeline.push (hI : s.OfTimeline json t) (msg : RedbDispatcherMessage)
    (hmsg : t.Known msg.envelope.metadata) :
    { s with queue := s.queue.push msg }.OfTimeline json t :=
  { hI with
    messages := by
      intro other hmem
      simp only [PersistentBus.messages, Mpsc.Channel.push_buffer, List.mem_append,
        List.mem_singleton] at hmem
      rcases hmem with (hold | rfl) | hworker
      · exact hI.messages other (List.mem_append_left _ hold)
      · exact hmsg
      · exact hI.messages other (List.mem_append_right _ hworker) }

/-- A step of the scheduler but the poll, which returns the events that are due. -/
theorem OfTimeline.stepScheduler {a : SchedulerAction} (hI : s.OfTimeline json t)
    (h : s.stepScheduler json a = some s') (hpoll : a ≠ .poll true) (hwake : ∀ now, a ≠ .wake now) :
    s'.OfTimeline json t := by
  cases a with
  | wake now => exact absurd rfl (hwake now)
  | poll commits =>
    cases commits with
    | true => exact absurd rfl hpoll
    | false =>
      simp only [PersistentBus.stepScheduler, poll] at h
      split at h
      · cases h
        exact ⟨hI.messages, by simp, by simp [Scheduler.toFire], hI.replays, hI.reads, hI.keyed,
          hI.fired, by simp⟩
      · cases h
  | fire =>
    simp only [PersistentBus.stepScheduler, fire] at h
    split at h
    · cases h
      exact ⟨hI.messages, by simp, by simp [Scheduler.toFire], hI.replays, hI.reads, hI.keyed,
        hI.fired, by simp⟩
    · rename_i persisted rest hphase
      have hfire := hI.toFire
      rw [hphase] at hfire
      have hrest : ∀ other ∈ rest, ∃ now, (other.metadata, now) ∈ t.fired :=
        fun other hmem => hfire other (List.mem_cons_of_mem _ hmem)
      have hdropped : { s with scheduler := .firing rest }.OfTimeline json t :=
        ⟨hI.messages, by simp, hrest, hI.replays, hI.reads, hI.keyed, hI.fired, by simp⟩
      split at h
      · rename_i typeId htype
        split at h
        · cases h
          obtain ⟨now, hfired⟩ := hfire persisted List.mem_cons_self
          refine ⟨hI.messages, fun envelope rest' heq => ?_, hrest, hI.replays, hI.reads, hI.keyed,
            hI.fired, by simp⟩
          cases heq
          exact .inr ⟨persisted.metadata, now, hfired, rfl⟩
        · cases h
          exact hdropped
      · cases h
        exact hdropped
    · cases h
  | send =>
    simp only [PersistentBus.stepScheduler, schedulerSend] at h
    split at h
    · rename_i envelope rest hphase
      have hfire := hI.toFire
      rw [hphase] at hfire
      have hrest : { s with scheduler := .firing rest }.OfTimeline json t :=
        ⟨hI.messages, by simp, hfire, hI.replays, hI.reads, hI.keyed, hI.fired, by simp⟩
      split at h
      · rename_i queue hsend
        cases h
        obtain ⟨-, rfl⟩ := Mpsc.Channel.trySend_eq_ok.mp hsend
        exact hrest.push _ (hI.sending envelope rest hphase)
      · cases h
        exact hrest
      · cases h
    · cases h
  | orphanPoll index commits =>
    simp only [PersistentBus.stepScheduler, orphanPoll] at h
    split at h
    · rename_i nowMs hpoll
      cases commits with
      | false =>
        cases h
        exact ⟨hI.messages, hI.sending, hI.toFire, hI.replays, hI.reads, hI.keyed, hI.fired,
          hI.polling⟩
      | true =>
        cases h
        exact ⟨hI.messages, hI.sending, hI.toFire, hI.replays, hI.reads.poll nowMs,
          hI.keyed.poll nowMs, hI.fired, hI.polling⟩
    · cases h

/-- A replay call goes on with less, or with what it has found. -/
theorem OfTimeline.setReplay (hI : s.OfTimeline json t) {index : Nat} {replay : Replay}
    (hreplay : replay.Carries json t.Known) :
    { s with replays := s.replays.set index replay }.OfTimeline json t :=
  { hI with
    replays := by
      intro other hmem
      rcases List.mem_or_eq_of_mem_set hmem with hold | rfl
      · exact hI.replays other hold
      · exact hreplay }

theorem OfTimeline.eraseReplay (hI : s.OfTimeline json t) (index : Nat) :
    { s with replays := s.replays.eraseIdx index }.OfTimeline json t :=
  { hI with replays := fun other hmem => hI.replays other (List.mem_of_mem_eraseIdx hmem) }

theorem OfTimeline.appendReplay (hI : s.OfTimeline json t) (replay : Replay)
    (hreplay : replay.Carries json t.Known) :
    { s with replays := s.replays ++ [replay] }.OfTimeline json t :=
  { hI with
    replays := by
      intro other hmem
      rcases List.mem_append.mp hmem with hold | hnew
      · exact hI.replays other hold
      · rw [List.mem_singleton.mp hnew]
        exact hreplay }

/-- A live row is read back as its event. -/
theorem metadata_of_live {registry : RedbRegistry} {bytes : Bytes} {refcount : Option Nat}
    {envelope : EventEnvelope} (h : rowFate json registry bytes refcount = .live envelope) :
    ∃ persisted, json.fromSlice bytes = some persisted ∧
      envelope.metadata = persisted.metadata := by
  unfold rowFate at h
  repeat' split at h
  all_goals cases h
  exact ⟨_, ‹_›, rfl⟩

theorem OfTimeline.stepReplay {a : ReplayAction} (hI : s.OfTimeline json t)
    (h : s.stepReplay json a = some s') : s'.OfTimeline json t := by
  cases a with
  | pending =>
    simp only [PersistentBus.stepReplay, replayPending] at h
    split at h <;> cases h
    refine hI.appendReplay _ fun row hrow persisted hread => ?_
    obtain ⟨⟨id, bytes⟩, hmem, rfl⟩ := List.mem_map.mp hrow
    exact hI.reads.events id bytes persisted
      (Std.ExtTreeMap.mem_toList_iff_getElem?_eq_some.mp hmem) hread
  | visit index =>
    simp only [PersistentBus.stepReplay, replayVisit] at h
    split at h
    · rename_i id bytes refcount rows dead hreplay
      cases h
      have hrows := hI.replays _ (List.mem_of_getElem? hreplay)
      have hrest : ∀ row ∈ rows, ∀ persisted, json.fromSlice row.2.1 = some persisted →
          t.Known persisted.metadata := fun row hrow => hrows row (List.mem_cons_of_mem _ hrow)
      refine hI.setReplay ?_
      cases hfate : rowFate json s.manager.registry bytes refcount with
      | skip => exact hrest
      | dead => exact hrest
      | live envelope =>
        obtain ⟨persisted, hread, hmeta⟩ := metadata_of_live hfate
        refine ⟨?_, hrest⟩
        rw [hmeta]
        exact hrows _ List.mem_cons_self persisted hread
    · cases h
  | send index =>
    simp only [PersistentBus.stepReplay, replaySend] at h
    split at h
    · rename_i envelope rows dead hreplay
      obtain ⟨henvelope, hrows⟩ := hI.replays _ (List.mem_of_getElem? hreplay)
      have hset :
          { s with replays := s.replays.set index (.pending rows dead) }.OfTimeline json t :=
        hI.setReplay hrows
      split at h
      · rename_i queue hsend
        cases h
        obtain ⟨-, rfl⟩ := Mpsc.Channel.trySend_eq_ok.mp hsend
        exact hset.push _ henvelope
      · cases h
        exact hset
      · cases h
    · cases h
  | collect index commits =>
    simp only [PersistentBus.stepReplay, replayCollect] at h
    split at h
    · rename_i dead hreplay
      cases h
      cases commits with
      | false => exact hI.eraseReplay index
      | true =>
        exact { hI.eraseReplay index with reads := hI.reads.collectDead dead, keyed := hI.keyed }
    · cases h
  | fail index =>
    simp only [PersistentBus.stepReplay, replayFail] at h
    split at h <;> cases h
    exact hI.eraseReplay index
  | dlq =>
    simp only [PersistentBus.stepReplay, replayDlq] at h
    split at h
    · cases h
    · cases h
      have happend := hI.appendReplay (.dlq ((s.db.dlqEnvelopes json).map (·.2)))
        fun persisted hmem => by
          obtain ⟨⟨id, found⟩, hfound, rfl⟩ := List.mem_map.mp hmem
          obtain ⟨⟨id', bytes⟩, hrow, hread⟩ := List.mem_filterMap.mp hfound
          obtain ⟨read, hread, heq⟩ := Option.map_eq_some_iff.mp hread
          cases heq
          exact hI.reads.dlq id' bytes found
            (Std.ExtTreeMap.mem_toList_iff_getElem?_eq_some.mp hrow) hread
      exact { happend with reads := hI.reads.removeDlq _, keyed := hI.keyed }
  | dlqSend index =>
    simp only [PersistentBus.stepReplay, replayDlqSend] at h
    split at h
    · cases h
      exact hI.eraseReplay index
    · rename_i persisted rest hreplay
      have henvelopes := hI.replays _ (List.mem_of_getElem? hreplay)
      have hset : { s with replays := s.replays.set index (.dlq rest) }.OfTimeline json t :=
        hI.setReplay fun other hmem => henvelopes other (List.mem_cons_of_mem _ hmem)
      split at h
      · split at h
        · rename_i typeId _ _ queue hsend
          cases h
          obtain ⟨-, rfl⟩ := Mpsc.Channel.trySend_eq_ok.mp hsend
          exact hset.push _ (henvelopes persisted List.mem_cons_self)
        · cases h
          exact hset
      · cases h
        exact hset
    · cases h

theorem OfTimeline.stepHandler {a : HandlerAction} (hI : s.OfTimeline json t)
    (h : s.stepHandler a = some s') : s'.OfTimeline json t := by
  obtain ⟨hqueue, hreplays, hscheduler⟩ := stepHandler_sameInputs h
  obtain ⟨hdb, hworker, -, -⟩ := stepHandler_frame h
  refine ⟨?_, by rw [hscheduler]; exact hI.sending, by rw [hscheduler]; exact hI.toFire,
    by rw [hreplays]; exact hI.replays, ?_, ?_, hI.fired, by rw [hscheduler]; exact hI.polling⟩
  · rw [PersistentBus.messages, hqueue, hworker]
    exact hI.messages
  · rcases hdb with hdb | ⟨completion, -, hdb⟩
    · rw [hdb]
      exact hI.reads
    · rw [hdb]
      exact hI.reads.ack completion
  · rcases hdb with hdb | ⟨completion, -, hdb⟩
    · rw [hdb]
      exact hI.keyed
    · rw [hdb, Db.Keyed, Db.scheduledEvents_ack]
      exact hI.keyed

theorem OfTimeline.stepControl {a : ControlAction} (hI : s.OfTimeline json t)
    (h : s.stepControl json config a = some s') : s'.OfTimeline json t := by
  by_cases hcrash : a = .crash
  · subst hcrash
    cases h
    -- only the database survives
    exact ⟨by simp [crash, boot, PersistentBus.messages, Mpsc.Channel.new, Worker.messages],
      by simp [crash, boot], by simp [crash, boot, Scheduler.toFire], by simp [crash, boot],
      hI.reads, hI.keyed, hI.fired, by simp [crash, boot]⟩
  · have hsame := stepControl_sameWork h hcrash
    refine ⟨fun msg hmem => ?_, ?_, ?_, by rw [hsame.replays]; exact hI.replays,
      by rw [hsame.db]; exact hI.reads, by rw [hsame.db]; exact hI.keyed, hI.fired, ?_⟩
    · rw [PersistentBus.messages, hsame.queue] at hmem
      rcases hsame.worker with heq | ⟨-, heq⟩
      · rw [heq] at hmem
        exact hI.messages msg hmem
      · rw [heq] at hmem
        exact hI.messages msg (List.mem_append_left _ (by simpa [Worker.messages] using hmem))
    · rcases hsame.scheduler with heq | heq | heq
      · rw [heq]
        exact hI.sending
      · simp [heq]
      · simp [heq]
    · rcases hsame.scheduler with heq | heq | heq
      · rw [heq]
        exact hI.toFire
      · simp [heq, Scheduler.toFire]
      · simp [heq, Scheduler.toFire]
    · rcases hsame.scheduler with heq | heq | heq
      · rw [heq]
        exact hI.polling
      · simp [heq]
      · simp [heq]

/-! ## Runs -/

theorem stepTimed_eq_some {s s' : PersistentBus × Timeline} {a : Action} :
    stepTimed json config s a = some s'
      ↔ (∀ now ∈ a.reading, s.2.clock ≤ now) ∧ step json config s.1 a = some s'.1 ∧
        s'.2 = recordTime json s.1 a s'.1 s.2 := by
  unfold stepTimed
  split
  · rename_i hclock
    rw [Transition.withHistory_eq_some]
    exact (and_iff_right hclock).symm
  · rename_i hclock
    exact iff_of_false (by simp) fun h => hclock h.1

/-- What a publisher puts into the queue is published. -/
theorem OfTimeline.stepPublisher {a : PublisherAction} (hI : s.OfTimeline json t)
    (h : s.stepPublisher config a = some s') :
    s'.OfTimeline json (recordTime json s (.publisher a) s' t) ∧
      t.Grows (recordTime json s (.publisher a) s' t) ∧
      (recordTime json s (.publisher a) s' t).fired = t.fired ∧
      (recordTime json s (.publisher a) s' t).handed = t.handed := by
  obtain ⟨hreplays, hscheduler, hqueue⟩ := stepPublisher_queue h
  obtain ⟨hdb, hsame⟩ := stepPublisher_frame h
  rcases hqueue with hqueue | ⟨envelope, ackTx, ha, hqueue⟩
  · -- nothing is put into the queue
    have hrecord : recordTime json s (.publisher a) s' t = t := by
      cases a <;> simp [recordTime, hqueue]
    rw [hrecord]
    refine ⟨⟨?_, by rw [hscheduler]; exact hI.sending, by rw [hscheduler]; exact hI.toFire,
      by rw [hreplays]; exact hI.replays, by rw [hdb]; exact hI.reads, by rw [hdb]; exact hI.keyed,
      hI.fired, by rw [hscheduler]; exact hI.polling⟩, .refl t, rfl, rfl⟩
    rw [PersistentBus.messages, hqueue, hsame.worker]
    exact hI.messages
  · have hrecord : recordTime json s (.publisher a) s' t
        = { t with published := t.published ++ [envelope.metadata] } := by
      rcases ha with rfl | rfl <;> simp [recordTime, hqueue]
    have hgrows : t.Grows { t with published := t.published ++ [envelope.metadata] } :=
      ⟨List.subset_append_left _ _, List.Subset.refl _, le_refl _⟩
    rw [hrecord]
    have hpush := (hI.mono hgrows rfl rfl).push ⟨envelope, ackTx⟩ (.inl (by simp))
    refine ⟨⟨?_, by rw [hscheduler]; exact hpush.sending, by rw [hscheduler]; exact hpush.toFire,
      by rw [hreplays]; exact hpush.replays, by rw [hdb]; exact hpush.reads,
      by rw [hdb]; exact hpush.keyed, hpush.fired, by rw [hscheduler]; exact hpush.polling⟩,
      hgrows, rfl, rfl⟩
    rw [PersistentBus.messages, hqueue, hsame.worker]
    exact hpush.messages

/-- The scheduler wakes up and reads the clock. -/
theorem OfTimeline.stepWake {now : DateTime} (hI : s.OfTimeline json t) (hclock : t.clock ≤ now)
    (h : s.wake now = some s') : s'.OfTimeline json { t with clock := now, polledAt := now } := by
  have hgrows : t.Grows { t with clock := now, polledAt := now } :=
    ⟨List.Subset.refl _, List.Subset.refl _, hclock⟩
  have hlater : ∀ scheduler : Scheduler, scheduler.toFire = [] →
      (∀ envelope rest, scheduler ≠ .sending envelope rest) →
      (∀ nowMs, scheduler = .polling nowMs → nowMs = timestampMillisU64 now) →
      { s with scheduler := scheduler }.OfTimeline json
        { t with clock := now, polledAt := now } := by
    intro scheduler hfire hsending hpolling
    refine ⟨fun msg hmem => (hI.messages msg hmem).mono hgrows,
      fun envelope rest heq => absurd heq (hsending envelope rest), by simp [hfire],
      fun replay hmem => (hI.replays replay hmem).mono fun _ h => h.mono hgrows,
      hI.reads.mono fun _ h => h.mono hgrows, hI.keyed, fun metadata reading hmem => ?_,
      fun nowMs heq => ⟨hpolling nowMs heq, le_refl _⟩⟩
    obtain ⟨hpublished, hle⟩ := hI.fired metadata reading hmem
    exact ⟨hpublished, hle.trans hclock⟩
  unfold wake at h
  split at h
  · split at h
    · cases h
      refine hlater _ rfl (by simp) fun nowMs heq => ?_
      cases heq
      rfl
    · cases h
      exact hlater _ rfl (by simp) (by simp)
  · cases h

/-- A committed poll returns rows as their events were published. -/
theorem OfTimeline.stepPoll {nowMs : Nat} (hI : s.OfTimeline json t)
    (hphase : s.scheduler = .polling nowMs) (h : s.poll json true = some s') :
    s'.OfTimeline json (recordTime json s (.scheduler (.poll true)) s' t) := by
  unfold poll at h
  rw [hphase] at h
  cases h
  simp only [recordTime, hphase]
  have hready : ∀ persisted ∈ s.db.readyEvents json nowMs, persisted.metadata ∈ t.published := by
    intro persisted hmem
    obtain ⟨row, hdue, hread⟩ := List.mem_filterMap.mp hmem
    exact (hI.keyed row.1 row.2 persisted (Db.mem_dueRows.mp hdue).1 hread).1
  have hgrows : t.Grows { t with fired := t.fired ++
      (s.db.readyEvents json nowMs).map fun persisted => (persisted.metadata, t.polledAt) } :=
    ⟨List.Subset.refl _, List.subset_append_left _ _, le_refl _⟩
  refine ⟨fun msg hmem => (hI.messages msg hmem).mono hgrows, by simp, ?_,
    fun replay hmem => (hI.replays replay hmem).mono fun _ h => h.mono hgrows,
    (hI.reads.poll nowMs).mono fun _ h => h.mono hgrows, hI.keyed.poll nowMs, ?_, by simp⟩
  · intro persisted hmem
    exact ⟨t.polledAt, List.mem_append_right _ (List.mem_map_of_mem hmem)⟩
  · intro metadata now hmem
    rcases List.mem_append.mp hmem with hold | hnew
    · exact hI.fired metadata now hold
    · obtain ⟨persisted, hpersisted, heq⟩ := List.mem_map.mp hnew
      cases heq
      exact ⟨hready persisted hpersisted, (hI.polling nowMs hphase).2⟩

/-- **One step** keeps every copy within the timeline. -/
theorem OfTimeline.step {s s' : PersistentBus × Timeline} {a : Action}
    (hI : s.1.OfTimeline json s.2) (h : stepTimed json config s a = some s') :
    s'.1.OfTimeline json s'.2 := by
  obtain ⟨hclock, hstep, hrecord⟩ := stepTimed_eq_some.mp h
  rw [hrecord]
  cases a with
  | publisher a => exact (hI.stepPublisher hstep).1
  | worker a =>
    have hworker := hI.stepWorker hstep
    cases a with
    | count now =>
      exact hworker.mono ⟨List.Subset.refl _, List.Subset.refl _, hclock now rfl⟩ rfl rfl
    | deliver now =>
      simp only [recordTime]
      split
      · exact hworker.mono ⟨List.Subset.refl _, List.Subset.refl _, hclock now rfl⟩ rfl rfl
      · exact hworker.mono ⟨List.Subset.refl _, List.Subset.refl _, hclock now rfl⟩ rfl rfl
    | recv => exact hworker
    | tryRecv => exact hworker
    | check reads => exact hworker
    | write faults => exact hworker
    | push id => exact hworker
    | dispatched => exact hworker
    | panic => exact hworker
  | scheduler a =>
    cases a with
    | wake now => exact hI.stepWake (hclock now rfl) hstep
    | poll commits =>
      cases commits with
      | false => exact hI.stepScheduler (a := .poll false) hstep (by simp) (by simp)
      | true =>
        cases hphase : s.1.scheduler with
        | polling nowMs => exact hI.stepPoll hphase hstep
        | _ => simp [PersistentBus.step, PersistentBus.stepScheduler, poll, hphase] at hstep
    | fire => exact hI.stepScheduler (a := .fire) hstep (by simp) (by simp)
    | send => exact hI.stepScheduler (a := .send) hstep (by simp) (by simp)
    | orphanPoll index commits =>
      exact hI.stepScheduler (a := .orphanPoll index commits) hstep (by simp) (by simp)
  | handler a => exact hI.stepHandler hstep
  | replay a => exact hI.stepReplay hstep
  | control a => exact hI.stepControl hstep

/-- Publishing more events makes none early. -/
theorem neverEarly_mono (h : NeverEarly t) (hpublished : t.published ⊆ t'.published)
    (hfired : t'.fired = t.fired) (hhanded : t'.handed = t.handed) : NeverEarly t' where
  fired := by
    rw [hfired]
    exact h.fired
  handed metadata now hmem := by
    rw [hhanded] at hmem
    obtain ⟨event, hevent, hcopy, hle⟩ := h.handed metadata now hmem
    exact ⟨event, hpublished hevent, hcopy, hle⟩

/-- **The dispatch check** lets no event through before its time, if the scheduler has
    fired none too soon. -/
theorem OfTimeline.deliver {now : DateTime} (hI : s.OfTimeline json t) (hP : NeverEarly t)
    (hclock : t.clock ≤ now) (h : s.deliver now = some s') :
    NeverEarly (recordTime json s (.worker (.deliver now)) s' t) := by
  obtain ⟨hphase, rfl⟩ | ⟨msg, rest, hphase, ⟨-, rfl⟩ | ⟨hdue, rfl⟩⟩ := deliver_cases h
  · exact neverEarly_mono hP (List.Subset.refl _) rfl rfl
  · exact neverEarly_mono hP (List.Subset.refl _) rfl rfl
  · refine ⟨hP.fired, fun metadata reading hmem => ?_⟩
    rcases List.mem_append.mp hmem with hold | hnew
    · exact hP.handed metadata reading hold
    · cases List.mem_singleton.mp hnew
      have hknown : t.Known msg.envelope.metadata := by
        refine hI.messages msg (List.mem_append_right _ ?_)
        simp [hphase, Worker.messages]
      rcases hknown with hpublished | ⟨event, reading, hfired, hstripped⟩
      · refine ⟨_, hpublished, .inl rfl, fun deliverAt hdeliver => ?_⟩
        rw [Option.mem_def] at hdeliver
        simpa [EventEnvelope.isScheduled, hdeliver] using hdue
      · obtain ⟨hpublished, hle⟩ := hI.fired event reading hfired
        refine ⟨event, hpublished, .inr hstripped, fun deliverAt hdeliver => ?_⟩
        exact ((hP.fired event reading hfired deliverAt hdeliver).trans hle).trans hclock

/-- **The poll** fires no event too soon exactly when no stored time is taken for due too
    soon. -/
theorem OfTimeline.poll_iff {s s' : PersistentBus × Timeline} {nowMs : Nat}
    (hI : s.1.OfTimeline json s.2) (hP : NeverEarly s.2) (hphase : s.1.scheduler = .polling nowMs)
    (hrecord : s'.2 = recordTime json s.1 (.scheduler (.poll true)) s'.1 s.2) :
    NeverEarly s'.2 ↔ PollsInTime json s (.scheduler (.poll true)) := by
  obtain ⟨hms, -⟩ := hI.polling nowMs hphase
  simp only [recordTime, hphase] at hrecord
  rw [hrecord]
  constructor
  · rintro hP' ⟨key, bytes⟩ hmem persisted hread deliverAt hdeliver ⟨hlt, hle⟩
    have hrow := Std.ExtTreeMap.mem_toList_iff_getElem?_eq_some.mp hmem
    obtain ⟨-, deliverAt', hdeliver', hkey⟩ := hI.keyed key bytes persisted hrow hread
    rw [Option.mem_def, hdeliver', Option.some.injEq] at hdeliver
    subst hdeliver
    have hready : persisted ∈ s.1.db.readyEvents json nowMs := by
      refine List.mem_filterMap.mpr ⟨(key, bytes), Db.mem_dueRows.mpr ⟨hrow, ?_⟩, hread⟩
      rw [hms, hkey]
      exact hle
    refine absurd (hP'.fired persisted.metadata s.2.polledAt ?_ deliverAt' hdeliver')
      (not_le.mpr hlt)
    exact List.mem_append_right _ (List.mem_map_of_mem hready)
  · intro hC
    refine ⟨fun metadata now hmem deliverAt hdeliver => ?_, hP.handed⟩
    rcases List.mem_append.mp hmem with hold | hnew
    · exact hP.fired metadata now hold deliverAt hdeliver
    · obtain ⟨persisted, hready, heq⟩ := List.mem_map.mp hnew
      cases heq
      obtain ⟨⟨key, bytes⟩, hdue, hread⟩ := List.mem_filterMap.mp hready
      obtain ⟨hrow, hle⟩ := Db.mem_dueRows.mp hdue
      obtain ⟨-, deliverAt', hdeliver', hkey⟩ := hI.keyed key bytes persisted hrow hread
      rw [Option.mem_def, hdeliver', Option.some.injEq] at hdeliver
      subst hdeliver
      refine not_lt.mp fun hlt => hC (key, bytes)
        (Std.ExtTreeMap.mem_toList_iff_getElem?_eq_some.mpr hrow) persisted hread deliverAt'
        hdeliver' ⟨hlt, ?_⟩
      rw [← hkey, ← hms]
      exact hle

/-- **One step** keeps every event from being early exactly when it polls in time. -/
theorem neverEarly_step_iff {s s' : PersistentBus × Timeline} {a : Action}
    (hI : s.1.OfTimeline json s.2) (hP : NeverEarly s.2)
    (h : stepTimed json config s a = some s') : NeverEarly s'.2 ↔ PollsInTime json s a := by
  obtain ⟨hclock, hstep, hrecord⟩ := stepTimed_eq_some.mp h
  cases a with
  | scheduler a =>
    cases a with
    | poll commits =>
      cases commits with
      | true =>
        cases hphase : s.1.scheduler with
        | polling nowMs => exact hI.poll_iff hP hphase hrecord
        | _ => simp [PersistentBus.step, PersistentBus.stepScheduler, poll, hphase] at hstep
      | false => exact iff_of_true (hrecord ▸ hP) trivial
    | _ =>
      rw [hrecord]
      exact iff_of_true (neverEarly_mono hP (List.Subset.refl _) rfl rfl) trivial
  | publisher a =>
    obtain ⟨-, hgrows, hfired, hhanded⟩ := hI.stepPublisher hstep
    rw [hrecord]
    exact iff_of_true (neverEarly_mono hP hgrows.published hfired hhanded) trivial
  | worker a =>
    rw [hrecord]
    refine iff_of_true ?_ trivial
    cases a with
    | deliver now => exact hI.deliver hP (hclock now rfl) hstep
    | _ => exact neverEarly_mono hP (List.Subset.refl _) rfl rfl
  | handler a => exact iff_of_true (hrecord ▸ hP) trivial
  | replay a => exact iff_of_true (hrecord ▸ hP) trivial
  | control a => exact iff_of_true (hrecord ▸ hP) trivial

/-- **When no scheduled event is early.** Under a clock that does not go back, no event
    is early in any state a run visits if and only if no poll of the run takes a stored
    time for due too soon. -/
theorem throughout_neverEarly_iff {clock : DateTime} {as : List Action}
    {s' : PersistentBus × Timeline}
    (hexec : Transition.exec (stepTimed json config) (bootTimed json config clock) as = some s') :
    Transition.Throughout (stepTimed json config) (fun s => NeverEarly s.2)
        (bootTimed json config clock) as
      ↔ Transition.Along (stepTimed json config) (PollsInTime json) (bootTimed json config clock)
        as :=
  Transition.throughout_iff_along
    (I := fun s : PersistentBus × Timeline => s.1.OfTimeline json s.2)
    (fun _ _ _ hI h => hI.step h) (fun _ _ _ hI hP h => neverEarly_step_iff hI hP h)
    (ofTimeline_boot clock) ⟨by simp [bootTimed], by simp [bootTimed]⟩ hexec

/-! ## An order between two milliseconds -/

/-- An order for a millisecond and a half after the epoch. -/
def halfPast : EventEnvelope :=
  .fromSerialized 1 "OrderEvent" { eventId := 7, timestamp := 0, deliverAt := some 1500000 }
    .normal []

/-- The codec that knows the order, with its time and without. -/
def halfPastJson : SerdeJson :=
  .ofList [⟨"OrderEvent", halfPast.metadata, .normal, []⟩,
    ⟨"OrderEvent", halfPast.metadata.stripped, .normal, []⟩]

/-- The order is stored at the epoch; a poll at `wake` finds it, and it is dispatched at
    `deliver`. -/
def scheduledHalfPast (wake deliver : DateTime) : List Action :=
  crowdArrives 1 ++
    [.publisher (.dispatch halfPast), .worker .recv, .worker (.check fun _ => true),
      .worker (.count 0), .worker (.write noFaults), .worker (.deliver 0), .worker (.deliver 0),
      .scheduler (.wake wake), .scheduler (.poll true), .scheduler .fire, .scheduler .send,
      .worker .recv, .worker (.check fun _ => true), .worker (.count wake),
      .worker (.write noFaults), .worker (.deliver deliver)]

/-- A poll at the beginning of the second millisecond hands the order to its handler three
    tenths of a millisecond too early. -/
theorem not_neverEarly_halfPast :
    ∃ s', Transition.exec (stepTimed halfPastJson {}) (bootTimed halfPastJson {} 0)
        (scheduledHalfPast 1000000 1200000) = some s' ∧
      s'.2.published = [halfPast.metadata] ∧
      s'.2.handed = [(halfPast.metadata.stripped, 1200000)] ∧
      ¬ Transition.Throughout (stepTimed halfPastJson {}) (fun s => NeverEarly s.2)
        (bootTimed halfPastJson {} 0) (scheduledHalfPast 1000000 1200000) := by
  obtain ⟨s', hs'⟩ := Option.isSome_iff_exists.mp
    (by decide +kernel : (Transition.exec (stepTimed halfPastJson {}) (bootTimed halfPastJson {} 0)
      (scheduledHalfPast 1000000 1200000)).isSome = true)
  have hend : (Transition.exec (stepTimed halfPastJson {}) (bootTimed halfPastJson {} 0)
      (scheduledHalfPast 1000000 1200000)).map (fun s => (s.2.published, s.2.handed))
      = some ([halfPast.metadata], [(halfPast.metadata.stripped, 1200000)]) := by decide +kernel
  rw [hs'] at hend
  simp only [Option.map_some, Option.some.injEq, Prod.mk.injEq] at hend
  obtain ⟨hpublished, hhanded⟩ := hend
  refine ⟨s', hs', hpublished, hhanded, fun h => ?_⟩
  obtain ⟨event, hevent, -, hle⟩ := (h.last hs').handed halfPast.metadata.stripped 1200000
    (by rw [hhanded]; exact List.mem_cons_self)
  rw [hpublished, List.mem_singleton] at hevent
  subst hevent
  exact absurd (hle 1500000 rfl) (by decide)

/-- A poll at the end of the second millisecond fires it in time. -/
theorem neverEarly_halfPast :
    ∃ s', Transition.exec (stepTimed halfPastJson {}) (bootTimed halfPastJson {} 0)
        (scheduledHalfPast 1999999 2000000) = some s' ∧
      s'.2.handed = [(halfPast.metadata.stripped, 2000000)] ∧
      Transition.Throughout (stepTimed halfPastJson {}) (fun s => NeverEarly s.2)
        (bootTimed halfPastJson {} 0) (scheduledHalfPast 1999999 2000000) := by
  obtain ⟨s', hs'⟩ := Option.isSome_iff_exists.mp
    (by decide +kernel : (Transition.exec (stepTimed halfPastJson {}) (bootTimed halfPastJson {} 0)
      (scheduledHalfPast 1999999 2000000)).isSome = true)
  have hend : (Transition.exec (stepTimed halfPastJson {}) (bootTimed halfPastJson {} 0)
      (scheduledHalfPast 1999999 2000000)).map (fun s => s.2.handed)
      = some [(halfPast.metadata.stripped, 2000000)] := by decide +kernel
  rw [hs'] at hend
  refine ⟨s', hs', Option.some.inj hend, (throughout_neverEarly_iff hs').mpr ?_⟩
  exact of_decide_eq_true (by decide +kernel)

end PersistentBus
end TokioEvents
