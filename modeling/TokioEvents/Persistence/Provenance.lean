/-
  TokioEvents.Persistence.Provenance

  Where the events on a persistent bus come from, over crashes and restarts.  Every row of
  the tables of events decodes, lies under the id of its own event, and holds what some
  publisher brought: its payload, type, priority and metadata, but for the `deliver_at` that
  the scheduler strips.  A handler gets an event as it was published, or as it was read back
  from such a row.
-/

import TokioEvents.Persistence.AtMostOnce
import TokioEvents.Persistence.NeverEarly
import TokioEvents.Persistence.TableConsistency

namespace TokioEvents

/-! ## Stored forms -/

/-- The `PersistedEnvelope` of an event. -/
def EventEnvelope.persisted (e : EventEnvelope) : Except Error PersistedEnvelope := do
  let payload ← e.intoBytes
  pure ⟨e.eventType, e.metadata, e.priority, payload⟩

/-- A stored event without its time. -/
def PersistedEnvelope.undated (p : PersistedEnvelope) : PersistedEnvelope :=
  { p with metadata := { p.metadata with deliverAt := none } }

/-- The bytes of a row are those of the stored form. -/
theorem persisted_of_persistedBytes {json : SerdeJson} {e : EventEnvelope} {bytes : Bytes}
    (h : e.persistedBytes json = .ok bytes) :
    ∃ p, e.persisted = .ok p ∧ p.metadata = e.metadata ∧ json.fromSlice bytes = some p := by
  unfold EventEnvelope.persistedBytes at h
  unfold EventEnvelope.persisted
  cases hpayload : e.intoBytes with
  | error err =>
    rw [hpayload] at h
    cases h
  | ok payload =>
    rw [hpayload] at h
    exact ⟨_, rfl, rfl, json.fromSlice_toVec h⟩

/-- An event that was read back has the stored form it was read from. -/
@[simp] theorem persisted_envelope (p : PersistedEnvelope) (typeId : TypeId) :
    (p.envelope typeId).persisted = .ok p := rfl

section Sources

variable (published : EventEnvelope → Prop)

/-- The row is that of a published event, at whatever time. -/
def Copied (p : PersistedEnvelope) : Prop :=
  ∃ e original, published e ∧ e.persisted = .ok original ∧ p.undated = original.undated

/-- The event was published, or read back from the row of one that was. -/
def Sourced (e : EventEnvelope) : Prop :=
  published e ∨ ∃ p typeId, Copied published p ∧ e = p.envelope typeId

variable {published}

theorem Copied.undate {p : PersistedEnvelope} (h : Copied published p) :
    Copied published p.undated := h

/-- What is stored of such an event is such a row again. -/
theorem Sourced.copied {e : EventEnvelope} (h : Sourced published e) {p : PersistedEnvelope}
    (hp : e.persisted = .ok p) : Copied published p := by
  rcases h with h | ⟨original, typeId, hcopied, rfl⟩
  · exact ⟨e, p, h, hp, rfl⟩
  · cases hp
    exact hcopied

variable (published)

/-! ## The tables -/

/-- The rows of an event under its id. -/
def RowOf (json : SerdeJson) (id : Uuid) (bytes : Bytes) : Prop :=
  ∃ p, json.fromSlice bytes = some p ∧ p.metadata.eventId = id ∧ Copied published p

/-- A row of the scheduler, under its time. -/
def ScheduledRowOf (json : SerdeJson) (key : Nat × Uuid) (bytes : Bytes) : Prop :=
  ∃ p deliverAt, json.fromSlice bytes = some p ∧ p.metadata.deliverAt = some deliverAt ∧
    key = (timestampMillisU64 deliverAt, p.metadata.eventId) ∧ Copied published p

/-- Nothing in the tables is corrupted or made up. -/
structure Db.Faithful (json : SerdeJson) (db : Db) : Prop where
  events : ∀ (id : Uuid) bytes, db.events[id]? = some bytes → RowOf published json id bytes
  scheduled : ∀ (key : Nat × Uuid) bytes, db.scheduledEvents[key]? = some bytes →
    ScheduledRowOf published json key bytes
  dlq : ∀ (id : Uuid) bytes, db.dlq[id]? = some bytes → RowOf published json id bytes

variable {published} {json : SerdeJson} {db db' : Db}

theorem Db.faithful_empty : Db.empty.Faithful published json := by
  constructor <;> simp [Db.empty]

/-- Rows that are removed leave the others. -/
theorem Db.Faithful.shrink (h : db.Faithful published json)
    (hevents : ∀ (id : Uuid) bytes, db'.events[id]? = some bytes → db.events[id]? = some bytes)
    (hscheduled : ∀ (key : Nat × Uuid) bytes, db'.scheduledEvents[key]? = some bytes →
      db.scheduledEvents[key]? = some bytes)
    (hdlq : ∀ (id : Uuid) bytes, db'.dlq[id]? = some bytes → db.dlq[id]? = some bytes) :
    db'.Faithful published json where
  events id bytes hget := h.events id bytes (hevents id bytes hget)
  scheduled key bytes hget := h.scheduled key bytes (hscheduled key bytes hget)
  dlq id bytes hget := h.dlq id bytes (hdlq id bytes hget)

/-- **The write transaction**, for one row. -/
theorem Db.Faithful.insertRow (h : db.Faithful published json) {counted : Counted} {row : DbInsert}
    (hsourced : Sourced published counted.msg.envelope) (hrow : counted.row json = some row) :
    (db.insertRow row).Faithful published json := by
  obtain ⟨-, bytes, hbytes, rfl⟩ := prepare_eq_some.mp hrow
  obtain ⟨p, hp, hmetadata, hdecode⟩ := persisted_of_persistedBytes hbytes
  have hcopied := hsourced.copied hp
  refine ⟨fun id bytes' hget => ?_, fun key bytes' hget => ?_, fun id bytes' hget => ?_⟩
  · rw [Db.events_insertRow] at hget
    split at hget
    · rename_i heq
      cases hget
      exact ⟨p, hdecode, by rw [hmetadata]; exact heq.2, hcopied⟩
    · exact h.events id bytes' hget
  · rw [Db.scheduledEvents_insertRow] at hget
    split at hget
    · rename_i heq
      cases hget
      obtain ⟨hscheduled, hkey⟩ := heq
      -- only an event with a time is scheduled
      cases hdeliverAt : counted.msg.envelope.metadata.deliverAt with
      | none => simp [EventEnvelope.isScheduled, hdeliverAt] at hscheduled
      | some deliverAt =>
        refine ⟨p, deliverAt, hdecode, by rw [hmetadata, hdeliverAt], ?_, hcopied⟩
        rw [← hkey, hmetadata]
        simp [EventEnvelope.deliverAtMs, hdeliverAt, EventEnvelope.eventId]
    · exact h.scheduled key bytes' hget
  · rw [Db.dlq_insertRow] at hget
    exact h.dlq id bytes' hget

theorem Db.Faithful.insertRows {done : List Counted} (h : db.Faithful published json)
    (hsourced : ∀ counted ∈ done, Sourced published counted.msg.envelope) :
    (db.insertRows (PersistentBus.rowsOf json done)).Faithful published json := by
  induction done generalizing db with
  | nil => exact h
  | cons counted done ih =>
    have hrest := fun c hc => hsourced c (List.mem_cons_of_mem _ hc)
    unfold PersistentBus.rowsOf
    cases hrow : counted.row json with
    | none =>
      rw [List.filterMap_cons_none hrow]
      exact ih h hrest
    | some row =>
      rw [List.filterMap_cons_some hrow]
      exact ih (h.insertRow (hsourced counted List.mem_cons_self) hrow) hrest

/-- **A completion** moves a row as it is. -/
theorem Db.Faithful.ack (h : db.Faithful published json) (completion : Completion) :
    (db.ack completion).Faithful published json := by
  have hshrink : ∀ dlq : Table Uuid Bytes,
      (∀ (id : Uuid) bytes, dlq[id]? = some bytes → RowOf published json id bytes) →
      Db.Faithful published json { db with
        refcount := db.refcount.erase completion.1
        events := db.events.erase completion.1
        dlq := dlq } := by
    refine fun dlq hdlq => ⟨fun id bytes hget => ?_, h.scheduled, hdlq⟩
    replace hget : (db.events.erase completion.1)[id]? = some bytes := hget
    rw [Std.ExtTreeMap.getElem?_erase] at hget
    split at hget
    · cases hget
    · exact h.events id bytes hget
  unfold Db.ack
  dsimp only
  split
  · exact h
  · split
    · cases completion.2 with
      | true => exact hshrink db.dlq h.dlq
      | false =>
        cases hrow : db.events[completion.1]? with
        | none => exact hshrink db.dlq h.dlq
        | some payload =>
          refine hshrink _ fun id bytes hget => ?_
          replace hget : (db.dlq.insert completion.1 payload)[id]? = some bytes := hget
          rw [Std.ExtTreeMap.getElem?_insert] at hget
          split at hget
          · rename_i heq
            obtain rfl : completion.1 = id := by simpa using heq
            cases hget
            exact h.events _ _ hrow
          · exact h.dlq id bytes hget
    · exact ⟨h.events, h.scheduled, h.dlq⟩

theorem Db.Faithful.poll (h : db.Faithful published json) (nowMs : Nat) :
    (db.poll nowMs).Faithful published json :=
  h.shrink (fun _ _ => id) (fun _ _ => Db.getElem?_of_foldl_erase) fun _ _ => id

theorem Db.Faithful.collectDead (h : db.Faithful published json) (dead : List Uuid) :
    (db.collectDead dead).Faithful published json :=
  h.shrink (fun _ _ => Db.getElem?_of_foldl_erase) (fun _ _ => id) fun _ _ => id

theorem Db.Faithful.removeDlq (h : db.Faithful published json)
    (envelopes : List (Uuid × PersistedEnvelope)) :
    (db.removeDlq envelopes).Faithful published json :=
  h.shrink (fun _ _ => id) (fun _ _ => id) fun _ _ => Db.getElem?_of_foldl_erase

/-- The events a poll returns are those of rows. -/
theorem Db.Faithful.readyEvents (h : db.Faithful published json) {nowMs : Nat} :
    ∀ persisted ∈ db.readyEvents json nowMs, Copied published persisted := by
  intro persisted hmem
  obtain ⟨row, hdue, hread⟩ := List.mem_filterMap.mp hmem
  obtain ⟨p, -, hp, -, -, hcopied⟩ := h.scheduled row.1 row.2 (Db.mem_dueRows.mp hdue).1
  cases hp.symm.trans hread
  exact hcopied

theorem Db.Faithful.pendingRows (h : db.Faithful published json) :
    ∀ row ∈ db.pendingRows, RowOf published json row.1 row.2.1 := by
  intro row hmem
  obtain ⟨⟨id, bytes⟩, hrow, rfl⟩ := List.mem_map.mp hmem
  exact h.events id bytes (Std.ExtTreeMap.mem_toList_iff_getElem?_eq_some.mp hrow)

theorem Db.Faithful.dlqEnvelopes (h : db.Faithful published json) :
    ∀ persisted ∈ (db.dlqEnvelopes json).map (·.2), Copied published persisted := by
  intro persisted hmem
  obtain ⟨⟨id, found⟩, hfound, rfl⟩ := List.mem_map.mp hmem
  obtain ⟨⟨id', bytes⟩, hrow, hread⟩ := List.mem_filterMap.mp hfound
  obtain ⟨read, hread, heq⟩ := Option.map_eq_some_iff.mp hread
  cases heq
  obtain ⟨p, hp, -, hcopied⟩ :=
    h.dlq id' bytes (Std.ExtTreeMap.mem_toList_iff_getElem?_eq_some.mp hrow)
  cases hp.symm.trans hread
  exact hcopied

/-! ## The bus -/

variable (published json)

/-- What a replay call holds has been read from rows. -/
def Replay.Reads : Replay → Prop
  | .pending rows _ => ∀ row ∈ rows, RowOf published json row.1 row.2.1
  | .pendingSend envelope rows _ => Sourced published envelope ∧
    ∀ row ∈ rows, RowOf published json row.1 row.2.1
  | .dlq envelopes => ∀ persisted ∈ envelopes, Copied published persisted

/-- Everything in the tables and everything on its way to a handler is of a published
    event. -/
structure PersistentBus.Traced (s : PersistentBus) : Prop where
  tables : s.db.Faithful published json
  messages : ∀ msg ∈ s.messages, Sourced published msg.envelope
  onTheWay : s.OnTheWay (Sourced published)
  busy : PersistentBus.Everywhere (Sourced published) s.busy
  toFire : ∀ persisted ∈ s.scheduler.toFire, Copied published persisted
  sending : ∀ envelope rest, s.scheduler = .sending envelope rest → Sourced published envelope
  replays : ∀ replay ∈ s.replays, replay.Reads published json

end Sources

/-! ## More events are published -/

section Mono

variable {published published' : EventEnvelope → Prop} {json : SerdeJson}

theorem Copied.mono {p : PersistedEnvelope} (h : Copied published p)
    (hmono : ∀ e, published e → published' e) : Copied published' p := by
  obtain ⟨e, original, he, horiginal, hundated⟩ := h
  exact ⟨e, original, hmono e he, horiginal, hundated⟩

theorem Sourced.mono {e : EventEnvelope} (h : Sourced published e)
    (hmono : ∀ e, published e → published' e) : Sourced published' e := by
  rcases h with h | ⟨p, typeId, hcopied, rfl⟩
  · exact .inl (hmono e h)
  · exact .inr ⟨p, typeId, hcopied.mono hmono, rfl⟩

theorem RowOf.mono {id : Uuid} {bytes : Bytes} (h : RowOf published json id bytes)
    (hmono : ∀ e, published e → published' e) : RowOf published' json id bytes := by
  obtain ⟨p, hp, hid, hcopied⟩ := h
  exact ⟨p, hp, hid, hcopied.mono hmono⟩

theorem ScheduledRowOf.mono {key : Nat × Uuid} {bytes : Bytes}
    (h : ScheduledRowOf published json key bytes) (hmono : ∀ e, published e → published' e) :
    ScheduledRowOf published' json key bytes := by
  obtain ⟨p, deliverAt, hp, hdeliverAt, hkey, hcopied⟩ := h
  exact ⟨p, deliverAt, hp, hdeliverAt, hkey, hcopied.mono hmono⟩

theorem Replay.Reads.mono {replay : Replay} (h : replay.Reads published json)
    (hmono : ∀ e, published e → published' e) : replay.Reads published' json := by
  cases replay with
  | pending rows dead => exact fun row hrow => (h row hrow).mono hmono
  | pendingSend envelope rows dead =>
    exact ⟨h.1.mono hmono, fun row hrow => (h.2 row hrow).mono hmono⟩
  | dlq envelopes => exact fun persisted hmem => (h persisted hmem).mono hmono

theorem PersistentBus.Traced.mono {s : PersistentBus} (h : s.Traced published json)
    (hmono : ∀ e, published e → published' e) : s.Traced published' json where
  tables :=
    { events := fun id bytes hget => (h.tables.events id bytes hget).mono hmono
      scheduled := fun key bytes hget => (h.tables.scheduled key bytes hget).mono hmono
      dlq := fun id bytes hget => (h.tables.dlq id bytes hget).mono hmono }
  messages msg hmem := (h.messages msg hmem).mono hmono
  onTheWay := h.onTheWay.imp fun _ he => he.mono hmono
  busy id e hget := (h.busy id e hget).mono hmono
  toFire persisted hmem := (h.toFire persisted hmem).mono hmono
  sending envelope rest hphase := (h.sending envelope rest hphase).mono hmono
  replays replay hmem := (h.replays replay hmem).mono hmono

end Mono

namespace PersistentBus

variable {published : EventEnvelope → Prop} {json : SerdeJson} {config : BusConfig}
  {s s' : PersistentBus}

theorem traced_boot (json : SerdeJson) (config : BusConfig) {db : Db}
    (hdb : db.Faithful published json) : (boot json config db).Traced published json where
  tables := hdb
  messages := by simp [boot, PersistentBus.messages, Mpsc.Channel.new, Worker.messages]
  onTheWay := ⟨by simp [boot], everywhere_empty, everywhere_empty⟩
  busy := everywhere_empty
  toFire := by simp [boot, Scheduler.toFire]
  sending := by simp [boot]
  replays := by simp [boot]

/-! ## The steps of each task -/

theorem Traced.stepWorker {a : WorkerAction} (hI : s.Traced published json)
    (h : s.stepWorker json config a = some s') : s'.Traced published json := by
  have hsame := stepWorker_sameTasks h
  refine ⟨?_, fun msg hmem => hI.messages msg (messages_stepWorker h hmem), ?_,
    by rw [hsame.busy]; exact hI.busy, by rw [hsame.scheduler]; exact hI.toFire,
    by rw [hsame.scheduler]; exact hI.sending, by rw [hsame.replays]; exact hI.replays⟩
  · rcases stepWorker_rows h with hdb | ⟨faults, done, -, hphase, -, hdb⟩
    · rw [hdb]
      exact hI.tables
    · rw [hdb]
      refine hI.tables.insertRows fun counted hcounted => hI.messages counted.msg ?_
      simp only [PersistentBus.messages, hphase, Worker.messages, List.append_nil, List.mem_append]
      exact .inr (List.mem_map_of_mem hcounted)
  · refine hI.onTheWay.stepWorker h fun now msg rest _ hphase _ _ => hI.messages msg ?_
    simp [PersistentBus.messages, hphase, Worker.messages]

/-- A message that is put into the queue. -/
theorem Traced.push (hI : s.Traced published json) (msg : RedbDispatcherMessage)
    (hmsg : Sourced published msg.envelope) :
    { s with queue := s.queue.push msg }.Traced published json :=
  { hI with
    messages := by
      intro other hmem
      simp only [PersistentBus.messages, Mpsc.Channel.push_buffer, List.mem_append,
        List.mem_singleton] at hmem
      rcases hmem with (hold | rfl) | hworker
      · exact hI.messages other (List.mem_append_left _ hold)
      · exact hmsg
      · exact hI.messages other (List.mem_append_right _ hworker)
    onTheWay := ⟨hI.onTheWay.sends, hI.onTheWay.channel, hI.onTheWay.closed⟩ }

/-- The scheduler goes on with fewer events. -/
theorem Traced.setScheduler (hI : s.Traced published json) {scheduler : Scheduler}
    (hfire : ∀ persisted ∈ scheduler.toFire, Copied published persisted)
    (hsending : ∀ envelope rest, scheduler = .sending envelope rest →
      Sourced published envelope) : { s with scheduler := scheduler }.Traced published json :=
  { hI with
    toFire := hfire
    sending := hsending
    onTheWay := ⟨hI.onTheWay.sends, hI.onTheWay.channel, hI.onTheWay.closed⟩ }

/-- A replay call goes on with less, or with what it has found. -/
theorem Traced.setReplays (hI : s.Traced published json) {replays : List Replay}
    (hreplays : ∀ replay ∈ replays, replay ∈ s.replays ∨ replay.Reads published json) :
    { s with replays := replays }.Traced published json :=
  { hI with
    replays := fun replay hmem => (hreplays replay hmem).elim (hI.replays replay) id
    onTheWay := ⟨hI.onTheWay.sends, hI.onTheWay.channel, hI.onTheWay.closed⟩ }

theorem Traced.setReplay (hI : s.Traced published json) {index : Nat} {replay : Replay}
    (hreplay : replay.Reads published json) :
    { s with replays := s.replays.set index replay }.Traced published json := by
  refine hI.setReplays fun other hmem => ?_
  rcases List.mem_or_eq_of_mem_set hmem with hold | rfl
  · exact .inl hold
  · exact .inr hreplay

theorem Traced.eraseReplay (hI : s.Traced published json) (index : Nat) :
    { s with replays := s.replays.eraseIdx index }.Traced published json :=
  hI.setReplays fun _ hmem => .inl (List.mem_of_mem_eraseIdx hmem)

theorem Traced.appendReplay (hI : s.Traced published json) {replay : Replay}
    (hreplay : replay.Reads published json) :
    { s with replays := s.replays ++ [replay] }.Traced published json := by
  refine hI.setReplays fun other hmem => ?_
  rcases List.mem_append.mp hmem with hold | hnew
  · exact .inl hold
  · rw [List.mem_singleton.mp hnew]
    exact .inr hreplay

/-- A transaction that leaves faithful tables. -/
theorem Traced.setDb (hI : s.Traced published json) {db : Db}
    (hdb : db.Faithful published json) : { s with db := db }.Traced published json :=
  { hI with
    tables := hdb
    onTheWay := ⟨hI.onTheWay.sends, hI.onTheWay.channel, hI.onTheWay.closed⟩ }

theorem Traced.stepScheduler {a : SchedulerAction} (hI : s.Traced published json)
    (h : s.stepScheduler json a = some s') : s'.Traced published json := by
  have hidle : ∀ scheduler : Scheduler, scheduler.toFire = [] →
      (∀ envelope rest, scheduler ≠ .sending envelope rest) →
      { s with scheduler := scheduler }.Traced published json :=
    fun scheduler hfire hsending =>
      hI.setScheduler (by simp [hfire]) fun envelope rest heq => absurd heq (hsending envelope rest)
  cases a with
  | wake now =>
    simp only [PersistentBus.stepScheduler, wake] at h
    repeat' split at h
    all_goals cases h
    · exact hidle _ rfl (by simp)
    · exact hidle _ rfl (by simp)
  | poll commits =>
    simp only [PersistentBus.stepScheduler, poll] at h
    split at h
    · rename_i nowMs hphase
      cases commits with
      | false =>
        cases h
        exact hidle _ rfl (by simp)
      | true =>
        cases h
        have hfiring : { s with scheduler := .firing (s.db.readyEvents json nowMs) }.Traced
            published json := hI.setScheduler hI.tables.readyEvents (by simp)
        exact hfiring.setDb (hI.tables.poll nowMs)
    · cases h
  | fire =>
    simp only [PersistentBus.stepScheduler, fire] at h
    split at h
    · cases h
      exact hidle _ rfl (by simp)
    · rename_i persisted rest hphase
      have hfire := hI.toFire
      rw [hphase] at hfire
      have hrest : ∀ other ∈ rest, Copied published other :=
        fun other hmem => hfire other (List.mem_cons_of_mem _ hmem)
      have hdropped : { s with scheduler := .firing rest }.Traced published json :=
        hI.setScheduler hrest (by simp)
      split at h
      · rename_i typeId htype
        split at h
        · cases h
          refine hI.setScheduler hrest fun envelope rest' heq => ?_
          cases heq
          -- the event that is sent is the row without its time
          exact .inr ⟨persisted.undated, typeId, (hfire persisted List.mem_cons_self).undate, rfl⟩
        · cases h
          exact hdropped
      · cases h
        exact hdropped
    · cases h
  | send =>
    simp only [PersistentBus.stepScheduler, schedulerSend] at h
    split at h
    · rename_i envelope rest hphase
      have hfire := hI.toFire
      rw [hphase] at hfire
      have hrest : { s with scheduler := .firing rest }.Traced published json :=
        hI.setScheduler hfire (by simp)
      split at h
      · rename_i queue hsend
        cases h
        obtain ⟨-, rfl⟩ := Mpsc.Channel.trySend_eq_ok.mp hsend
        exact hrest.push _ (hI.sending envelope rest hphase)
      · cases h
        exact hrest
      · cases h
    · cases h
  | orphanPoll index commits =>
    simp only [PersistentBus.stepScheduler, orphanPoll] at h
    split at h
    · rename_i nowMs hpoll
      have horphan : { s with orphanPolls := s.orphanPolls.eraseIdx index }.Traced published json :=
        { hI with onTheWay := ⟨hI.onTheWay.sends, hI.onTheWay.channel, hI.onTheWay.closed⟩ }
      cases commits with
      | false =>
        cases h
        exact horphan
      | true =>
        cases h
        exact horphan.setDb (hI.tables.poll nowMs)
    · cases h

/-- A live row is read back as its event. -/
theorem sourced_of_live {registry : RedbRegistry} {id : Uuid} {bytes : Bytes}
    {refcount : Option Nat} {envelope : EventEnvelope} (hrow : RowOf published json id bytes)
    (h : rowFate json registry bytes refcount = .live envelope) : Sourced published envelope := by
  obtain ⟨p, hp, -, hcopied⟩ := hrow
  unfold rowFate at h
  rw [hp] at h
  repeat' split at h
  all_goals cases h
  cases ‹some p = some _›
  exact .inr ⟨p, _, hcopied, rfl⟩

theorem Traced.stepReplay {a : ReplayAction} (hI : s.Traced published json)
    (h : s.stepReplay json a = some s') : s'.Traced published json := by
  cases a with
  | pending =>
    simp only [PersistentBus.stepReplay, replayPending] at h
    split at h <;> cases h
    exact hI.appendReplay hI.tables.pendingRows
  | visit index =>
    simp only [PersistentBus.stepReplay, replayVisit] at h
    split at h
    · rename_i id bytes refcount rows dead hreplay
      cases h
      have hrows := hI.replays _ (List.mem_of_getElem? hreplay)
      have hrest : ∀ row ∈ rows, RowOf published json row.1 row.2.1 :=
        fun row hrow => hrows row (List.mem_cons_of_mem _ hrow)
      refine hI.setReplay ?_
      cases hfate : rowFate json s.manager.registry bytes refcount with
      | skip => exact hrest
      | dead => exact hrest
      | live envelope => exact ⟨sourced_of_live (hrows _ List.mem_cons_self) hfate, hrest⟩
    · cases h
  | send index =>
    simp only [PersistentBus.stepReplay, replaySend] at h
    split at h
    · rename_i envelope rows dead hreplay
      obtain ⟨henvelope, hrows⟩ := hI.replays _ (List.mem_of_getElem? hreplay)
      have hset : { s with replays := s.replays.set index (.pending rows dead) }.Traced
          published json := hI.setReplay hrows
      split at h
      · rename_i queue hsend
        cases h
        obtain ⟨-, rfl⟩ := Mpsc.Channel.trySend_eq_ok.mp hsend
        exact hset.push _ henvelope
      · cases h
        exact hset
      · cases h
    · cases h
  | collect index commits =>
    simp only [PersistentBus.stepReplay, replayCollect] at h
    split at h
    · rename_i dead hreplay
      cases h
      cases commits with
      | false => exact hI.eraseReplay index
      | true => exact (hI.eraseReplay index).setDb (hI.tables.collectDead dead)
    · cases h
  | fail index =>
    simp only [PersistentBus.stepReplay, replayFail] at h
    split at h <;> cases h
    exact hI.eraseReplay index
  | dlq =>
    simp only [PersistentBus.stepReplay, replayDlq] at h
    split at h
    · cases h
    · cases h
      have hreads : (Replay.dlq ((s.db.dlqEnvelopes json).map (·.2))).Reads published json :=
        hI.tables.dlqEnvelopes
      exact (hI.appendReplay hreads).setDb (hI.tables.removeDlq _)
  | dlqSend index =>
    simp only [PersistentBus.stepReplay, replayDlqSend] at h
    split at h
    · cases h
      exact hI.eraseReplay index
    · rename_i persisted rest hreplay
      have henvelopes := hI.replays _ (List.mem_of_getElem? hreplay)
      have hset : { s with replays := s.replays.set index (.dlq rest) }.Traced published json :=
        hI.setReplay fun other hmem => henvelopes other (List.mem_cons_of_mem _ hmem)
      split at h
      · split at h
        · rename_i typeId _ _ queue hsend
          cases h
          obtain ⟨-, rfl⟩ := Mpsc.Channel.trySend_eq_ok.mp hsend
          exact hset.push _
            (.inr ⟨persisted, typeId, henvelopes persisted List.mem_cons_self, rfl⟩)
        · cases h
          exact hset
      · cases h
        exact hset
    · cases h

/-- What a handler works on is what it took. -/
theorem Traced.busy_stepHandler {a : HandlerAction} (hI : s.Traced published json)
    (h : s.stepHandler a = some s') : Everywhere (Sourced published) s'.busy := by
  cases a with
  | registry op => cases h; exact hI.busy
  | openChannel id => obtain ⟨-, rfl⟩ := openChannel_cases h; exact hI.busy
  | removeChannel id => cases h; exact hI.busy
  | closeChannel id => obtain ⟨data, -, rfl⟩ := closeChannel_cases h; exact hI.busy
  | take id =>
    obtain ⟨-, envelope, rest, ⟨hdata, rfl⟩ | ⟨hclosed, rfl⟩⟩ := handlerTake_cases h
    · exact hI.busy.insert id (hI.onTheWay.channel id _ hdata envelope List.mem_cons_self)
    · exact hI.busy.insert id (hI.onTheWay.closed id _ hclosed envelope List.mem_cons_self)
  | complete id isSuccess =>
    obtain ⟨envelope, registry, -, -, -, rfl⟩ := handlerComplete_cases h
    exact hI.busy.erase id
  | exit id => cases h; exact hI.busy.erase id
  | ack commits => obtain ⟨completion, rest, -, rfl⟩ := ack_step_cases h; exact hI.busy

theorem Traced.stepHandler {a : HandlerAction} (hI : s.Traced published json)
    (h : s.stepHandler a = some s') : s'.Traced published json := by
  obtain ⟨hqueue, hreplays, hscheduler⟩ := stepHandler_sameInputs h
  obtain ⟨hdb, hworker, -, -⟩ := stepHandler_frame h
  refine ⟨?_, ?_, hI.onTheWay.stepHandler h, hI.busy_stepHandler h,
    by rw [hscheduler]; exact hI.toFire, by rw [hscheduler]; exact hI.sending,
    by rw [hreplays]; exact hI.replays⟩
  · rcases hdb with hdb | ⟨completion, -, hdb⟩
    · rw [hdb]
      exact hI.tables
    · rw [hdb]
      exact hI.tables.ack completion
  · rw [PersistentBus.messages, hqueue, hworker]
    exact hI.messages

theorem Traced.stepControl {a : ControlAction} (hI : s.Traced published json)
    (h : s.stepControl json config a = some s') : s'.Traced published json := by
  by_cases hcrash : a = .crash
  · subst hcrash
    cases h
    -- only the database survives
    have hboot := traced_boot json config hI.tables
    exact { hboot with
      onTheWay := ⟨hboot.onTheWay.sends, hboot.onTheWay.channel, hboot.onTheWay.closed⟩ }
  · have hsame := stepControl_sameWork h hcrash
    have honTheWay : s'.OnTheWay (Sourced published) :=
      hI.onTheWay.step (a := .control a) h fun now msg rest ha => by cases ha
    refine ⟨by rw [hsame.db]; exact hI.tables, fun msg hmem => ?_, honTheWay,
      by rw [hsame.busy]; exact hI.busy, ?_, ?_, by rw [hsame.replays]; exact hI.replays⟩
    · rw [PersistentBus.messages, hsame.queue] at hmem
      rcases hsame.worker with heq | ⟨-, heq⟩
      · rw [heq] at hmem
        exact hI.messages msg hmem
      · rw [heq] at hmem
        exact hI.messages msg (List.mem_append_left _ (by simpa [Worker.messages] using hmem))
    · rcases hsame.scheduler with heq | heq | heq
      · rw [heq]
        exact hI.toFire
      · simp [heq, Scheduler.toFire]
      · simp [heq, Scheduler.toFire]
    · rcases hsame.scheduler with heq | heq | heq
      · rw [heq]
        exact hI.sending
      · simp [heq]
      · simp [heq]

/-! ## Runs -/

/-- The events that publishers have put into the queue. -/
def recordEntered (s : PersistentBus) (a : Action) (s' : PersistentBus)
    (entered : List EventEnvelope) : List EventEnvelope :=
  match a with
  | .publisher (.dispatch envelope) | .publisher (.tryDispatch envelope) =>
    if s.queue.buffer.length < s'.queue.buffer.length then entered ++ [envelope] else entered
  | _ => entered

/-- The system with the events that publishers have put into the queue. -/
def stepEntered (json : SerdeJson) (config : BusConfig) :
    PersistentBus × List EventEnvelope → Action → Option (PersistentBus × List EventEnvelope) :=
  Transition.withHistory (step json config) recordEntered

/-- What a publisher puts into the queue is published. -/
theorem Traced.stepPublisher {a : PublisherAction} {entered : List EventEnvelope}
    (hI : s.Traced (· ∈ entered) json) (h : s.stepPublisher config a = some s') :
    s'.Traced (· ∈ recordEntered s (.publisher a) s' entered) json := by
  obtain ⟨hreplays, hscheduler, hqueue⟩ := stepPublisher_queue h
  obtain ⟨hdb, hsame⟩ := stepPublisher_frame h
  -- all but the queue is as before
  have hrest : ∀ t : PersistentBus, t.Traced (· ∈ recordEntered s (.publisher a) s' entered) json →
      t.db = s.db → SameHandling t s' → t.scheduler = s.scheduler → t.replays = s.replays →
      t.queue = s'.queue → s'.Traced (· ∈ recordEntered s (.publisher a) s' entered) json := by
    intro t ht htdb htsame htscheduler htreplays htqueue
    refine ⟨by rw [hdb, ← htdb]; exact ht.tables, ?_, ht.onTheWay.of_sameHandling htsame,
      by rw [htsame.busy]; exact ht.busy, by rw [hscheduler, ← htscheduler]; exact ht.toFire,
      by rw [hscheduler, ← htscheduler]; exact ht.sending,
      by rw [hreplays, ← htreplays]; exact ht.replays⟩
    rw [PersistentBus.messages, ← htqueue, htsame.worker]
    exact ht.messages
  rcases hqueue with hqueue | ⟨envelope, ackTx, ha, hqueue⟩
  · -- nothing is put into the queue
    have hrecord : recordEntered s (.publisher a) s' entered = entered := by
      cases a <;> simp [recordEntered, hqueue]
    exact hrest s (by rw [hrecord]; exact hI) rfl hsame rfl rfl hqueue.symm
  · have hrecord : recordEntered s (.publisher a) s' entered = entered ++ [envelope] := by
      rcases ha with rfl | rfl <;> simp [recordEntered, hqueue]
    refine hrest { s with queue := s.queue.push ⟨envelope, ackTx⟩ } ?_ rfl
      ⟨hsame.manager, hsame.closed, hsame.busy, hsame.worker, hsame.history⟩ rfl rfl hqueue.symm
    rw [hrecord]
    exact (hI.mono fun e he => List.mem_append_left _ he).push _ (.inl (by simp))

/-- **One step** brings nothing but what a publisher puts into the queue. -/
theorem traced_step {t t' : PersistentBus × List EventEnvelope} {a : Action}
    (hI : t.1.Traced (· ∈ t.2) json) (h : stepEntered json config t a = some t') :
    t'.1.Traced (· ∈ t'.2) json := by
  obtain ⟨hstep, hrecord⟩ := Transition.withHistory_eq_some.mp h
  rw [hrecord]
  cases a with
  | publisher a => exact hI.stepPublisher hstep
  | worker a => exact hI.stepWorker hstep
  | scheduler a => exact hI.stepScheduler hstep
  | handler a => exact hI.stepHandler hstep
  | replay a => exact hI.stepReplay hstep
  | control a => exact hI.stepControl hstep

/-- **Nothing is made up, and nothing is altered.** In every run that begins with an empty
    database, crashes and replays included, everything in the tables and everything on its
    way to a handler is of an event that a publisher has put into the queue. -/
theorem traced_exec {as : List Action} {t : PersistentBus × List EventEnvelope}
    (h : Transition.exec (stepEntered json config) (boot json config .empty, []) as = some t) :
    t.1.Traced (· ∈ t.2) json :=
  Transition.invariant (I := fun t : PersistentBus × List EventEnvelope =>
    t.1.Traced (· ∈ t.2) json) (fun _ _ _ => traced_step)
    (traced_boot json config Db.faithful_empty) h

/-- An order is published to two subscriptions, and one of them gives it up; the process
    crashes, and the order is replayed to a handler of the next one. -/
def orderSurvives : List Action :=
  crowdArrives 2 ++ oneMessage order 0 ++ [.handler (.ack true), .control .crash] ++
    crowdArrives 1 ++
    [.replay .pending, .replay (.visit 0), .replay (.send 0), .worker .recv,
      .worker (.check fun _ => true), .worker (.count 0), .worker (.write noFaults),
      .worker (.deliver 0), .worker (.push 0), .handler (.take 0)]

theorem traced_orderSurvives : ∃ t,
    Transition.exec (stepEntered orderJson {}) (boot orderJson {} .empty, []) orderSurvives
      = some t ∧ t.2.map (·.eventId) = [7] ∧ (t.1.busy[(0 : Uuid)]?).map (·.eventId) = some 7 ∧
      t.1.Traced (· ∈ t.2) orderJson := by
  obtain ⟨t, ht⟩ := Option.isSome_iff_exists.mp
    (by decide +kernel : (Transition.exec (stepEntered orderJson {})
      (boot orderJson {} .empty, []) orderSurvives).isSome = true)
  have hseen : (Transition.exec (stepEntered orderJson {}) (boot orderJson {} .empty, [])
      orderSurvives).map (fun t => (t.2.map (·.eventId),
        (t.1.busy[(0 : Uuid)]?).map (·.eventId))) = some ([7], some 7) := by
    decide +kernel
  rw [ht] at hseen
  obtain ⟨hentered, hbusy⟩ := Prod.mk.inj (Option.some.inj hseen)
  exact ⟨t, ht, hentered, hbusy, traced_exec ht⟩

end PersistentBus
end TokioEvents
