/-
  TokioEvents.Persistence.ScheduledEvents

  Whether a scheduled event survives until it is handed on.  The poll of
  `scheduler_loop` commits the removal of the due rows before anything else is done
  with them: until the worker has written such an event to `EVENTS_TABLE`, it is only
  in memory, and an event whose type has no subscriber is not sent to the worker at
  all.  The other step that can take the last copy is the garbage collection of
  `replay_pending`.  The statements below say that these two are the only ones.
-/

import TokioEvents.Persistence.Bus.Effects
import TokioEvents.Persistence.Rows

namespace TokioEvents

/-! ## Where an event is stored -/

namespace Db

variable {json : SerdeJson} {db : Db} {e : Uuid} {ts : Nat}

/-- A decodable row of `EVENTS_TABLE`. -/
def HasEvent (json : SerdeJson) (db : Db) (e : Uuid) : Prop :=
  ∃ bytes, db.events[e]? = some bytes ∧ (json.fromSlice bytes).isSome = true

/-- A decodable row of `SCHEDULED_EVENTS_TABLE`. -/
def HasScheduled (json : SerdeJson) (db : Db) (ts : Nat) (e : Uuid) : Prop :=
  ∃ bytes, db.scheduledEvents[(ts, e)]? = some bytes ∧ (json.fromSlice bytes).isSome = true

/-- A restart can read the event back from one of the two tables. -/
def Stored (json : SerdeJson) (db : Db) (e : Uuid) : Prop :=
  db.HasEvent json e ∨ ∃ ts, db.HasScheduled json ts e

theorem mem_scheduledIds : e ∈ db.scheduledIds json ↔ ∃ ts, db.HasScheduled json ts e := by
  unfold scheduledIds HasScheduled
  simp only [List.mem_map, List.mem_filter]
  constructor
  · rintro ⟨⟨⟨ts, e⟩, bytes⟩, ⟨hrow, hdecode⟩, rfl⟩
    exact ⟨ts, bytes, Std.ExtTreeMap.mem_toList_iff_getElem?_eq_some.mp hrow, hdecode⟩
  · rintro ⟨ts, bytes, hrow, hdecode⟩
    exact ⟨((ts, e), bytes), ⟨Std.ExtTreeMap.mem_toList_iff_getElem?_eq_some.mpr hrow, hdecode⟩,
      rfl⟩

/-- A decodable row never hides an event: it is the event's own newer row. -/
theorem Stored.insertRow {row : DbInsert} (h : db.Stored json e)
    (hrow : (json.fromSlice row.bytes).isSome = true) : (db.insertRow row).Stored json e := by
  rcases h with ⟨bytes, hget, hdecode⟩ | ⟨ts, bytes, hget, hdecode⟩
  · left
    unfold HasEvent
    rw [events_insertRow]
    split
    · exact ⟨_, rfl, hrow⟩
    · exact ⟨bytes, hget, hdecode⟩
  · right
    refine ⟨ts, ?_⟩
    unfold HasScheduled
    rw [scheduledEvents_insertRow]
    split
    · exact ⟨_, rfl, hrow⟩
    · exact ⟨bytes, hget, hdecode⟩

theorem Stored.insertRows {rows : List DbInsert} (h : db.Stored json e)
    (hrows : ∀ row ∈ rows, (json.fromSlice row.bytes).isSome = true) :
    (db.insertRows rows).Stored json e := by
  induction rows generalizing db with
  | nil => exact h
  | cons row rows ih =>
    exact ih (h.insertRow (hrows row (List.mem_cons_self ..)))
      fun row' h' => hrows row' (List.mem_cons_of_mem _ h')

/-- The event of an inserted row is stored. -/
theorem stored_insertRows_of_mem {rows : List DbInsert} {row : DbInsert} (hmem : row ∈ rows)
    (hrows : ∀ row ∈ rows, (json.fromSlice row.bytes).isSome = true) :
    (db.insertRows rows).Stored json row.id := by
  induction rows generalizing db with
  | nil => cases hmem
  | cons first rows ih =>
    have hlater : ∀ row ∈ rows, (json.fromSlice row.bytes).isSome = true :=
      fun row' h' => hrows row' (List.mem_cons_of_mem _ h')
    rcases List.mem_cons.mp hmem with rfl | hmem
    · have hdecode := hrows row (List.mem_cons_self ..)
      have hfirst : (db.insertRow row).Stored json row.id := by
        cases hscheduled : row.isScheduled with
        | true =>
          refine .inr ⟨row.deliverAtMs, row.bytes, ?_, hdecode⟩
          rw [scheduledEvents_insertRow, if_pos ⟨hscheduled, rfl⟩]
        | false =>
          refine .inl ⟨row.bytes, ?_, hdecode⟩
          rw [events_insertRow, if_pos ⟨hscheduled, rfl⟩]
      exact hfirst.insertRows hlater
    · exact ih hmem hlater

/-- A completion concerns its own event only. -/
theorem Stored.ack {completion : Completion} (h : db.Stored json e) (hne : completion.1 ≠ e) :
    (db.ack completion).Stored json e := by
  rcases db.ack_cases completion with hack | ⟨n, hack⟩ | ⟨dlq, hack⟩ <;> rw [hack]
  · exact h
  · exact h
  · refine h.imp_left ?_
    rintro ⟨bytes, hget, hdecode⟩
    exact ⟨bytes, by simpa [Std.ExtTreeMap.getElem?_erase, hne] using hget, hdecode⟩

/-- After a poll: the event is in `EVENTS_TABLE`, or scheduled for later. -/
theorem stored_poll_iff {nowMs : Nat} :
    (db.poll nowMs).Stored json e
      ↔ db.HasEvent json e ∨ ∃ ts, nowMs < ts ∧ db.HasScheduled json ts e := by
  refine or_congr Iff.rfl (exists_congr fun ts => ?_)
  unfold HasScheduled
  rw [getElem?_poll]
  by_cases hdue : ts ≤ nowMs
  · simp [hdue, Nat.not_lt.mpr hdue]
  · simp [hdue, Nat.lt_of_not_le hdue]

/-- After a garbage collection: the event is scheduled, or it was not collected. -/
theorem stored_collectDead_iff {dead : List Uuid} :
    (db.collectDead dead).Stored json e
      ↔ (e ∉ dead ∧ db.HasEvent json e) ∨ ∃ ts, db.HasScheduled json ts e := by
  obtain ⟨hin, hout⟩ := Table.getElem?_foldl_erase id dead db.events e
  rw [List.map_id] at hin hout
  have hevents : (db.collectDead dead).events[e]?
      = if e ∈ dead then none else db.events[e]? := by
    split
    · exact hin ‹_›
    · exact hout ‹_›
  refine or_congr ?_ Iff.rfl
  unfold HasEvent
  rw [hevents]
  by_cases hdead : e ∈ dead <;> simp [hdead]

end Db

namespace PersistentBus

variable {json : SerdeJson} {config : BusConfig} {s s' : PersistentBus}

/-- The rows a batch writes can be read back. -/
theorem decodable_rowsOf {done : List Counted} {row : DbInsert} (h : row ∈ rowsOf json done) :
    (json.fromSlice row.bytes).isSome = true := by
  obtain ⟨counted, -, hrow⟩ := List.mem_filterMap.mp h
  obtain ⟨persisted, hdecode, -⟩ := fromSlice_of_prepare hrow
  rw [hdecode]
  rfl

/-! ## What handlers complete has been handed to them -/

/-- Every event on its way through handlers is in the history of those handed on. -/
structure AllHanded (s : PersistentBus) : Prop where
  channel : ∀ (id : Uuid) data envelope, s.manager.subscriptions[id]? = some data →
    envelope ∈ data.channel → envelope.eventId ∈ s.history.handed
  closed : ∀ (id : Uuid) channel envelope, s.closed[id]? = some channel →
    envelope ∈ channel → envelope.eventId ∈ s.history.handed
  busy : ∀ (id : Uuid) envelope, s.busy[id]? = some envelope → envelope.eventId ∈ s.history.handed
  completions : ∀ completion ∈ s.manager.registry.ackTx, completion.1 ∈ s.history.handed
  dispatching : ∀ envelope sends rest, s.worker = .dispatching envelope sends rest →
    envelope.eventId ∈ s.history.handed

/-- A step that leaves channels and handlers alone may hand events on. -/
theorem AllHanded.mono (h : s.AllHanded) (hmanager : s'.manager = s.manager)
    (hclosed : s'.closed = s.closed) (hbusy : s'.busy = s.busy)
    (hhanded : s.history.handed ⊆ s'.history.handed)
    (hdispatching : ∀ envelope sends rest, s'.worker = .dispatching envelope sends rest →
      envelope.eventId ∈ s'.history.handed) : s'.AllHanded where
  channel id data envelope := by
    rw [hmanager]
    exact fun hdata hmem => hhanded (h.channel id data envelope hdata hmem)
  closed id channel envelope := by
    rw [hclosed]
    exact fun hget hmem => hhanded (h.closed id channel envelope hget hmem)
  busy id envelope := by
    rw [hbusy]
    exact fun hget => hhanded (h.busy id envelope hget)
  completions completion := by
    rw [hmanager]
    exact fun hmem => hhanded (h.completions completion hmem)
  dispatching := hdispatching

theorem AllHanded.of_sameHandling (h : s.AllHanded) (hsame : SameHandling s s') :
    s'.AllHanded := by
  refine h.mono hsame.manager hsame.closed hsame.busy
    (by rw [hsame.history]; exact List.Subset.refl _) ?_
  rw [hsame.worker, hsame.history]
  exact h.dispatching

/-- A process that is just started, on a database with any history. -/
theorem allHanded_crash (s : PersistentBus) : (s.crash json config).AllHanded where
  channel := by simp [crash, boot]
  closed := by simp [crash, boot]
  busy := by simp [crash, boot]
  completions := by simp [crash, boot, RedbRegistry.new]
  dispatching := by simp [crash, boot]

/-- A channel is opened, or keeps only events that were handed on. -/
theorem AllHanded.insertChannel (h : s.AllHanded) (id : Uuid) (data : SubscriptionData)
    (hdata : ∀ envelope ∈ data.channel, envelope.eventId ∈ s.history.handed) :
    { s with manager := { s.manager with
      subscriptions := s.manager.subscriptions.insert id data } }.AllHanded where
  channel id' data' envelope hget hmem := by
    simp only [Std.ExtTreeMap.getElem?_insert] at hget
    split at hget
    · cases hget
      exact hdata envelope hmem
    · exact h.channel id' data' envelope hget hmem
  closed := h.closed
  busy := h.busy
  completions := h.completions
  dispatching := h.dispatching

theorem AllHanded.eraseChannel (h : s.AllHanded) (id : Uuid) :
    { s with manager := { s.manager with
      subscriptions := s.manager.subscriptions.erase id } }.AllHanded where
  channel id' data envelope hget hmem := by
    simp only [Std.ExtTreeMap.getElem?_erase] at hget
    split at hget
    · cases hget
    · exact h.channel id' data envelope hget hmem
  closed := h.closed
  busy := h.busy
  completions := h.completions
  dispatching := h.dispatching

/-- What is left to a handler task whose sender is dropped was handed on. -/
theorem AllHanded.setClosed (h : s.AllHanded) (closed : DashMap Uuid (List EventEnvelope))
    (hclosed : ∀ (id : Uuid) channel, closed[id]? = some channel →
      (∃ data, s.manager.subscriptions[id]? = some data ∧ channel ⊆ data.channel) ∨
        ∃ old, s.closed[id]? = some old ∧ channel ⊆ old) :
    { s with closed := closed }.AllHanded where
  channel := h.channel
  closed id channel envelope hget hmem := by
    rcases hclosed id channel hget with ⟨data, hdata, hsub⟩ | ⟨old, hold, hsub⟩
    · exact h.channel id data envelope hdata (hsub hmem)
    · exact h.closed id old envelope hold (hsub hmem)
  busy := h.busy
  completions := h.completions
  dispatching := h.dispatching

/-- A handler takes up an event that was handed on. -/
theorem AllHanded.insertBusy (h : s.AllHanded) (id : Uuid) {envelope : EventEnvelope}
    (hhanded : envelope.eventId ∈ s.history.handed) :
    { s with busy := s.busy.insert id envelope }.AllHanded where
  channel := h.channel
  closed := h.closed
  busy id' envelope' hget := by
    simp only [Std.ExtTreeMap.getElem?_insert] at hget
    split at hget
    · cases hget
      exact hhanded
    · exact h.busy id' envelope' hget
  completions := h.completions
  dispatching := h.dispatching

theorem AllHanded.eraseBusy (h : s.AllHanded) (id : Uuid) :
    { s with busy := s.busy.erase id }.AllHanded where
  channel := h.channel
  closed := h.closed
  busy id' envelope hget := by
    simp only [Std.ExtTreeMap.getElem?_erase] at hget
    split at hget
    · cases hget
    · exact h.busy id' envelope hget
  completions := h.completions
  dispatching := h.dispatching

/-- The registry may change as long as its completions name events that were handed on. -/
theorem AllHanded.setRegistry (h : s.AllHanded) (registry : RedbRegistry)
    (hcompletions : ∀ completion ∈ registry.ackTx, completion.1 ∈ s.history.handed) :
    { s with manager := { s.manager with registry := registry } }.AllHanded where
  channel := h.channel
  closed := h.closed
  busy := h.busy
  completions := hcompletions
  dispatching := h.dispatching

theorem AllHanded.stepHandler {a : HandlerAction} (hI : s.AllHanded)
    (h : s.stepHandler a = some s') : s'.AllHanded := by
  cases a with
  | registry op =>
    cases h
    refine hI.setRegistry _ ?_
    rw [ackTx_apply]
    exact hI.completions
  | openChannel id =>
    obtain ⟨-, rfl⟩ := openChannel_cases h
    exact hI.insertChannel id _ (by simp)
  | removeChannel id =>
    cases h
    exact hI.eraseChannel id
  | closeChannel id =>
    obtain ⟨data, hdata, rfl⟩ := closeChannel_cases h
    have hclosed : { s with
        closed := if data.live then s.closed.insert id data.channel else s.closed }.AllHanded := by
      refine hI.setClosed _ fun id' channel hget => ?_
      split at hget
      · rw [Std.ExtTreeMap.getElem?_insert] at hget
        split at hget
        · rename_i heq
          obtain rfl : id = id' := by simpa using heq
          cases hget
          exact .inl ⟨data, hdata, List.Subset.refl _⟩
        · exact .inr ⟨channel, hget, List.Subset.refl _⟩
      · exact .inr ⟨channel, hget, List.Subset.refl _⟩
    exact hclosed.eraseChannel id
  | take id =>
    -- the head of the channel becomes the event the handler works on
    obtain ⟨-, envelope, rest, ⟨hdata, rfl⟩ | ⟨hclosed, rfl⟩⟩ := handlerTake_cases h
    · have hchannel : ∀ envelope' ∈ envelope :: rest, envelope'.eventId ∈ s.history.handed :=
        fun envelope' => hI.channel id _ envelope' hdata
      exact (hI.insertChannel id ⟨rest, true⟩
        fun envelope' hmem => hchannel envelope' (List.mem_cons_of_mem _ hmem)).insertBusy id
          (hchannel envelope (List.mem_cons_self ..))
    · have hhanded := hI.closed id _ envelope hclosed (List.mem_cons_self ..)
      have hrest : { s with closed := s.closed.insert id rest }.AllHanded := by
        refine hI.setClosed _ fun id' channel hget => .inr ?_
        rw [Std.ExtTreeMap.getElem?_insert] at hget
        split at hget
        · rename_i heq
          obtain rfl : id = id' := by simpa using heq
          cases hget
          exact ⟨_, hclosed, List.subset_cons_self _ _⟩
        · exact ⟨channel, hget, List.Subset.refl _⟩
      exact hrest.insertBusy id hhanded
  | complete id isSuccess =>
    obtain ⟨envelope, registry, hget, hack, -, rfl⟩ := handlerComplete_cases h
    refine (hI.eraseBusy id).setRegistry _ fun completion hmem => ?_
    -- the new completion names the event the handler had
    rw [hack] at hmem
    rcases List.mem_append.mp hmem with hold | hnew
    · exact hI.completions completion hold
    · rw [List.mem_singleton.mp hnew]
      exact hI.busy id envelope hget
  | exit id =>
    cases h
    unfold handlerExit
    have hclosed : { s with closed := s.closed.erase id }.AllHanded := by
      refine hI.setClosed _ fun id' channel hget => .inr ?_
      rw [Std.ExtTreeMap.getElem?_erase] at hget
      split at hget
      · cases hget
      · exact ⟨channel, hget, List.Subset.refl _⟩
    cases s.manager.subscriptions[id]? with
    | none => exact hclosed.eraseBusy id
    | some data => exact (hclosed.insertChannel id ⟨[], false⟩ (by simp)).eraseBusy id
  | ack commits =>
    obtain ⟨completion, rest, hack, rfl⟩ := ack_step_cases h
    exact ⟨hI.channel, hI.closed, hI.busy,
      fun completion' hmem => hI.completions completion' (hack ▸ List.mem_cons_of_mem _ hmem),
      hI.dispatching⟩

theorem AllHanded.stepWorker {a : WorkerAction} (hI : s.AllHanded)
    (h : s.stepWorker json config a = some s') : s'.AllHanded := by
  cases a with
  | recv =>
    obtain ⟨-, ⟨msg, rest, -, rfl⟩ | ⟨-, rfl⟩⟩ := recv_cases h
    · exact hI.mono rfl rfl rfl (List.Subset.refl _) (by simp)
    · exact hI.mono rfl rfl rfl (List.Subset.refl _) (by simp [stopWorker])
  | tryRecv =>
    obtain ⟨batch, msg, rest, -, -, rfl⟩ := tryRecv_cases h
    exact hI.mono rfl rfl rfl (List.Subset.refl _) (by simp)
  | check reads =>
    obtain ⟨batch, checked, -, -, rfl⟩ := check_cases h
    exact hI.mono rfl rfl rfl (List.Subset.refl _) (by simp)
  | count now =>
    obtain ⟨done, msg, rest, n, -, -, rfl⟩ := count_cases h
    exact hI.mono rfl rfl rfl (List.Subset.refl _) (by simp)
  | write faults =>
    obtain ⟨done, -, ⟨-, rfl⟩ | ⟨msg, -, rfl⟩ | ⟨-, rfl⟩⟩ := write_cases h
    all_goals exact hI.mono rfl rfl rfl (List.Subset.refl _) (by simp)
  | deliver now =>
    obtain ⟨-, rfl⟩ | ⟨msg, rest, -, ⟨-, rfl⟩ | ⟨-, rfl⟩⟩ := deliver_cases h
    · exact hI.mono rfl rfl rfl (List.Subset.refl _) (by simp)
    · exact hI.mono rfl rfl rfl (List.Subset.refl _) (by simp)
    · -- the event is recorded as the worker enters `dispatch`
      refine hI.mono rfl rfl rfl (List.subset_append_left _ _) ?_
      rintro envelope sends rest ⟨⟩
      exact List.mem_append_right _ (List.mem_singleton_self _)
  | push id =>
    obtain ⟨envelope, sends, rest, hphase, -, rfl⟩ := push_cases h
    have hhanded := hI.dispatching envelope sends rest hphase
    refine ⟨fun id' data envelope' hdata hmem => ?_,
      fun id' channel envelope' hchannel hmem => ?_, hI.busy, hI.completions, ?_⟩
    · -- what is in a channel was there before or is the event being dispatched
      rw [SubscriptionManager.getElem?_push] at hdata
      obtain ⟨data₀, hdata₀, rfl⟩ := Option.map_eq_some_iff.mp hdata
      split at hmem
      · rcases List.mem_append.mp hmem with hold | hnew
        · exact hI.channel id' data₀ envelope' hdata₀ hold
        · rw [List.mem_singleton.mp hnew]
          exact hhanded
      · exact hI.channel id' data₀ envelope' hdata₀ hmem
    · rcases mem_pushClosed hchannel hmem with ⟨before, hbefore, hold⟩ | rfl
      · exact hI.closed id' before envelope' hbefore hold
      · exact hhanded
    · rintro envelope' sends' rest' ⟨⟩
      exact hhanded
  | dispatched =>
    obtain ⟨envelope, sends, rest, -, rfl⟩ := dispatched_cases h
    exact hI.mono rfl rfl rfl (List.Subset.refl _) (by simp)
  | panic =>
    obtain ⟨-, rfl⟩ := workerPanic_cases h
    exact hI.mono rfl rfl rfl (List.Subset.refl _) (by simp [stopWorker])

theorem AllHanded.stepControl {a : ControlAction} (hI : s.AllHanded)
    (h : s.stepControl json config a = some s') : s'.AllHanded := by
  cases a with
  | start =>
    simp only [PersistentBus.stepControl, start] at h
    repeat' split at h
    all_goals cases h
    · exact hI
    · exact hI.mono rfl rfl rfl (List.Subset.refl _) (by simp)
    · exact hI.mono rfl rfl rfl (List.Subset.refl _) (by simp)
    · exact hI.mono rfl rfl rfl (List.Subset.refl _) hI.dispatching
  | stop =>
    simp only [PersistentBus.stepControl, stop] at h
    split at h <;> cases h
    exact hI.mono rfl rfl rfl (List.Subset.refl _) hI.dispatching
  | abortScheduler =>
    simp only [PersistentBus.stepControl, abortScheduler] at h
    split at h <;> cases h
    exact hI.mono rfl rfl rfl (List.Subset.refl _) hI.dispatching
  | closeSender =>
    simp only [PersistentBus.stepControl, closeSender] at h
    split at h <;> cases h
    exact hI.mono rfl rfl rfl (List.Subset.refl _) hI.dispatching
  | joinWorker =>
    simp only [PersistentBus.stepControl, joinWorker] at h
    split at h <;> cases h
    exact hI.mono rfl rfl rfl (List.Subset.refl _) hI.dispatching
  | crash =>
    cases h
    exact allHanded_crash s

/-- **One step** keeps the invariant. -/
theorem AllHanded.step {a : Action} (hI : s.AllHanded) (h : step json config s a = some s') :
    s'.AllHanded := by
  cases a with
  | publisher a => exact hI.of_sameHandling (stepPublisher_frame h).2
  | worker a => exact hI.stepWorker h
  | scheduler a => exact hI.of_sameHandling (stepScheduler_frame h).2.1
  | handler a => exact hI.stepHandler h
  | replay a => exact hI.of_sameHandling (stepReplay_frame h).2.1
  | control a => exact hI.stepControl h

/-! ## Survival -/

/-- Each scheduled event that has not been handed on is stored. -/
def Survives (json : SerdeJson) (s : PersistentBus) : Prop :=
  ∀ e ∈ s.history.scheduled, e ∉ s.history.handed → s.db.Stored json e

/-- The step does not take the last stored copy of a scheduled event that has not been
    handed on. -/
def Keeps (json : SerdeJson) (s : PersistentBus) : Action → Prop
  | .scheduler a => ∀ nowMs, s.pollTime a = some nowMs →
    ∀ e ∈ s.history.scheduled, e ∉ s.history.handed →
      (∃ ts ≤ nowMs, s.db.HasScheduled json ts e) →
      s.db.HasEvent json e ∨ ∃ ts, nowMs < ts ∧ s.db.HasScheduled json ts e
  | .replay a => ∀ dead, s.collected a = some dead →
    ∀ e ∈ s.history.scheduled, e ∉ s.history.handed → e ∈ dead →
      s.db.HasEvent json e → ∃ ts, s.db.HasScheduled json ts e
  | _ => True

theorem survives_scheduler_iff {a : SchedulerAction} (hP : s.Survives json)
    (h : s.stepScheduler json a = some s') :
    s'.Survives json ↔ s.Keeps json (.scheduler a) := by
  obtain ⟨hdb, hsame, -⟩ := stepScheduler_frame h
  simp only [Survives, Keeps, hdb, hsame.history]
  cases s.pollTime a with
  | none => exact iff_of_true hP (by simp)
  | some nowMs =>
    -- the condition decides the events with a due row; the others keep theirs
    simp only [Option.elim_some, Db.stored_poll_iff, Option.some.injEq, forall_eq']
    refine forall₃_congr fun e hscheduled hunhanded => ⟨fun h _ => h, fun h => ?_⟩
    by_cases hdue : ∃ ts ≤ nowMs, s.db.HasScheduled json ts e
    · exact h hdue
    · refine (hP e hscheduled hunhanded).imp_right ?_
      rintro ⟨ts, hrow⟩
      exact ⟨ts, Nat.lt_of_not_le fun hle => hdue ⟨ts, hle, hrow⟩, hrow⟩

theorem survives_replay_iff {a : ReplayAction} (hP : s.Survives json)
    (h : s.stepReplay json a = some s') : s'.Survives json ↔ s.Keeps json (.replay a) := by
  obtain ⟨⟨envelopes, hdb⟩, hsame, -⟩ := stepReplay_frame h
  simp only [Survives, Keeps, hdb, hsame.history]
  cases s.collected a with
  | none => exact iff_of_true hP (by simp)
  | some dead =>
    simp only [Option.elim_some, Db.stored_collectDead_iff, Option.some.injEq, forall_eq']
    refine forall₃_congr fun e hscheduled hunhanded => ?_
    rcases hP e hscheduled hunhanded with hevent | hlater
    · by_cases hdead : e ∈ dead <;> simp [hdead, hevent]
    · exact iff_of_true (.inr hlater) fun _ _ => hlater

/-- **One step** from a state in which all scheduled events survive: they still do if
    and only if the step does not take the last copy of one. -/
theorem step_survives_iff {a : Action} (hI : s.AllHanded) (hP : s.Survives json)
    (h : step json config s a = some s') : s'.Survives json ↔ s.Keeps json a := by
  cases a with
  | publisher a =>
    obtain ⟨hdb, hsame⟩ := stepPublisher_frame h
    refine iff_of_true ?_ trivial
    unfold Survives
    rw [hdb, hsame.history]
    exact hP
  | worker a =>
    refine iff_of_true (fun e hscheduled hunhanded => ?_) trivial
    obtain ⟨hhanded, ⟨hdb, hold, -⟩ | ⟨done, hdb, hnew, -⟩⟩ := stepWorker_db h
    · rw [hdb]
      exact hP e (hold ▸ hscheduled) fun hmem => hunhanded (hhanded hmem)
    · rw [hdb]
      have hrows : ∀ row ∈ rowsOf json done, (json.fromSlice row.bytes).isSome = true :=
        fun row => decodable_rowsOf
      rw [hnew] at hscheduled
      -- rows are only added, and an event newly scheduled has one of them
      rcases List.mem_append.mp hscheduled with hold | hrow
      · exact (hP e hold fun hmem => hunhanded (hhanded hmem)).insertRows hrows
      · obtain ⟨row, hmem, rfl⟩ := List.mem_map.mp hrow
        exact Db.stored_insertRows_of_mem (List.mem_filter.mp hmem).1 hrows
  | scheduler a => exact survives_scheduler_iff hP h
  | handler a =>
    refine iff_of_true (fun e hscheduled hunhanded => ?_) trivial
    obtain ⟨hdb, -, hhistory, -⟩ := stepHandler_frame h
    rw [hhistory] at hscheduled hunhanded
    have hstored := hP e hscheduled hunhanded
    rcases hdb with hdb | ⟨completion, hmem, hdb⟩
    · rw [hdb]
      exact hstored
    · -- a completion erases only an event that has been handed on
      rw [hdb]
      exact hstored.ack fun heq => hunhanded (heq ▸ hI.completions completion hmem)
  | replay a => exact survives_replay_iff hP h
  | control a =>
    obtain ⟨hdb, hhistory⟩ := stepControl_frame h
    refine iff_of_true ?_ trivial
    unfold Survives
    rw [hdb, hhistory]
    exact hP

/-- **When scheduled events survive.** In a run of the bus from any database, every
    scheduled event that has not been handed on is stored at every point if and only if
    no poll that commits finds a due row that is the event's last copy, and no garbage
    collection that commits removes the event's last copy. -/
theorem scheduledEvents_survive_iff (json : SerdeJson) (config : BusConfig) (db : Db)
    (as : List Action) (s : PersistentBus)
    (hrun : exec json config (boot json config db) as = some s) :
    Transition.Throughout (PersistentBus.step json config) (Survives json)
        (boot json config db) as
      ↔ Transition.Along (PersistentBus.step json config) (Keeps json)
        (boot json config db) as := by
  have hI : (boot json config db).AllHanded :=
    ⟨by simp [boot], by simp [boot], by simp [boot], by simp [boot, RedbRegistry.new],
      by simp [boot]⟩
  have hP : (boot json config db).Survives json :=
    fun e hscheduled _ => .inr (Db.mem_scheduledIds.mp hscheduled)
  exact Transition.throughout_iff_along (I := AllHanded) (fun _ _ _ hI h => hI.step h)
    (fun _ _ _ hI hP h => step_survives_iff hI hP h) hI hP hrun

/-- An order to be delivered one millisecond after the epoch. -/
def delayedOrder : EventEnvelope :=
  .fromSerialized 1 "OrderEvent" { eventId := 7, timestamp := 0, deliverAt := some 1000000 }
    .normal []

/-- The codec that knows the order. -/
def delayedJson : SerdeJson := .ofList [⟨"OrderEvent", delayedOrder.metadata, .normal, []⟩]

/-- The order is published and stored before it is due, and the process dies. -/
def storeAndCrash : List Action :=
  [.handler (.registry (.register 1 "OrderEvent" { id := 10 })), .control .start,
    .publisher (.dispatch delayedOrder), .worker .recv, .worker (.check fun _ => true),
    .worker (.count 0), .worker (.write noFaults), .worker (.deliver 0), .control .crash]

/-- A crash long before the order is due does not lose it. -/
theorem scheduledEvents_survive_storeAndCrash :
    Transition.Throughout (PersistentBus.step delayedJson {}) (Survives delayedJson)
      (boot delayedJson {} .empty) storeAndCrash := by
  refine (scheduledEvents_survive_iff delayedJson {} .empty storeAndCrash
    (after delayedJson {} (boot delayedJson {} .empty) storeAndCrash) rfl).mpr ?_
  iterate 9 refine ⟨trivial, fun _ _ => ?_⟩
  trivial

/-- A database whose one scheduled order is due at the first poll. -/
def dueOrder : Db :=
  { Db.empty with scheduledEvents := (∅ : Table (Nat × Uuid) Bytes).insert (1, 7) [] }

/-- The restarted bus polls before anyone has subscribed to `OrderEvent`, and crashes. -/
def pollAndCrash : List Action :=
  [.control .start, .scheduler (.wake 2000000), .scheduler (.poll true), .control .crash]

/-- The bus after that. -/
def orderLost : PersistentBus := after delayedJson {} (boot delayedJson {} dueOrder) pollAndCrash

/-- The due order is lost: it has not been handed on and no table has it. -/
theorem not_survives_pollAndCrash :
    ¬ ∀ as s, exec delayedJson {} (boot delayedJson {} dueOrder) as = some s →
      s.Survives delayedJson := by
  intro h
  rcases h pollAndCrash orderLost rfl 7 (by decide) (by decide) with ⟨bytes, hrow, -⟩ | hrow
  · have hnone : orderLost.db.events[(7 : Uuid)]? = none := by decide
    cases hnone.symm.trans hrow
  · have hnone : 7 ∉ orderLost.db.scheduledIds delayedJson := by decide
    exact hnone (Db.mem_scheduledIds.mpr hrow)

end PersistentBus
end TokioEvents
