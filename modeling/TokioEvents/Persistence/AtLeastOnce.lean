/-
  TokioEvents.Persistence.AtLeastOnce

  How long the row of an event stays in `EVENTS_TABLE`.  It is inserted with the number
  of subscriptions counted for the event, and every handler that is done with the event
  has the ack worker count it down once, so it should stay until the last of them is.

  Crashes and failed transactions lose acknowledgements, which keeps rows too long but
  never removes one early.  What does is the cast of the count to `u32`: with more than
  `2 ^ 32` subscriptions the row is stored with the remainder and removed after so many
  acknowledgements.
-/

import TokioEvents.Persistence.Bus.Crowd
import TokioEvents.Persistence.Bus.Tickets
import TokioEvents.Persistence.Rows

namespace TokioEvents

/-- Every committed event has its row, with a positive refcount, as long as some counted
    subscription has not finished it. -/
def AtLeastOnce (db : Db) (log : Log) : Prop :=
  ∀ e ∈ log.committed, ∀ i, (i, e) ∈ log.counted → (i, e) ∉ log.finished →
    (db.events[e]?).isSome = true ∧ ∃ refcount, db.refcount[e]? = some refcount ∧ 0 < refcount

namespace PersistentBus

variable {json : SerdeJson} {config : BusConfig} {s s' : PersistentBus} {log : Log}

/-! ## The conditions -/

/-- What is promised of a step: published events are unscheduled and of ids of their own,
    there is no replay call, and subscriptions do not change while a message is between
    its count and its dispatch. -/
def Ordinary (s : PersistentBus) (log : Log) : Action → Prop
  | .publisher (.dispatch envelope) =>
    envelope.metadata.deliverAt = none ∧ envelope.eventId ∉ log.published
  | .publisher (.tryDispatch envelope) =>
    envelope.metadata.deliverAt = none ∧ envelope.eventId ∉ log.published
  | .replay _ => False
  | a => s.KeepsSubscriptions a

/-- A message whose type has `2 ^ 32` subscriptions or more is counted as having none. -/
def CountsAll (s : PersistentBus) : Action → Prop
  | .worker (.count _) => ∀ done msg rest, s.worker = .counting done (msg :: rest) →
    (s.listed msg.envelope.typeId).length < 2 ^ 32 ∨
      2 ^ 32 ∣ (s.listed msg.envelope.typeId).length
  | _ => True

/-- Both hold of the step. -/
def KeepsRows (s : PersistentBus × Log) (a : Action) : Prop :=
  s.1.Ordinary s.2 a ∧ s.1.CountsAll a

instance (s : PersistentBus) (log : Log) : (a : Action) → Decidable (s.Ordinary log a)
  | .publisher (.dispatch _) => inferInstanceAs (Decidable (_ ∧ _))
  | .publisher (.tryDispatch _) => inferInstanceAs (Decidable (_ ∧ _))
  | .replay _ => isFalse id
  | .handler a => inferInstanceAs (Decidable (s.KeepsSubscriptions (.handler a)))
  | .publisher (.returns _) | .publisher (.cancel _) | .worker _ | .scheduler _ | .control _ =>
    isTrue trivial

instance (s : PersistentBus) : (a : Action) → Decidable (s.CountsAll a)
  | .worker (.count _) => inferInstanceAs (Decidable (∀ _ _ _, _ → _))
  | .worker .recv | .worker .tryRecv | .worker (.check _) | .worker (.write _)
  | .worker (.deliver _) | .worker (.push _) | .worker .dispatched | .worker .panic
  | .publisher _ | .scheduler _ | .handler _ | .replay _ | .control _ => isTrue trivial

instance (s : PersistentBus × Log) (a : Action) : Decidable (KeepsRows s a) :=
  inferInstanceAs (Decidable (_ ∧ _))

theorem Ordinary.keepsSubscriptions {a : Action} (h : s.Ordinary log a) :
    s.KeepsSubscriptions a := by
  cases a with
  | worker a => trivial
  | publisher a => trivial
  | scheduler a => trivial
  | handler a => exact h
  | replay a => trivial
  | control a => trivial

/-! ## Nothing is scheduled or replayed -/

/-- Messages come from publishers only, and none is scheduled. -/
structure Unscheduled (s : PersistentBus) : Prop where
  table : s.db.scheduledEvents = ∅
  sending : ∀ envelope rest, s.scheduler ≠ .sending envelope rest
  firing : ∀ persisted rest, s.scheduler ≠ .firing (persisted :: rest)
  replays : s.replays = []
  messages : ∀ msg ∈ s.messages, msg.envelope.metadata.deliverAt = none

/-- The row of an unscheduled message is not for the scheduler. -/
theorem unscheduled_rowsOf (json : SerdeJson) {done : List Counted}
    (h : ∀ counted ∈ done, counted.msg.envelope.metadata.deliverAt = none) :
    ∀ row ∈ rowsOf json done, row.isScheduled = false := by
  intro row hrow
  obtain ⟨counted, hmem, hprepare⟩ := List.mem_filterMap.mp hrow
  obtain ⟨-, bytes, -, rfl⟩ := prepare_eq_some.mp hprepare
  simp [EventEnvelope.isScheduled, h counted hmem]

/-- A poll of an empty table finds nothing. -/
theorem poll_of_empty (json : SerdeJson) {db : Db} (h : db.scheduledEvents = ∅) (nowMs : Nat) :
    (db.poll nowMs).scheduledEvents = ∅ ∧ db.readyEvents json nowMs = [] := by
  have hdue : db.dueRows nowMs = [] := by
    rw [List.eq_nil_iff_forall_not_mem]
    intro row hrow
    have hget := (Db.mem_dueRows.mp hrow).1
    rw [h] at hget
    simp at hget
  exact ⟨by simp [Db.poll, hdue, h], by simp [Db.readyEvents, hdue]⟩

theorem Unscheduled.stepWorker {a : WorkerAction} (hI : s.Unscheduled)
    (h : s.stepWorker json config a = some s') : s'.Unscheduled := by
  have hsame := stepWorker_sameTasks h
  refine ⟨?_, by rw [hsame.scheduler]; exact hI.sending, by rw [hsame.scheduler]; exact hI.firing,
    hsame.replays.trans hI.replays, fun msg hmem => hI.messages msg (messages_stepWorker h hmem)⟩
  rcases stepWorker_rows h with hdb | ⟨faults, done, -, hphase, -, hdb⟩
  · rw [hdb]
    exact hI.table
  · rw [hdb, Db.scheduledEvents_insertRows_of_unscheduled (unscheduled_rowsOf json ?_)]
    · exact hI.table
    · intro counted hmem
      refine hI.messages counted.msg ?_
      simp only [PersistentBus.messages, hphase, Worker.messages, List.append_nil, List.mem_append]
      exact .inr (List.mem_map_of_mem hmem)

theorem Unscheduled.stepScheduler {a : SchedulerAction} (hI : s.Unscheduled)
    (h : s.stepScheduler json a = some s') : s'.Unscheduled := by
  cases a with
  | wake now =>
    simp only [PersistentBus.stepScheduler, wake] at h
    repeat' split at h
    all_goals cases h
    all_goals exact ⟨hI.table, by simp, by simp, hI.replays, hI.messages⟩
  | poll commits =>
    simp only [PersistentBus.stepScheduler, poll] at h
    split at h
    · rename_i nowMs hphase
      cases commits with
      | false =>
        cases h
        exact ⟨hI.table, by simp, by simp, hI.replays, hI.messages⟩
      | true =>
        cases h
        obtain ⟨htable, hready⟩ := poll_of_empty json hI.table nowMs
        exact ⟨htable, by simp, by simp [hready], hI.replays, hI.messages⟩
    · cases h
  | fire =>
    simp only [PersistentBus.stepScheduler, fire] at h
    split at h
    · cases h
      exact ⟨hI.table, by simp, by simp, hI.replays, hI.messages⟩
    · rename_i persisted rest hphase
      exact absurd hphase (hI.firing persisted rest)
    · cases h
  | send =>
    simp only [PersistentBus.stepScheduler, schedulerSend] at h
    split at h
    · rename_i envelope rest hphase
      exact absurd hphase (hI.sending envelope rest)
    · cases h
  | orphanPoll index commits =>
    simp only [PersistentBus.stepScheduler, orphanPoll] at h
    split at h
    · rename_i nowMs hpoll
      cases commits with
      | false =>
        cases h
        exact ⟨hI.table, hI.sending, hI.firing, hI.replays, hI.messages⟩
      | true =>
        cases h
        exact ⟨(poll_of_empty json hI.table nowMs).1, hI.sending, hI.firing, hI.replays,
          hI.messages⟩
    · cases h

/-- **One step** schedules and replays nothing. -/
theorem Unscheduled.step {a : Action} (hI : s.Unscheduled)
    (h : PersistentBus.step json config s a = some s') (hC : s.Ordinary log a) :
    s'.Unscheduled := by
  cases a with
  | worker a => exact hI.stepWorker h
  | scheduler a => exact hI.stepScheduler h
  | replay a => exact absurd hC id
  | publisher a =>
    obtain ⟨hreplays, hscheduler, hqueue⟩ := stepPublisher_queue h
    obtain ⟨hdb, hsame⟩ := stepPublisher_frame h
    refine ⟨by rw [hdb]; exact hI.table, by rw [hscheduler]; exact hI.sending,
      by rw [hscheduler]; exact hI.firing, hreplays.trans hI.replays, fun msg hmem => ?_⟩
    rcases hqueue with hqueue | ⟨envelope, ackTx, ha, hqueue⟩
    · refine hI.messages msg ?_
      rwa [PersistentBus.messages, hqueue, hsame.worker] at hmem
    · rw [PersistentBus.messages, hqueue, hsame.worker, Mpsc.Channel.push_buffer] at hmem
      have hdeliver : envelope.metadata.deliverAt = none := by
        rcases ha with rfl | rfl
        · exact hC.1
        · exact hC.1
      rcases List.mem_append.mp hmem with hbuffer | hworker
      · rcases List.mem_append.mp hbuffer with hold | hnew
        · exact hI.messages msg (List.mem_append_left _ hold)
        · rw [List.mem_singleton.mp hnew]
          exact hdeliver
      · exact hI.messages msg (List.mem_append_right _ hworker)
  | handler a =>
    obtain ⟨hqueue, hreplays, hscheduler⟩ := stepHandler_sameInputs h
    obtain ⟨hdb, hworker, -, -⟩ := stepHandler_frame h
    refine ⟨?_, by rw [hscheduler]; exact hI.sending, by rw [hscheduler]; exact hI.firing,
      hreplays.trans hI.replays, ?_⟩
    · rcases hdb with hdb | ⟨completion, -, hdb⟩
      · rw [hdb]
        exact hI.table
      · rw [hdb, Db.scheduledEvents_ack]
        exact hI.table
    · rw [PersistentBus.messages, hqueue, hworker]
      exact hI.messages
  | control a =>
    by_cases hcrash : a = .crash
    · subst hcrash
      cases h
      exact ⟨hI.table, by simp [crash, boot], by simp [crash, boot], rfl,
        by simp [crash, boot, PersistentBus.messages, Mpsc.Channel.new, Worker.messages]⟩
    · have hsame := stepControl_sameWork h hcrash
      refine ⟨by rw [hsame.db]; exact hI.table, ?_, ?_, hsame.replays.trans hI.replays, ?_⟩
      · rcases hsame.scheduler with heq | heq | heq
        · rw [heq]
          exact hI.sending
        · simp [heq]
        · simp [heq]
      · rcases hsame.scheduler with heq | heq | heq
        · rw [heq]
          exact hI.firing
        · simp [heq]
        · simp [heq]
      · intro msg hmem
        rw [PersistentBus.messages, hsame.queue] at hmem
        rcases hsame.worker with heq | ⟨-, heq⟩
        · rw [heq] at hmem
          exact hI.messages msg hmem
        · rw [heq] at hmem
          exact hI.messages msg (List.mem_append_left _ (by simpa [Worker.messages] using hmem))

/-! ## Every event is counted once and handed on once -/

/-- An event has a ticket for having been published, and no other. -/
structure Tallies (json : SerdeJson) (s : PersistentBus) (log : Log) : Prop where
  published : log.published.Nodup
  tickets : ∀ e, tickets json s e + log.handed.count e ≤ log.published.count e
  uncounted : ∀ e, uncounted json s e + log.tallied.count e ≤ log.published.count e

/-- **One step** injects what it publishes. -/
theorem published_step (json : SerdeJson) (s' : PersistentBus) {a : Action} (hI : s.Unscheduled)
    (hC : s.Ordinary log a) (e : Uuid) :
    (injects json s a).count e + log.published.count e
      ≤ (record json s a s' log).published.count e := by
  cases a with
  | publisher a =>
    cases a with
    | dispatch envelope =>
      simp only [injects, record, List.count_append]
      omega
    | tryDispatch envelope =>
      simp only [injects, record, List.count_append]
      omega
    | returns call => simp [injects, record]
    | cancel call => simp [injects, record]
  | worker a =>
    have hsame : (record json s (.worker a) s' log).published = log.published := by
      cases a <;> simp only [record]
      all_goals repeat' split
      all_goals rfl
    rw [hsame]
    simp [injects]
  | scheduler a =>
    have hnone : injects json s (.scheduler a) = [] := by
      unfold injects
      split
      all_goals first
        | rfl
        | contradiction
        | split
          · exact absurd ‹_› (hI.sending _ _)
          · rfl
    rw [hnone]
    simp [record]
  | handler a => cases a <;> simp [injects, record]
  | replay a => exact absurd hC id
  | control a => simp [injects, record]

theorem Tallies.step {a : Action} (hI : s.Tallies json log) (hunscheduled : s.Unscheduled)
    (h : PersistentBus.step json config s a = some s') (hC : s.Ordinary log a) :
    s'.Tallies json (record json s a s' log) where
  published := by
    cases a with
    | publisher a =>
      cases a with
      | dispatch envelope => simpa [record] using hI.published.concat hC.2
      | tryDispatch envelope => simpa [record] using hI.published.concat hC.2
      | returns call => exact hI.published
      | cancel call => exact hI.published
    | worker a =>
      cases a <;> simp only [record]
      all_goals repeat' split
      all_goals exact hI.published
    | scheduler a => exact hI.published
    | handler a => cases a <;> exact hI.published
    | replay a => exact hI.published
    | control a => exact hI.published
  tickets e := by
    have hstep := tickets_step log h e
    have hpublished := published_step json s' hunscheduled hC e
    have htickets := hI.tickets e
    omega
  uncounted e := by
    have hstep := uncounted_step log h e
    have hpublished := published_step json s' hunscheduled hC e
    have huncounted := hI.uncounted e
    omega

/-- A message of the worker has its only ticket there, and was not handed on. -/
theorem Tallies.of_mem {msg : RedbDispatcherMessage} (h : s.Tallies json log)
    (hmem : msg ∈ s.worker.messages) :
    msg.envelope.eventId ∉ log.handed ∧
      messagesOf s.worker.messages msg.envelope.eventId = 1 := by
  have hpos := messagesOf_pos hmem
  have htickets := h.tickets msg.envelope.eventId
  have hone := List.nodup_iff_count_le_one.mp h.published msg.envelope.eventId
  simp only [PersistentBus.tickets] at htickets
  refine ⟨List.count_eq_zero.mp ?_, ?_⟩
  · omega
  · omega

/-- A message that is not counted yet is of an event that was never counted. -/
theorem Tallies.not_mem_tallied {msg : RedbDispatcherMessage} (h : s.Tallies json log)
    (hmem : msg ∈ s.worker.uncounted) : msg.envelope.eventId ∉ log.tallied := by
  have hpos := messagesOf_pos hmem
  have huncounted := h.uncounted msg.envelope.eventId
  have hone := List.nodup_iff_count_le_one.mp h.published msg.envelope.eventId
  simp only [PersistentBus.uncounted] at huncounted
  exact List.count_eq_zero.mp (by omega)

/-! ## What was counted -/

/-- Subscriptions counted for the event. -/
def countedOf (log : Log) (e : Uuid) : Nat := log.counted.countP fun pair => pair.2 == e

/-- What the worker and the log know of the events that were counted. -/
structure Counts (s : PersistentBus) (log : Log) : Prop where
  tallied : ∀ i e, (i, e) ∈ log.counted → e ∈ log.tallied
  committed : ∀ e ∈ log.committed, e ∈ log.tallied
  batch : ∀ msg ∈ s.worker.counted, msg.envelope.eventId ∈ log.tallied ∧
    ∀ i, (s.listed msg.envelope.typeId).count i ≤ log.counted.count (i, msg.envelope.eventId)
  stored : ∀ done rest, s.worker = .counting done rest → ∀ counted ∈ done,
    counted.subCount = 0 ∨ countedOf log counted.msg.envelope.eventId ≤ counted.subCount
  sent : ∀ i e, log.sent.count (i, e) ≤ log.counted.count (i, e)

theorem counts_boot (db : Db) : (boot json config db).Counts .empty where
  tallied := by simp [Log.empty]
  committed := by simp [Log.empty]
  batch := by simp [boot, Worker.counted, Worker.written]
  stored := by simp [boot]
  sent := by simp [Log.empty]

/-- A step that counts nothing. -/
theorem Counts.keep (h : s.Counts log) {log' : Log} (htallied : log'.tallied = log.tallied)
    (hcounted : log'.counted = log.counted) (hcommitted : ∀ e ∈ log'.committed, e ∈ log.tallied)
    (hsent : ∀ i e, log'.sent.count (i, e) ≤ log.counted.count (i, e))
    (hbatch : s'.worker.counted ⊆ s.worker.counted)
    (hlisted : s'.worker.counted ≠ [] → ∀ t, s'.listed t = s.listed t)
    (hstored : ∀ done rest, s'.worker = .counting done rest →
      done = [] ∨ s.worker = .counting done rest) : s'.Counts log' where
  tallied := by rw [htallied, hcounted]; exact h.tallied
  committed := by rw [htallied]; exact hcommitted
  batch msg hmem := by
    rw [htallied, hcounted, hlisted (List.ne_nil_of_mem hmem)]
    exact h.batch msg (hbatch hmem)
  stored done rest hphase counted hmem := by
    rcases hstored done rest hphase with rfl | hsame
    · cases hmem
    · rw [countedOf, hcounted]
      exact h.stored done rest hsame counted hmem
  sent := by rw [hcounted]; exact hsent

theorem countedOf_append (log : Log) (ids : List Uuid) (e e' : Uuid) :
    (log.counted ++ withEvent ids e).countP (fun pair => pair.2 == e')
      = countedOf log e' + if e = e' then ids.length else 0 := by
  rw [List.countP_append, countP_withEvent, countedOf]

/-- A message is counted for the first time, with every subscription of its type. -/
theorem Counts.count {now : DateTime} (hI : s.Counts log) (htallies : s.Tallies json log)
    (h : s.count config now = some s') (hC : s.CountsAll (.worker (.count now))) :
    s'.Counts (record json s (.worker (.count now)) s' log) := by
  obtain ⟨done, msg, rest, n, hphase, hn, rfl⟩ := count_cases h
  set e := msg.envelope.eventId
  set ids := s.listed msg.envelope.typeId
  have hfresh : e ∉ log.tallied :=
    htallies.not_mem_tallied (by rw [hphase]; exact List.mem_cons_self)
  have hnone : countedOf log e = 0 := by
    rw [countedOf, List.countP_eq_zero]
    rintro ⟨i, e'⟩ hmem heq
    obtain rfl : e' = e := by simpa using heq
    exact hfresh (hI.tallied i _ hmem)
  have hbatch : ∀ counted ∈ done, counted.msg ∈ s.worker.counted := by
    intro counted hmem
    rw [hphase]
    exact List.mem_map_of_mem hmem
  have hother : ∀ counted ∈ done, e ≠ counted.msg.envelope.eventId := by
    intro counted hmem heq
    exact hfresh (heq ▸ (hI.batch counted.msg (hbatch counted hmem)).1)
  simp only [record, hphase]
  refine ⟨fun i e' hmem => ?_, fun e' hmem => ?_, fun msg' hmem => ?_,
    fun done' rest' heq counted hmem => ?_, fun i e' => ?_⟩
  · rcases List.mem_append.mp hmem with hold | hnew
    · exact List.mem_append_left _ (hI.tallied i e' hold)
    · obtain ⟨-, rfl⟩ := mem_withEvent.mp hnew
      exact List.mem_append_right _ List.mem_cons_self
  · exact List.mem_append_left _ (hI.committed e' hmem)
  · simp only [Worker.counted, List.map_append, List.map_cons, List.map_nil] at hmem
    rcases List.mem_append.mp hmem with hold | hnew
    · obtain ⟨hmem', hcount⟩ := hI.batch msg' (by rw [hphase]; exact hold)
      refine ⟨List.mem_append_left _ hmem', fun i => ?_⟩
      rw [List.count_append]
      exact (hcount i).trans (Nat.le_add_right _ _)
    · obtain rfl := List.mem_singleton.mp hnew
      refine ⟨List.mem_append_right _ List.mem_cons_self, fun i => ?_⟩
      rw [List.count_append, count_withEvent, if_pos rfl]
      exact Nat.le_add_left _ _
  · cases heq
    rw [countedOf, countedOf_append]
    rcases List.mem_append.mp hmem with hold | hnew
    · rw [if_neg (hother counted hold), Nat.add_zero]
      exact hI.stored done (msg :: rest) hphase counted hold
    · obtain rfl := List.mem_singleton.mp hnew
      rw [if_pos rfl, hnone, Nat.zero_add]
      have hlength : ids.length
          = (s.manager.registry.inner.entries msg.envelope.typeId).length := List.length_map _
      rw [RedbRegistry.subCount, ← hlength] at hn
      rcases hC done msg rest hphase with hsmall | hdvd
      · exact .inr (by rw [hn, Nat.mod_eq_of_lt hsmall])
      · exact .inl (by rw [hn, Nat.mod_eq_zero_of_dvd hdvd])
  · rw [List.count_append]
    exact (hI.sent i e').trans (Nat.le_add_right _ _)

/-- `dispatch` selects among the subscriptions that were counted, and once. -/
theorem Counts.deliver {now : DateTime} (hI : s.Counts log) (haccounts : s.Accounts log)
    (htallies : s.Tallies json log) (h : s.deliver now = some s') :
    s'.Counts (record json s (.worker (.deliver now)) s' log) := by
  obtain ⟨hphase, rfl⟩ | ⟨msg, rest, hphase, ⟨hscheduled, rfl⟩ | ⟨hdue, rfl⟩⟩ := deliver_cases h
  · simp only [record, hphase]
    exact hI.keep rfl rfl hI.committed hI.sent (List.nil_subset _) (fun _ _ => rfl) (by simp)
  · simp only [record, hphase, hscheduled, ↓reduceIte]
    refine hI.keep rfl rfl hI.committed hI.sent ?_ (fun _ _ => rfl) (by simp)
    simp [hphase, Worker.counted, Worker.written]
  · simp only [record, hphase, hdue, Bool.false_eq_true, ↓reduceIte]
    have hmem : msg ∈ s.worker.counted := by
      rw [hphase]
      exact List.mem_cons_self
    refine hI.keep rfl rfl hI.committed (fun i e => ?_) ?_ (fun _ _ => rfl) (by simp)
    · rw [List.count_append, count_withEvent]
      by_cases he : msg.envelope.eventId = e
      · subst he
        have hfresh := (htallies.of_mem (by rw [hphase]; exact List.mem_cons_self)).1
        rw [if_pos rfl, (haccounts.untouched hfresh).sent i, Nat.zero_add]
        exact (senders_count_le s msg.envelope i).trans ((hI.batch msg hmem).2 i)
      · rw [if_neg he]
        exact hI.sent i e
    · simp [hphase, Worker.counted, Worker.written]

theorem Counts.stepWorker {a : WorkerAction} (hI : s.Counts log) (haccounts : s.Accounts log)
    (htallies : s.Tallies json log) (h : s.stepWorker json config a = some s')
    (hC : s.CountsAll (.worker a)) : s'.Counts (record json s (.worker a) s' log) := by
  cases a with
  | count now => exact hI.count htallies h hC
  | deliver now => exact hI.deliver haccounts htallies h
  | recv =>
    obtain ⟨-, ⟨msg, rest, -, rfl⟩ | ⟨-, rfl⟩⟩ := recv_cases h
    · exact hI.keep rfl rfl hI.committed hI.sent (List.nil_subset _) (fun _ _ => rfl) (by simp)
    · exact hI.keep rfl rfl hI.committed hI.sent (List.nil_subset _) (fun _ _ => rfl)
        (by simp [stopWorker])
  | tryRecv =>
    obtain ⟨batch, msg, rest, -, -, rfl⟩ := tryRecv_cases h
    exact hI.keep rfl rfl hI.committed hI.sent (List.nil_subset _) (fun _ _ => rfl) (by simp)
  | check reads =>
    obtain ⟨batch, checked, -, -, rfl⟩ := check_cases h
    exact hI.keep rfl rfl hI.committed hI.sent (List.nil_subset _) (fun _ _ => rfl)
      (by simp [eq_comm])
  | write faults =>
    obtain ⟨done, hphase, ⟨hres, rfl⟩ | ⟨msg, hres, rfl⟩ | ⟨hres, rfl⟩⟩ := write_cases h
    · simp only [record, hphase, hres, ↓reduceIte]
      refine hI.keep rfl rfl (fun e hmem => ?_) hI.sent ?_ (fun _ _ => rfl) (by simp)
      · rcases List.mem_append.mp hmem with hold | hnew
        · exact hI.committed e hold
        · obtain ⟨row, hrow, rfl⟩ := List.mem_map.mp hnew
          obtain ⟨counted, hdone, hprepare⟩ :=
            List.mem_filterMap.mp (List.mem_filter.mp hrow).1
          obtain ⟨-, bytes, -, rfl⟩ := prepare_eq_some.mp hprepare
          exact (hI.batch counted.msg (by rw [hphase]; exact List.mem_map_of_mem hdone)).1
      · simp [hphase, Worker.counted, Worker.written]
    · simp only [record, hphase, hres, reduceCtorEq, ↓reduceIte]
      refine hI.keep rfl rfl hI.committed hI.sent ?_ (fun _ _ => rfl) (by simp)
      simp [hphase, Worker.counted, Worker.written]
    · simp only [record, hphase, hres, reduceCtorEq, ↓reduceIte]
      exact hI.keep rfl rfl hI.committed hI.sent (List.nil_subset _) (fun _ _ => rfl) (by simp)
  | push id =>
    obtain ⟨envelope, sends, rest, hphase, -, rfl⟩ := push_cases h
    refine hI.keep rfl rfl hI.committed hI.sent ?_ (fun _ _ => rfl) (by simp)
    simp [hphase, Worker.counted, Worker.written]
  | dispatched =>
    obtain ⟨envelope, sends, rest, hphase, rfl⟩ := dispatched_cases h
    refine hI.keep rfl rfl hI.committed hI.sent ?_ (fun _ _ => rfl) (by simp)
    simp [hphase, Worker.counted, Worker.written]
  | panic =>
    obtain ⟨-, rfl⟩ := workerPanic_cases h
    exact hI.keep rfl rfl hI.committed hI.sent (List.nil_subset _) (fun _ _ => rfl)
      (by simp [stopWorker])

/-- **One step** counts every subscription. -/
theorem Counts.step {a : Action} (hI : s.Counts log) (haccounts : s.Accounts log)
    (htallies : s.Tallies json log) (h : PersistentBus.step json config s a = some s')
    (hC : KeepsRows (s, log) a) : s'.Counts (record json s a s' log) := by
  by_cases hworker : ∃ b, a = .worker b
  · obtain ⟨b, rfl⟩ := hworker
    exact hI.stepWorker haccounts htallies h hC.2
  · have hnot : ∀ b, a ≠ .worker b := fun b hb => hworker ⟨b, hb⟩
    obtain ⟨htallied, hcounted, hcommitted, -, hsent⟩ :=
      record_of_not_worker json s s' log hnot
    have hkeep : s'.worker.counted ⊆ s.worker.counted →
        (s'.worker.counted ≠ [] → ∀ t, s'.listed t = s.listed t) →
        (∀ done rest, s'.worker = .counting done rest →
          done = [] ∨ s.worker = .counting done rest) → s'.Counts (record json s a s' log) :=
      hI.keep htallied hcounted (by rw [hcommitted]; exact hI.committed)
        (by rw [hsent]; exact hI.sent)
    by_cases hcrash : a = .control .crash
    · subst hcrash
      cases h
      exact hI.keep rfl rfl hI.committed hI.sent (List.nil_subset _) (fun hsome => absurd rfl hsome)
        (by simp [crash, boot])
    · rcases worker_of_not_worker h hnot with heq | hidle | hidle
      · refine hkeep (by rw [heq]; exact List.Subset.refl _)
          (fun hsome => listed_step h hC.1.keepsSubscriptions (heq ▸ hsome) hcrash)
          fun done rest hphase => .inr (heq ▸ hphase)
      · refine hkeep (by rw [hidle]; exact List.nil_subset _) (fun hsome => ?_) (by simp [hidle])
        rw [hidle] at hsome
        exact absurd rfl hsome
      · refine hkeep (by rw [hidle]; exact List.nil_subset _) (fun hsome => ?_) (by simp [hidle])
        rw [hidle] at hsome
        exact absurd rfl hsome

/-! ## The rows -/

/-- The refcount of the event has a place for every counted subscription that has not been
    counted down yet, or all of them have finished. -/
def Covered (s : PersistentBus) (log : Log) (e : Uuid) : Prop :=
  (∃ refcount, s.db.refcount[e]? = some refcount ∧ 0 < refcount ∧
    (s.db.events[e]?).isSome = true ∧
    countedOf log e + acksOf s e ≤ refcount + finishedOf log e) ∨
  countedOf log e + acksOf s e ≤ finishedOf log e

/-- A step that leaves the rows of the event alone. -/
theorem Covered.of_rows {log' : Log} {e : Uuid} (h : s.Covered log e)
    (hevents : s'.db.events[e]? = s.db.events[e]?)
    (hrefcount : s'.db.refcount[e]? = s.db.refcount[e]?)
    (hcounted : countedOf log' e = countedOf log e)
    (hacks : acksOf s' e + finishedOf log e ≤ acksOf s e + finishedOf log' e) :
    s'.Covered log' e := by
  rcases h with ⟨refcount, hcount, hpos, hrow, hle⟩ | hle
  · exact .inl ⟨refcount, by rw [hrefcount, hcount], hpos, by rw [hevents, hrow], by omega⟩
  · exact .inr (by omega)

/-- The ack worker takes a place away for a completion it has received. -/
theorem Covered.ack {commits : Bool} {e : Uuid} (hI : s.Covered log e)
    (h : s.ack commits = some s') : s'.Covered log e := by
  obtain ⟨completion, hone, hother, hdb⟩ := acksOf_ack h
  cases commits with
  | false =>
    refine hI.of_rows (by rw [hdb]; rfl) (by rw [hdb]; rfl) rfl ?_
    by_cases he : e = completion.1
    · subst he
      omega
    · rw [hother e he]
  | true =>
    replace hdb : s'.db = s.db.ack completion := hdb
    by_cases he : e = completion.1
    · subst he
      rcases hI with ⟨refcount, hcount, hpos, hrow, hle⟩ | hle
      · rcases Db.ack_rows s.db completion with ⟨hnone, -⟩ | ⟨current, hcurrent, hcases⟩
        · rw [hnone] at hcount
          cases hcount
        · obtain rfl : current = refcount := Option.some.inj (hcurrent.symm.trans hcount)
          rcases hcases with ⟨hlast, -, -⟩ | ⟨hearlier, hevents, hrefcount⟩
          · exact .inr (by omega)
          · exact .inl ⟨current - 1, by rw [hdb, hrefcount], by omega, by rw [hdb, hevents, hrow],
              by omega⟩
      · exact .inr (by omega)
    · obtain ⟨hevents, hrefcount⟩ := Db.ack_of_ne he s.db
      rcases hI with ⟨refcount, hcount, hpos, hrow, hle⟩ | hle
      · exact .inl ⟨refcount, by rw [hdb, hrefcount, hcount], hpos, by rw [hdb, hevents, hrow],
          by rw [hother e he]; exact hle⟩
      · exact .inr (by rw [hother e he]; exact hle)

/-- No step counts an event again. -/
theorem countedOf_step {a : Action} {e : Uuid} (htallies : s.Tallies json log)
    (h : step json config s a = some s') (he : e ∈ log.tallied) :
    countedOf (record json s a s' log) e = countedOf log e := by
  by_cases hcount : ∃ now, a = .worker (.count now)
  · obtain ⟨now, rfl⟩ := hcount
    obtain ⟨done, msg, rest, n, hphase, -, -⟩ := count_cases h
    have hfresh := htallies.not_mem_tallied (by rw [hphase]; exact List.mem_cons_self)
    simp only [record, hphase]
    have hne : msg.envelope.eventId ≠ e := fun heq => hfresh (heq ▸ he)
    rw [countedOf, countedOf_append, if_neg hne]
    rfl
  · have hsame : (record json s a s' log).counted = log.counted := by
      unfold record
      repeat' split
      all_goals first
        | rfl
        | exact absurd ⟨_, rfl⟩ hcount
    rw [countedOf, hsame, countedOf]

/-- A batch has at most one row for each of its messages. -/
theorem ids_rowsOf_sublist (done : List Counted) :
    ((rowsOf json done).map (·.id)).Sublist (done.map (·.msg.envelope.eventId)) := by
  induction done with
  | nil => exact List.Sublist.refl _
  | cons counted done ih =>
    unfold rowsOf at ih ⊢
    cases hrow : counted.row json with
    | none =>
      rw [List.filterMap_cons_none hrow]
      exact ih.cons _
    | some row =>
      rw [List.filterMap_cons_some hrow]
      obtain ⟨-, bytes, -, rfl⟩ := prepare_eq_some.mp hrow
      exact ih.cons_cons _

/-- Its rows are of different events. -/
theorem nodup_rowsOf {done : List Counted} (htallies : s.Tallies json log)
    (hphase : s.worker = .counting done []) : ((rowsOf json done).map (·.id)).Nodup := by
  refine (ids_rowsOf_sublist done).nodup ?_
  rw [List.nodup_iff_count_le_one]
  intro e
  have htickets := htallies.tickets e
  have hone := List.nodup_iff_count_le_one.mp htallies.published e
  have hmessages : messagesOf s.worker.messages e
      = (done.map (·.msg.envelope.eventId)).count e := by
    rw [hphase, Worker.messages, List.append_nil, messagesOf, List.map_map]
    rfl
  simp only [tickets] at htickets
  omega

/-- A row that is inserted has a place for every subscription that was counted. -/
theorem Covered.write {faults : RedbCall → Option Fault} {e : Uuid}
    (htallies : s.Tallies json log) (haccounts : s.Accounts log) (hcounts : s.Counts log)
    (hunscheduled : s.Unscheduled) (hI : ∀ e ∈ log.committed, s.Covered log e)
    (h : s.write json faults = some s')
    (he : e ∈ (record json s (.worker (.write faults)) s' log).committed) :
    s'.Covered (record json s (.worker (.write faults)) s' log) e := by
  obtain ⟨done, hphase, ⟨hres, rfl⟩ | ⟨msg, hres, rfl⟩ | ⟨hres, rfl⟩⟩ := write_cases h
  · simp only [record, hphase, hres, ↓reduceIte] at he ⊢
    have hmessages : ∀ counted ∈ done, counted.msg ∈ s.worker.messages := by
      intro counted hmem
      rw [hphase]
      exact List.mem_append_left _ (List.mem_map_of_mem hmem)
    have hrows := unscheduled_rowsOf json fun counted hmem =>
      hunscheduled.messages counted.msg (List.mem_append_right _ (hmessages counted hmem))
    by_cases hrow : e ∈ (rowsOf json done).map (·.id)
    · obtain ⟨row, hmem, rfl⟩ := List.mem_map.mp hrow
      obtain ⟨hevents, hrefcount⟩ :=
        Db.insertRows_of_mem (nodup_rowsOf htallies hphase) hmem (hrows row hmem) s.db
      obtain ⟨counted, hdone, hprepare⟩ := List.mem_filterMap.mp hmem
      obtain ⟨hpos, bytes, -, rfl⟩ := prepare_eq_some.mp hprepare
      have hstored : countedOf log counted.msg.envelope.eventId ≤ counted.subCount :=
        (hcounts.stored done [] hphase counted hdone).resolve_left hpos.ne'
      -- nobody has been sent the event yet
      have huntouched := haccounts.untouched (htallies.of_mem (hmessages counted hdone)).1
      refine .inl ⟨counted.subCount, hrefcount, hpos, by rw [hevents]; rfl, ?_⟩
      have hacks := huntouched.acks
      have hfinished := huntouched.finished
      simp only [acksOf, finishedOf, countedOf] at hacks hfinished hstored ⊢
      omega
    · obtain ⟨hevents, hrefcount⟩ := Db.insertRows_of_not_mem hrow s.db
      have hold : e ∈ log.committed := by
        rcases List.mem_append.mp he with hold | hnew
        · exact hold
        · exact absurd (((List.filter_sublist (l := rowsOf json done)).map _).subset hnew) hrow
      exact (hI e hold).of_rows hevents hrefcount rfl (Nat.le_refl _)
  · simp only [record, hphase, hres, reduceCtorEq, ↓reduceIte] at he ⊢
    exact (hI e he).of_rows rfl rfl rfl (Nat.le_refl _)
  · simp only [record, hphase, hres, reduceCtorEq, ↓reduceIte] at he ⊢
    exact (hI e he).of_rows rfl rfl rfl (Nat.le_refl _)

/-! ## The runs -/

/-- What holds of the rows in every state of such a run. -/
structure RowsSafe (json : SerdeJson) (s : PersistentBus) (log : Log) : Prop where
  unscheduled : s.Unscheduled
  accounts : s.Accounts log
  tallies : s.Tallies json log
  counts : s.Counts log
  covered : ∀ e ∈ log.committed, s.Covered log e

theorem rowsSafe_boot {db : Db} (hdb : db.scheduledEvents = ∅) :
    (boot json config db).RowsSafe json .empty where
  unscheduled := ⟨hdb, by simp [boot], by simp [boot], rfl,
    by simp [boot, PersistentBus.messages, Mpsc.Channel.new, Worker.messages]⟩
  accounts := accounts_boot json config db
  tallies := ⟨List.nodup_nil,
    by simp [tickets, entering, boot, Mpsc.Channel.new, Worker.messages, Log.empty],
    by simp [uncounted, entering, boot, Mpsc.Channel.new, Worker.uncounted, Log.empty]⟩
  counts := counts_boot db
  covered := by simp [Log.empty]

/-- **One step** keeps the rows that have to stay. -/
theorem RowsSafe.step {a : Action} (hI : s.RowsSafe json log)
    (h : PersistentBus.step json config s a = some s') (hC : KeepsRows (s, log) a) :
    s'.RowsSafe json (record json s a s' log) where
  unscheduled := hI.unscheduled.step h hC.1
  accounts := hI.accounts.step h
  tallies := hI.tallies.step hI.unscheduled h hC.1
  counts := hI.counts.step hI.accounts hI.tallies h hC
  covered e he := by
    by_cases hwrite : ∃ faults, a = .worker (.write faults)
    · obtain ⟨faults, rfl⟩ := hwrite
      exact Covered.write hI.tallies hI.accounts hI.counts hI.unscheduled hI.covered h he
    have hcommitted : (record json s a s' log).committed = log.committed := by
      unfold record
      repeat' split
      all_goals first
        | rfl
        | exact absurd ⟨_, rfl⟩ hwrite
    rw [hcommitted] at he
    have hcovered := hI.covered e he
    have hcounted := countedOf_step hI.tallies h (hI.counts.committed e he)
    by_cases hack : ∃ commits, a = .handler (.ack commits)
    · obtain ⟨commits, rfl⟩ := hack
      exact hcovered.ack h
    have hnoack : ∀ commits, a ≠ .handler (.ack commits) := fun commits ha => hack ⟨commits, ha⟩
    by_cases hcrash : a = .control .crash
    · subst hcrash
      cases h
      exact hcovered.of_rows rfl rfl rfl (by simp [acksOf, crash, boot, RedbRegistry.new, record])
    have hacks := (acks_step log h hnoack hcrash e).le
    by_cases hworker : ∃ b, a = .worker b
    · obtain ⟨b, rfl⟩ := hworker
      have hdb : s'.db = s.db := by
        rcases stepWorker_rows h with hdb | ⟨faults, done, rfl, -⟩
        · exact hdb
        · exact absurd ⟨faults, rfl⟩ hwrite
      exact hcovered.of_rows (by rw [hdb]) (by rw [hdb]) hcounted hacks
    · obtain ⟨hevents, hrefcount⟩ :=
        rows_of_not_worker h (fun b hb => hworker ⟨b, hb⟩) hnoack fun b hb => by
          subst hb
          exact hC.1
      exact hcovered.of_rows (by rw [hevents]) (by rw [hrefcount]) hcounted hacks

/-- No more handlers finish an event than subscriptions were counted for it; fewer, as
    long as one of these has not finished. -/
theorem RowsSafe.finishedOf_lt {i e : Uuid} (h : s.RowsSafe json log)
    (hcounted : (i, e) ∈ log.counted) (hfinished : (i, e) ∉ log.finished) :
    finishedOf log e < countedOf log e := by
  have hsub : log.finished.Subperm log.counted := by
    rw [List.subperm_ext_iff]
    rintro ⟨j, e'⟩ -
    have hwork := h.accounts.work j e'
    have hload := h.accounts.load j e'
    have hsent := h.counts.sent j e'
    unfold load at hload
    omega
  have hcons := List.cons_subperm_of_not_mem_of_mem hfinished hcounted hsub
  have hle := hcons.countP_le fun pair => pair.2 == e
  rw [List.countP_cons_of_pos (by simp)] at hle
  exact hle

theorem RowsSafe.atLeastOnce (h : s.RowsSafe json log) : AtLeastOnce s.db log := by
  intro e he i hcounted hfinished
  rcases h.covered e he with ⟨refcount, hcount, hpos, hrow, -⟩ | hall
  · exact ⟨hrow, refcount, hcount, hpos⟩
  · have hlt := h.finishedOf_lt hcounted hfinished
    omega

/-- **When rows stay.** In a run without scheduled events and replay calls, with any
    crashes and failed transactions, if no message is counted while its type has more than
    `2 ^ 32` subscriptions (an exact multiple is counted as none), every row stays until
    the last counted subscription has finished. -/
theorem atLeastOnce_along {db : Db} {as : List Action} {s' : PersistentBus × Log}
    (hdb : db.scheduledEvents = ∅)
    (hexec : Transition.exec (stepLogged json config) (boot json config db, .empty) as = some s')
    (hC : Transition.Along (stepLogged json config) KeepsRows (boot json config db, .empty) as) :
    AtLeastOnce s'.1.db s'.2 := by
  suffices hrows : s'.1.RowsSafe json s'.2 from hrows.atLeastOnce
  refine Transition.invariant_along (I := fun s => s.1.RowsSafe json s.2) ?_ (rowsSafe_boot hdb)
    hC hexec
  rintro s a s' hI hkeeps hs
  obtain ⟨hstep, hlog⟩ := Transition.withHistory_eq_some.mp hs
  rw [hlog]
  exact hI.step hstep hkeeps

/-! ## An order for a crowd -/

/-- The order is published to a crowd of `n`; the first of them is done with it, and the
    ack worker is told. -/
def orderToCrowd (n : Nat) : List Action :=
  crowdArrives n ++ (oneMessage order 0 ++ [.handler (.ack true)])

theorem ordinary_crowdArrives (n : Nat) : ∀ a ∈ crowdArrives n, ∀ t : PersistentBus × Log,
    t.1.worker = .unspawned → t.1.Ordinary t.2 a := by
  intro a ha t ht
  rcases List.mem_append.mp ha with hcall | hlast
  · obtain ⟨op, -, rfl⟩ := List.mem_map.mp hcall
    exact .inl (by rw [ht]; rfl)
  · rcases List.mem_pair.mp hlast with rfl | rfl <;> trivial

theorem ordinary_oneMessage {i : Uuid} : ∀ a ∈ (oneMessage order i).tail,
    ∀ t : PersistentBus × Log, t.1.Ordinary t.2 a := by
  intro a ha t
  simp only [oneMessage, List.tail_cons, List.mem_cons, List.not_mem_nil, or_false] at ha
  rcases ha with rfl | rfl | rfl | rfl | rfl | rfl | rfl | rfl | rfl | rfl <;> trivial

/-- A crowd that counts as one has its row removed by the first completion. -/
theorem exec_orderToCrowd {n : Nat} (hpos : 0 < n) (hsmall : n ≤ 2 ^ 128)
    (hone : n % 2 ^ 32 = 1) :
    ∃ s', Transition.exec (stepLogged orderJson {}) (boot orderJson {} .empty, .empty)
        (orderToCrowd n) = some s' ∧
      Transition.Along (stepLogged orderJson {}) (fun s a => s.1.Ordinary s.2 a)
        (boot orderJson {} .empty, .empty) (orderToCrowd n) ∧
      s'.2.committed = [7] ∧ (∀ i < n, (BitVec.ofNat 128 i, 7) ∈ s'.2.counted) ∧
      s'.2.finished = [(0, 7)] ∧ s'.1.db.events[(7 : Uuid)]? = none := by
  obtain ⟨s₁, registered, hrun₁, hready₁, hcrowded₁, hdb₁, hacks₁⟩ :=
    exec_crowdArrives orderJson n .empty (ordinary_crowdArrives n)
  obtain ⟨s₂, log₂, hexec₂, halong₂, hafter₂, hlogged₂⟩ := exec_oneMessage orderJson
    { Log.empty with registered := registered } order
    (C := fun s a => s.1.Ordinary s.2 a) hready₁ rfl (fun _ hkey => by cases hkey)
    (hcrowded₁.senders rfl hpos hsmall)
    ⟨rfl, by simp [Log.empty]⟩ fun a ha t _ _ => ordinary_oneMessage a ha t
  have hrows : rowsOf orderJson [⟨⟨order, none⟩, s₁.manager.registry.subCount order, 0⟩]
      = [⟨7, 1, false, 0, [], none⟩] := by
    rw [hcrowded₁.subCount rfl, hone]
    decide +kernel
  have hdb₂ := hafter₂.db
  rw [hrows, hdb₁] at hdb₂
  have hacks₂ : s₂.manager.registry.ackTx = [(7, false)] := by
    rw [hafter₂.registry, hacks₁]
    rfl
  obtain ⟨s₃, h₃, hdb₃⟩ : ∃ s₃, s₂.ack true = some s₃ ∧ s₃.db = s₂.db.ack (7, false) := by
    unfold ack
    rw [hacks₂]
    exact ⟨_, rfl, rfl⟩
  have hrun := Transition.exec_along_append hrun₁ (Transition.exec_along_append ⟨hexec₂, halong₂⟩
    (Transition.exec_along_cons (stepLogged_of_step _ (a := .handler (.ack true)) h₃)
      trivial Transition.exec_along_nil))
  refine ⟨_, hrun.1, hrun.2, ?_, fun i hi => ?_, hlogged₂.finished, ?_⟩
  · refine hlogged₂.committed.trans ?_
    rw [hrows]
    rfl
  · refine hlogged₂.counted ▸ List.mem_append_right _ ?_
    exact mem_withEvent.mpr ⟨hcrowded₁.mem_listed hi, rfl⟩
  · show s₃.db.events[(7 : Uuid)]? = none
    rw [hdb₃, hdb₂]
    decide +kernel

/-- With `2 ^ 32 + 1` subscriptions the row is removed when the first has finished. -/
theorem not_atLeastOnce_crowd :
    ∃ s', Transition.exec (stepLogged orderJson {}) (boot orderJson {} .empty, .empty)
        (orderToCrowd (2 ^ 32 + 1)) = some s' ∧
      Transition.Along (stepLogged orderJson {}) (fun s a => s.1.Ordinary s.2 a)
        (boot orderJson {} .empty, .empty) (orderToCrowd (2 ^ 32 + 1)) ∧
      ¬ AtLeastOnce s'.1.db s'.2 := by
  obtain ⟨n, hn⟩ : ∃ n, n = 2 ^ 32 + 1 := ⟨_, rfl⟩
  rw [← hn]
  obtain ⟨s', hexec, halong, hcommitted, hcounted, hfinished, hrow⟩ :=
    exec_orderToCrowd (n := n) (by omega) (by omega) (by omega)
  refine ⟨s', hexec, halong, fun h => ?_⟩
  have hsecond : ((1 : Uuid), (7 : Uuid)) ∉ s'.2.finished := by
    rw [hfinished]
    decide
  have hkept := (h 7 (by rw [hcommitted]; decide) 1 (hcounted 1 (by omega)) hsecond).1
  rw [hrow] at hkept
  cases hkept

/-- Two subscriptions get the order.  The ack worker has applied the completion of the first
    one, and the second one works on the order when the bus crashes. -/
def orderToTwo : List Action :=
  (crowd 2).map (fun op => .handler (.registry op)) ++
    [.handler (.openChannel 0), .handler (.openChannel 1), .control .start,
      .publisher (.dispatch order), .worker .recv, .worker (.check fun _ => true),
      .worker (.count 0), .worker (.write noFaults), .worker (.deliver 0), .worker (.push 1),
      .handler (.take 1), .worker (.push 0), .worker .dispatched, .handler (.take 0),
      .handler (.complete 0 true), .worker (.deliver 0), .handler (.ack true), .control .crash]

/-- The row is there, for the second one. -/
theorem atLeastOnce_orderToTwo :
    ∃ s', Transition.exec (stepLogged orderJson {}) (boot orderJson {} .empty, .empty) orderToTwo
        = some s' ∧
      s'.2.committed = [7] ∧ s'.2.counted = [(0, 7), (1, 7)] ∧ s'.2.finished = [(0, 7)] ∧
      s'.1.db.refcount[(7 : Uuid)]? = some 1 ∧ AtLeastOnce s'.1.db s'.2 := by
  obtain ⟨s', hexec, hseen⟩ := Option.map_eq_some_iff.mp
    (by decide +kernel : (Transition.exec (stepLogged orderJson {})
      (boot orderJson {} .empty, .empty) orderToTwo).map (fun s => (s.2.committed, s.2.counted,
        s.2.finished, s.1.db.refcount[(7 : Uuid)]?))
      = some ([7], [(0, 7), (1, 7)], [(0, 7)], some 1))
  simp only [Prod.mk.injEq] at hseen
  obtain ⟨hcommitted, hcounted, hfinished, hrefcount⟩ := hseen
  exact ⟨s', hexec, hcommitted, hcounted, hfinished, hrefcount,
    atLeastOnce_along rfl hexec (by decide +kernel)⟩

end PersistentBus
end TokioEvents
