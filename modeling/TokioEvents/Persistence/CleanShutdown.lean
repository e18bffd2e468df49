/-
  TokioEvents.Persistence.CleanShutdown

  What `shutdown_gracefully` leaves in the tables.  It waits for the worker and for the
  handler tasks, and not for the ack worker, which receives their completions through an
  unbounded channel and writes one transaction for each.

  The refcount of an event that was handed on never exceeds what its deliveries can still
  take off it: those that are not finished, and the completions that have not been
  received.  So the rows of handled events are gone once the channel is empty, provided
  that no transaction of the ack worker has failed and that no more subscriptions were
  counted for an event than were selected for it.
-/

import TokioEvents.Persistence.Bus.Crowd
import TokioEvents.Persistence.TableConsistency

namespace TokioEvents

/-- Every delivery of the event, once handed on, has been handled. -/
def Handled (log : Log) (e : Uuid) : Prop :=
  e ∈ log.handed ∧ ∀ i, log.finished.count (i, e) = log.sent.count (i, e)

namespace PersistentBus

variable {json : SerdeJson} {config : BusConfig} {s s' : PersistentBus} {log : Log}

/-- `shutdown_gracefully` has returned: the dispatcher has joined its worker, and all
    subscriptions are removed and their handler tasks have ended. -/
structure Returned (s : PersistentBus) : Prop where
  worker : s.worker.ended = true
  sender : s.sender = false
  isRunning : s.isRunning = false
  exclusive : s.exclusive = false
  subscriptions : s.manager.subscriptions.isEmpty = true
  closed : s.closed.isEmpty = true
  busy : s.busy.isEmpty = true

/-- No row of a handled event is left, so a replay call visits none. -/
def LeavesNothing (s : PersistentBus) (log : Log) : Prop :=
  s.Returned → ∀ e, Handled log e →
    s.db.events[e]? = none ∧ s.db.refcount[e]? = none ∧ e ∉ s.db.pendingRows.map (·.1)

/-! ## The conditions -/

/-- A message at the head of the dispatch loop has no more places in its refcount than
    subscriptions selected for it; one that is skipped as scheduled was not handed on
    before, or has no row. -/
def HandsOnAll (s : PersistentBus) (log : Log) (now : DateTime) : Worker → Prop
  | .delivering (msg :: _) => ∀ refcount ∈ s.db.refcount[msg.envelope.eventId]?,
    if msg.envelope.isScheduled now then msg.envelope.eventId ∉ log.handed
    else refcount ≤ (s.manager.senders msg.envelope).length
  | _ => True

/-- Completions are applied, and refcounts can be taken off: transactions of the ack
    worker commit, the dispatch loop hands on all that was counted, and no message whose
    row is written is lost to a panic after another message of its event was handed on. -/
def Settles (s : PersistentBus × Log) : Action → Prop
  | .handler (.ack commits) => commits = true
  | .worker (.deliver now) => s.1.HandsOnAll s.2 now s.1.worker
  | .worker .panic => ∀ msg ∈ s.1.worker.written, msg.envelope.eventId ∈ s.2.handed →
    s.1.db.refcount[msg.envelope.eventId]? = none
  | _ => True

instance (s : PersistentBus) (log : Log) (now : DateTime) :
    ∀ worker, Decidable (s.HandsOnAll log now worker)
  | .delivering (msg :: _) =>
    inferInstanceAs (Decidable (∀ refcount ∈ s.db.refcount[msg.envelope.eventId]?,
      if msg.envelope.isScheduled now then msg.envelope.eventId ∉ log.handed
      else refcount ≤ (s.manager.senders msg.envelope).length))
  | .delivering [] => isTrue trivial
  | .unspawned | .receiving | .draining _ | .counting _ _ | .dispatching _ _ _ | .stopped =>
    isTrue trivial

instance (s : PersistentBus × Log) : ∀ a, Decidable (Settles s a)
  | .handler (.ack commits) => inferInstanceAs (Decidable (commits = true))
  | .worker (.deliver now) => inferInstanceAs (Decidable (s.1.HandsOnAll s.2 now s.1.worker))
  | .worker .panic =>
    inferInstanceAs (Decidable (∀ msg ∈ s.1.worker.written, msg.envelope.eventId ∈ s.2.handed →
      s.1.db.refcount[msg.envelope.eventId]? = none))
  | .publisher _ | .scheduler _ | .replay _ | .control _ => isTrue trivial
  | .worker .recv | .worker .tryRecv | .worker (.check _) | .worker (.count _)
  | .worker (.write _) | .worker (.push _) | .worker .dispatched => isTrue trivial
  | .handler (.registry _) | .handler (.openChannel _) | .handler (.removeChannel _)
  | .handler (.closeChannel _) | .handler (.take _) | .handler (.complete _ _)
  | .handler (.exit _) => isTrue trivial

/-! ## Deliveries of an event -/

/-- Subscriptions selected for the event. -/
def sentOf (log : Log) (e : Uuid) : Nat := log.sent.countP fun pair => pair.2 == e

/-- Pairs of the event, counted by subscription or all together. -/
theorem countP_event_le {pairs pairs' : List (Uuid × Uuid)} {e : Uuid}
    (h : ∀ i, pairs.count (i, e) ≤ pairs'.count (i, e)) :
    pairs.countP (fun pair => pair.2 == e) ≤ pairs'.countP fun pair => pair.2 == e := by
  rw [List.countP_eq_length_filter, List.countP_eq_length_filter]
  refine List.Subperm.length_le (List.subperm_ext_iff.mpr ?_)
  rintro ⟨i, e'⟩ hmem
  obtain rfl : e' = e := by simpa using (List.mem_filter.mp hmem).2
  rw [List.count_filter (by simp), List.count_filter (by simp)]
  exact h i

theorem Accounts.finishedOf_le (h : s.Accounts log) (e : Uuid) :
    finishedOf log e ≤ sentOf log e := by
  refine countP_event_le fun i => ?_
  have hwork := h.work i e
  have hload := h.load i e
  unfold PersistentBus.load at hload
  omega

/-! ## What is owed to a refcount -/

/-- The ids of the messages whose write step is over. -/
def writtenIds (s : PersistentBus) : List Uuid := s.worker.written.map (·.envelope.eventId)

/-- The refcount of an event that was handed on can be taken off by its deliveries that
    have not finished and by the completions that have not been received; while another
    message of it is being handed on, nothing is said. -/
def Owed (s : PersistentBus) (log : Log) (e : Uuid) : Prop :=
  e ∈ log.handed → e ∉ s.writtenIds → ∀ refcount, s.db.refcount[e]? = some refcount →
    refcount + finishedOf log e ≤ sentOf log e + acksOf s e

/-- A step after which no more is owed. -/
theorem Owed.keep {log' : Log} {e : Uuid} (h : s.Owed log e)
    (hhanded : e ∈ log'.handed → e ∈ log.handed)
    (hwritten : e ∉ s'.writtenIds → e ∉ s.writtenIds)
    (hrefcount : ∀ refcount, s'.db.refcount[e]? = some refcount →
      s.db.refcount[e]? = some refcount)
    (hsent : sentOf log e ≤ sentOf log' e)
    (hacks : acksOf s' e + finishedOf log e = acksOf s e + finishedOf log' e) :
    s'.Owed log' e := by
  intro hmem hnot refcount hget
  have hle := h (hhanded hmem) (hwritten hnot) refcount (hrefcount refcount hget)
  omega

/-- Nobody but the worker moves its messages on. -/
theorem writtenIds_of_not_worker {a : Action} (h : step json config s a = some s')
    (hworker : ∀ b, a ≠ .worker b) (hcrash : a ≠ .control .crash) :
    s'.writtenIds = s.writtenIds := by
  unfold writtenIds
  cases a with
  | worker a => exact absurd rfl (hworker a)
  | publisher a => rw [(stepPublisher_frame h).2.worker]
  | scheduler a => rw [(stepScheduler_frame h).2.1.worker]
  | handler a => rw [(stepHandler_frame h).2.1]
  | replay a => rw [(stepReplay_frame h).2.1.worker]
  | control a =>
    rcases (stepControl_sameWork h fun ha => hcrash (ha ▸ rfl)).worker with heq | ⟨hold, hnew⟩
    · rw [heq]
    · rw [hold, hnew]
      rfl

/-- The ack worker takes one off for a completion it has received. -/
theorem Owed.ack {e : Uuid} (hI : s.Owed log e) (h : s.ack true = some s') :
    s'.Owed log e := by
  have hworker : s'.writtenIds = s.writtenIds := by
    obtain ⟨completion, rest, -, rfl⟩ := ack_step_cases h
    rfl
  obtain ⟨completion, hone, hother, hdb⟩ := acksOf_ack h
  replace hdb : s'.db = s.db.ack completion := hdb
  intro hmem hnot refcount hget
  rw [hworker] at hnot
  have hle := hI hmem hnot
  rw [hdb] at hget
  by_cases he : e = completion.1
  · subst he
    rcases s.db.ack_rows completion with ⟨hnone, hsame⟩ | ⟨current, hcurrent, hcases⟩
    · rw [hsame, hnone] at hget
      cases hget
    · rcases hcases with ⟨-, -, hnone⟩ | ⟨hearlier, -, hrefcount⟩
      · rw [hnone] at hget
        cases hget
      · rw [hrefcount] at hget
        cases hget
        have := hle current hcurrent
        omega
  · rw [(Db.ack_of_ne he s.db).2] at hget
    rw [hother e he]
    exact hle refcount hget

/-- The dispatch loop hands a message on with as many deliveries as its refcount has
    places, or skips one that has no row to take off. -/
theorem Owed.deliver {now : DateTime} {e : Uuid} (hI : s.Owed log e)
    (haccounts : s.Accounts log) (h : s.deliver now = some s')
    (hC : Settles (s, log) (.worker (.deliver now))) :
    s'.Owed (record json s (.worker (.deliver now)) s' log) e := by
  obtain ⟨hphase, rfl⟩ | ⟨msg, rest, hphase, ⟨hscheduled, rfl⟩ | ⟨hdue, rfl⟩⟩ := deliver_cases h
  · simp only [record, hphase]
    refine hI.keep id (fun _ => ?_) (fun _ => id) (Nat.le_refl _) rfl
    simp [writtenIds, hphase, Worker.written]
  · simp only [record, hphase, hscheduled, ↓reduceIte]
    intro hmem hnot refcount hget
    by_cases he : msg.envelope.eventId = e
    · subst he
      have hskip : s.HandsOnAll log now s.worker := hC
      rw [hphase] at hskip
      replace hskip := hskip refcount hget
      rw [if_pos hscheduled] at hskip
      exact absurd hmem hskip
    · refine hI hmem ?_ refcount hget
      simp only [writtenIds, hphase, Worker.written, List.map_cons, List.mem_cons, not_or] at hnot ⊢
      exact ⟨fun heq => he heq.symm, hnot⟩
  · have hsettles : ∀ refcount, s.db.refcount[msg.envelope.eventId]? = some refcount →
        refcount ≤ (s.manager.senders msg.envelope).length := by
      intro refcount hget
      have hle : s.HandsOnAll log now s.worker := hC
      rw [hphase] at hle
      replace hle := hle refcount hget
      rwa [if_neg (by simp [hdue])] at hle
    simp only [record, hphase, hdue, Bool.false_eq_true, ↓reduceIte]
    intro hmem hnot refcount hget
    by_cases he : msg.envelope.eventId = e
    · subst he
      have hle := hsettles refcount hget
      have hfinished := haccounts.finishedOf_le msg.envelope.eventId
      have hsent : (log.sent ++ withEvent (s.manager.senders msg.envelope)
          msg.envelope.eventId).countP (fun pair => pair.2 == msg.envelope.eventId)
          = sentOf log msg.envelope.eventId + (s.manager.senders msg.envelope).length := by
        rw [List.countP_append, countP_withEvent, if_pos rfl, sentOf]
      simp only [finishedOf, acksOf] at hfinished ⊢
      rw [sentOf, hsent]
      omega
    · have hold : e ∈ log.handed := by
        rcases List.mem_append.mp hmem with hold | hnew
        · exact hold
        · exact absurd (List.mem_singleton.mp hnew).symm he
      have hsent : (log.sent ++ withEvent (s.manager.senders msg.envelope)
          msg.envelope.eventId).countP (fun pair => pair.2 == e) = sentOf log e := by
        rw [List.countP_append, countP_withEvent, if_neg he, Nat.add_zero, sentOf]
      have hle := hI hold (by
        simp only [writtenIds, hphase, Worker.written, List.map_cons, List.mem_cons, not_or]
          at hnot ⊢
        exact ⟨fun heq => he heq.symm, hnot⟩) refcount hget
      simp only [finishedOf, acksOf] at hle ⊢
      rw [sentOf, hsent]
      exact hle

/-- A step of the worker that is no turn of the dispatch loop. -/
theorem Owed.stepWorker {a : WorkerAction} {e : Uuid} (hI : s.Owed log e)
    (haccounts : s.Accounts log) (h : s.stepWorker json config a = some s')
    (hC : Settles (s, log) (.worker a)) : s'.Owed (record json s (.worker a) s' log) e := by
  by_cases hdeliver : ∃ now, a = .deliver now
  · obtain ⟨now, rfl⟩ := hdeliver
    exact hI.deliver haccounts h hC
  obtain ⟨hhanded, hsent, -⟩ := record_of_not_deliver json s s' log
    (a := .worker a) fun now ha => hdeliver ⟨now, by cases ha; rfl⟩
  have hfinished := (record_worker_taken json s s' log a).2
  -- what has to be shown is that neither the row nor the message is a new one
  have hkeep : (e ∉ s'.writtenIds → e ∈ log.handed → e ∉ s.writtenIds ∨
        s.db.refcount[e]? = none) →
      (e ∉ s'.writtenIds → s'.db.refcount[e]? = s.db.refcount[e]?) →
      s'.Owed (record json s (.worker a) s' log) e := by
    intro hwritten hrefcount hmem hnot refcount hget
    rw [hhanded] at hmem
    rw [hrefcount hnot] at hget
    have hacks : acksOf s' e = acksOf s e := by
      rw [acksOf, (stepWorker_sameTasks h).registry, acksOf]
    rw [finishedOf, hfinished, sentOf, hsent, hacks]
    rcases hwritten hnot hmem with hold | hnone
    · exact hI hmem hold refcount hget
    · rw [hnone] at hget
      cases hget
  have hrows : (∀ faults, a ≠ .write faults) → s'.db = s.db := by
    intro hwrite
    rcases stepWorker_rows h with hdb | ⟨faults, done, ha, -⟩
    · exact hdb
    · exact absurd ha (hwrite faults)
  cases a with
  | deliver now => exact absurd ⟨now, rfl⟩ hdeliver
  | write faults =>
    obtain ⟨done, hphase, ⟨hres, rfl⟩ | ⟨msg, hres, rfl⟩ | ⟨hres, rfl⟩⟩ := write_cases h
    · refine hkeep (fun _ _ => .inl ?_) fun hnot => (Db.insertRows_of_not_mem ?_ s.db).2
      · simp [writtenIds, hphase, Worker.written]
      · -- the rows are of messages that are handed on next
        intro hrow
        obtain ⟨row, hmem, rfl⟩ := List.mem_map.mp hrow
        obtain ⟨counted, hdone, hprepare⟩ := List.mem_filterMap.mp hmem
        obtain ⟨-, bytes, -, rfl⟩ := prepare_eq_some.mp hprepare
        exact hnot (List.mem_map_of_mem (List.mem_map_of_mem hdone))
    · exact hkeep (fun _ _ => .inl (by simp [writtenIds, hphase, Worker.written])) fun _ => rfl
    · exact hkeep (fun _ _ => .inl (by simp [writtenIds, hphase, Worker.written])) fun _ => rfl
  | panic =>
    refine hkeep (fun _ hmem => ?_) fun _ => by rw [hrows (by simp)]
    by_cases hold : e ∈ s.writtenIds
    · obtain ⟨msg, hmsg, rfl⟩ := List.mem_map.mp hold
      exact .inr (hC msg hmsg hmem)
    · exact .inl hold
  | recv =>
    refine hkeep (fun _ _ => .inl ?_) fun _ => by rw [hrows (by simp)]
    simp [writtenIds, (recv_cases h).1, Worker.written]
  | tryRecv =>
    obtain ⟨batch, msg, rest, hphase, -⟩ := tryRecv_cases h
    refine hkeep (fun _ _ => .inl ?_) fun _ => by rw [hrows (by simp)]
    simp [writtenIds, hphase, Worker.written]
  | check reads =>
    obtain ⟨batch, checked, hphase, -⟩ := check_cases h
    refine hkeep (fun _ _ => .inl ?_) fun _ => by rw [hrows (by simp)]
    simp [writtenIds, hphase, Worker.written]
  | count now =>
    obtain ⟨done, msg, rest, n, hphase, -⟩ := count_cases h
    refine hkeep (fun _ _ => .inl ?_) fun _ => by rw [hrows (by simp)]
    simp [writtenIds, hphase, Worker.written]
  | push id =>
    obtain ⟨envelope, sends, rest, hphase, -, rfl⟩ := push_cases h
    refine hkeep (fun hnot _ => .inl ?_) fun _ => rfl
    simpa [writtenIds, hphase, Worker.written] using hnot
  | dispatched =>
    obtain ⟨envelope, sends, rest, hphase, rfl⟩ := dispatched_cases h
    refine hkeep (fun hnot _ => .inl ?_) fun _ => rfl
    simpa [writtenIds, hphase, Worker.written] using hnot

/-- **One step** that settles what it should. -/
theorem Owed.step {a : Action} {e : Uuid} (hI : s.Owed log e) (haccounts : s.Accounts log)
    (h : PersistentBus.step json config s a = some s') (hC : Settles (s, log) a) :
    s'.Owed (recordProcess json s a s' log) e := by
  by_cases hcrash : a = .control .crash
  · subst hcrash
    intro hmem
    exact absurd hmem List.not_mem_nil
  rw [recordProcess_of_ne_crash hcrash]
  by_cases hworker : ∃ b, a = .worker b
  · obtain ⟨b, rfl⟩ := hworker
    exact hI.stepWorker haccounts h hC
  have hnot : ∀ b, a ≠ .worker b := fun b hb => hworker ⟨b, hb⟩
  by_cases hack : ∃ commits, a = .handler (.ack commits)
  · obtain ⟨commits, rfl⟩ := hack
    obtain rfl : commits = true := hC
    exact hI.ack h
  have hnoack : ∀ commits, a ≠ .handler (.ack commits) := fun commits ha => hack ⟨commits, ha⟩
  obtain ⟨hhanded, hsent, -⟩ := record_of_not_deliver json s s' log
    fun now ha => hnot _ ha
  refine hI.keep (by rw [hhanded]; exact id) ?_ ?_ (by rw [sentOf, sentOf, hsent])
    (acks_step log h hnoack hcrash e)
  · rw [writtenIds_of_not_worker h hnot hcrash]
    exact id
  · intro refcount hget
    by_cases hreplay : ∃ b, a = .replay b
    · obtain ⟨b, rfl⟩ := hreplay
      rcases rows_stepReplay h e with ⟨-, hnone⟩ | ⟨-, hsame⟩
      · rw [hnone] at hget
        cases hget
      · exact hsame ▸ hget
    · rw [(rows_of_not_worker h hnot hnoack fun b hb => hreplay ⟨b, hb⟩).2] at hget
      exact hget

/-! ## The runs -/

/-- What holds of the refcounts in every state of such a run. -/
structure RefcountsSafe (s : PersistentBus) (log : Log) : Prop where
  consistent : s.db.Consistent
  accounts : s.Accounts log
  owed : ∀ e, s.Owed log e

/-- Once the ack worker has nothing to do, no row of a handled event is left. -/
theorem RefcountsSafe.leavesNothing (h : s.RefcountsSafe log)
    (hacks : s.manager.registry.ackTx = []) : LeavesNothing s log := by
  intro hreturned e hhandled
  have hwritten : s.writtenIds = [] := by
    unfold writtenIds
    cases hphase : s.worker with
    | unspawned => rfl
    | stopped => rfl
    | receiving => rfl
    | draining batch => rfl
    | counting done rest => rfl
    | delivering rest => simpa [hphase, Worker.ended] using hreturned.worker
    | dispatching envelope sends rest => simpa [hphase, Worker.ended] using hreturned.worker
  have hfinished : sentOf log e ≤ finishedOf log e :=
    countP_event_le fun i => (hhandled.2 i).ge
  have hnone : s.db.refcount[e]? = none := by
    cases hrefcount : s.db.refcount[e]? with
    | none => rfl
    | some refcount =>
      have howed := h.owed e hhandled.1 (by simp [hwritten]) refcount hrefcount
      have hpos := h.consistent.positive e refcount hrefcount
      have hzero : acksOf s e = 0 := by simp [acksOf, hacks]
      omega
  have hrow : s.db.events[e]? = none := by
    have hpaired := h.consistent.paired e
    rw [hnone] at hpaired
    exact Option.not_isSome_iff_eq_none.mp (by rw [hpaired]; simp)
  refine ⟨hrow, hnone, fun hmem => ?_⟩
  obtain ⟨row, hpending, rfl⟩ := List.mem_map.mp hmem
  obtain ⟨⟨id, bytes⟩, hevents, rfl⟩ := List.mem_map.mp hpending
  have hget := Std.ExtTreeMap.mem_toList_iff_getElem?_eq_some.mp hevents
  rw [hrow] at hget
  cases hget

/-- **When a shutdown is clean.** In a run from a consistent database, with any crashes, of
    which every step settles what it should, if the ack worker has received every
    completion when `shutdown_gracefully` returns, no row of a handled event is left. -/
theorem leavesNothing_along {db : Db} {as : List Action} {s' : PersistentBus × Log}
    (hdb : db.Consistent)
    (hexec : Transition.exec (stepProcess json config) (boot json config db, .empty) as = some s')
    (hC : Transition.Along (stepProcess json config) Settles (boot json config db, .empty) as)
    (hacks : s'.1.manager.registry.ackTx = []) :
    LeavesNothing s'.1 s'.2 := by
  refine RefcountsSafe.leavesNothing ?_ hacks
  refine Transition.invariant_along (I := fun s => s.1.RefcountsSafe s.2) ?_
    ⟨hdb, accounts_boot json config db, fun e hmem => absurd hmem List.not_mem_nil⟩ hC hexec
  rintro s a s' hI hsettles hs
  obtain ⟨hstep, hlog⟩ := Transition.withHistory_eq_some.mp hs
  rw [hlog]
  exact ⟨consistent_step hI.consistent hstep, hI.accounts.stepProcess hstep,
    fun e => (hI.owed e).step hI.accounts hstep hsettles⟩

/-! ## An order handled before the shutdown -/

/-- An order is published and handled with success. -/
def orderHandled : List Action :=
  crowdArrives 1 ++
    [.publisher (.dispatch order), .worker .recv, .worker (.check fun _ => true),
      .worker (.count 0), .worker (.write noFaults), .worker (.deliver 0), .worker (.push 0),
      .worker .dispatched, .worker (.deliver 0), .handler (.take 0), .handler (.complete 0 true)]

/-- The bus is shut down: the dispatcher first, then the subscriptions. -/
def shutdownGracefully : List Action :=
  [.control .abortScheduler, .control .closeSender, .worker .recv, .control .joinWorker,
    .handler (.closeChannel 0), .handler (.registry (.unregister 0)), .handler (.exit 0)]

/-- The database is opened again, the subscriber comes back, and what is pending is
    replayed and taken. -/
def reopenAndReplay : List Action :=
  .control .crash :: crowdArrives 1 ++
    [.replay .pending, .replay (.visit 0), .replay (.send 0), .worker .recv,
      .worker (.check fun _ => true), .worker (.count 0), .worker (.write noFaults),
      .worker (.deliver 0), .worker (.push 0), .handler (.take 0)]

instance (s : PersistentBus) : Decidable s.Returned :=
  decidable_of_iff (s.worker.ended = true ∧ s.sender = false ∧ s.isRunning = false ∧
      s.exclusive = false ∧ s.manager.subscriptions.isEmpty = true ∧ s.closed.isEmpty = true ∧
      s.busy.isEmpty = true)
    ⟨fun ⟨h₁, h₂, h₃, h₄, h₅, h₆, h₇⟩ => ⟨h₁, h₂, h₃, h₄, h₅, h₆, h₇⟩,
      fun ⟨h₁, h₂, h₃, h₄, h₅, h₆, h₇⟩ => ⟨h₁, h₂, h₃, h₄, h₅, h₆, h₇⟩⟩

/-- The only delivery of the order is handled if it is finished. -/
theorem handled_order {log : Log} (hhanded : log.handed = [7]) (hsent : log.sent = [(0, 7)])
    (hfinished : log.finished = [(0, 7)]) : Handled log 7 := by
  refine ⟨by rw [hhanded]; exact List.mem_cons_self, fun i => ?_⟩
  rw [hsent, hfinished]

/-- The shutdown returns before the ack worker has received the completion: the row of the
    order is left, and the order is taken again when it is replayed. -/
theorem not_leavesNothing_pendingAck :
    ∃ s₁ s₂, Transition.exec (stepProcess orderJson {}) (boot orderJson {} .empty, .empty)
        (orderHandled ++ shutdownGracefully) = some s₁ ∧
      s₁.1.Returned ∧ Handled s₁.2 7 ∧ s₁.1.manager.registry.ackTx = [(7, true)] ∧
      ¬ LeavesNothing s₁.1 s₁.2 ∧
      Transition.exec (stepProcess orderJson {}) s₁ reopenAndReplay = some s₂ ∧
      s₂.2.taken = [(0, 7)] := by
  obtain ⟨s₁, h₁⟩ : ∃ s₁, Transition.exec (stepProcess orderJson {})
      (boot orderJson {} .empty, .empty) (orderHandled ++ shutdownGracefully) = some s₁ :=
    Option.isSome_iff_exists.mp (by decide +kernel)
  obtain ⟨s₂, h₂⟩ : ∃ s₂, Transition.exec (stepProcess orderJson {})
      (boot orderJson {} .empty, .empty)
      ((orderHandled ++ shutdownGracefully) ++ reopenAndReplay) = some s₂ :=
    Option.isSome_iff_exists.mp (by decide +kernel)
  have hleft : (Transition.exec (stepProcess orderJson {}) (boot orderJson {} .empty, .empty)
      (orderHandled ++ shutdownGracefully)).map (fun s => (decide s.1.Returned,
        s.1.manager.registry.ackTx, s.1.db.refcount[(7 : Uuid)]?))
      = some (true, [(7, true)], some 1) := by
    decide +kernel
  have hlog : (Transition.exec (stepProcess orderJson {}) (boot orderJson {} .empty, .empty)
      (orderHandled ++ shutdownGracefully)).map (fun s => (s.2.handed, s.2.sent, s.2.finished))
      = some ([7], [(0, 7)], [(0, 7)]) := by
    decide +kernel
  have htaken : (Transition.exec (stepProcess orderJson {}) (boot orderJson {} .empty, .empty)
      ((orderHandled ++ shutdownGracefully) ++ reopenAndReplay)).map (fun s => s.2.taken)
      = some [(0, 7)] := by
    decide +kernel
  rw [h₁] at hleft hlog
  rw [h₂] at htaken
  simp only [Option.map_some, Option.some.injEq, Prod.mk.injEq, decide_eq_true_eq]
    at hleft hlog htaken
  obtain ⟨hreturned, hacks, hrefcount⟩ := hleft
  obtain ⟨hhanded, hsent, hfinished⟩ := hlog
  have hhandled := handled_order hhanded hsent hfinished
  refine ⟨s₁, s₂, h₁, hreturned, hhandled, hacks, fun h => ?_,
    (Transition.exec_append_of_exec _ h₁).symm.trans h₂, htaken⟩
  rw [(h hreturned 7 hhandled).2.1] at hrefcount
  cases hrefcount

/-- The ack worker has received the completion. -/
def orderSettled : List Action := [.handler (.ack true)] ++ shutdownGracefully

/-- Then the shutdown leaves nothing of the order. -/
theorem leavesNothing_orderSettled :
    ∃ s', Transition.exec (stepProcess orderJson {}) (boot orderJson {} .empty, .empty)
        (orderHandled ++ orderSettled) = some s' ∧
      s'.1.Returned ∧ Handled s'.2 7 ∧ LeavesNothing s'.1 s'.2 := by
  obtain ⟨s', hexec⟩ : ∃ s', Transition.exec (stepProcess orderJson {})
      (boot orderJson {} .empty, .empty) (orderHandled ++ orderSettled) = some s' :=
    Option.isSome_iff_exists.mp (by decide +kernel)
  have hleft : (Transition.exec (stepProcess orderJson {}) (boot orderJson {} .empty, .empty)
      (orderHandled ++ orderSettled)).map (fun s => (decide s.1.Returned,
        s.1.manager.registry.ackTx)) = some (true, []) := by
    decide +kernel
  have hlog : (Transition.exec (stepProcess orderJson {}) (boot orderJson {} .empty, .empty)
      (orderHandled ++ orderSettled)).map (fun s => (s.2.handed, s.2.sent, s.2.finished))
      = some ([7], [(0, 7)], [(0, 7)]) := by
    decide +kernel
  rw [hexec] at hleft hlog
  simp only [Option.map_some, Option.some.injEq, Prod.mk.injEq, decide_eq_true_eq] at hleft hlog
  obtain ⟨hreturned, hacks⟩ := hleft
  obtain ⟨hhanded, hsent, hfinished⟩ := hlog
  exact ⟨s', hexec, hreturned, handled_order hhanded hsent hfinished,
    leavesNothing_along Db.consistent_empty hexec (by decide +kernel) hacks⟩

end PersistentBus
end TokioEvents
