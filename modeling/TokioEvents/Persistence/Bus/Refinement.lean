/-
  TokioEvents.Persistence.Bus.Refinement

  The tasks of the bus against the functions that take a whole batch or a whole call at
  once.  A batch that the worker handles without interruption leaves the database, the
  fired oneshots and the handed events of `processBatch`; the sends of one `dispatch`
  leave the channels of `SubscriptionManager.dispatch`; and an uninterrupted call of
  `replay_dlq` leaves the database and the queue of `replayDlq`.
-/

import TokioEvents.Persistence.Bus.System

namespace TokioEvents

/-- The duplicate check of messages that carry data along. -/
theorem DupCheck.run_map {α β : Type} (f : α → β) (key : β → Option String)
    (recorded : String → Bool) (batch : List α) :
    run key recorded (batch.map f)
      = ⟨(run (fun a => key (f a)) recorded batch).batchKeys,
          (run (fun a => key (f a)) recorded batch).valid.map f,
          (run (fun a => key (f a)) recorded batch).duplicates.map f⟩ := by
  induction batch using List.reverseRecOn with
  | nil => rfl
  | append_singleton batch a ih =>
    rw [List.map_append, List.map_cons, List.map_nil, run_concat, run_concat, ih, step, step]
    split <;> simp

namespace PersistentBus

variable {json : SerdeJson} {config : BusConfig} {s : PersistentBus}

/-! ## Counting and writing -/

/-- The worker's steps from the duplicate check of a batch to its write. -/
def prepareBatch (faults : RedbCall → Option Fault) (valid : List Item) : List Action :=
  .worker (.check fun _ => true) ::
    (valid.map fun item => .worker (.count item.persistNow)) ++ [.worker (.write faults)]

/-- What the worker reads for the item is what the registry says. -/
def ReadsCount (config : BusConfig) (s : PersistentBus) (item : Item) : Prop :=
  subCount config.overflowChecks s.manager.registry item.msg.envelope = some item.subCount

/-- What a batch leaves alone while it is prepared. -/
structure SamePublished (s s' : PersistentBus) : Prop where
  manager : s'.manager = s.manager
  signalled : s'.signalled = s.signalled
  handed : s'.history.handed = s.history.handed

theorem SamePublished.trans {s s' s'' : PersistentBus} (h : SamePublished s s')
    (h' : SamePublished s' s'') : SamePublished s s'' :=
  ⟨h'.manager.trans h.manager, h'.signalled.trans h.signalled, h'.handed.trans h.handed⟩

theorem step_count (json : SerdeJson) (config : BusConfig) {done : List Counted} {item : Item}
    {rest : List RedbDispatcherMessage} (hphase : s.worker = .counting done (item.msg :: rest))
    (hreads : s.ReadsCount config item) :
    ∃ s', step json config s (.worker (.count item.persistNow)) = some s' ∧
      s'.worker = .counting (done ++ [item.toCounted]) rest ∧ s'.db = s.db ∧
      SamePublished s s' := by
  have hstep : step json config s (.worker (.count item.persistNow))
      = s.count config item.persistNow := rfl
  rw [hstep, count, hphase]
  dsimp only
  rw [show subCount _ _ _ = some item.subCount from hreads]
  exact ⟨_, rfl, rfl, rfl, rfl, rfl, rfl⟩

theorem exec_counts (json : SerdeJson) (config : BusConfig) {done : List Counted}
    {items : List Item} (hphase : s.worker = .counting done (items.map (·.msg)))
    (hreads : ∀ item ∈ items, s.ReadsCount config item) :
    ∃ s', exec json config s (items.map fun item => .worker (.count item.persistNow)) = some s' ∧
      s'.worker = .counting (done ++ items.map (·.toCounted)) [] ∧ s'.db = s.db ∧
      SamePublished s s' := by
  induction items generalizing s done with
  | nil => exact ⟨s, rfl, by simpa using hphase, rfl, rfl, rfl, rfl⟩
  | cons item items ih =>
    obtain ⟨s₁, hstep, hphase₁, hdb₁, hsame₁⟩ :=
      step_count json config hphase (hreads item (List.mem_cons_self ..))
    have hreads₁ : ∀ item' ∈ items, s₁.ReadsCount config item' := by
      unfold ReadsCount
      rw [hsame₁.manager]
      exact fun item' h' => hreads item' (List.mem_cons_of_mem _ h')
    obtain ⟨s', hexec, hphase', hdb', hsame'⟩ := ih hphase₁ hreads₁
    refine ⟨s', ?_, by simpa using hphase', hdb'.trans hdb₁, hsame₁.trans hsame'⟩
    rw [List.map_cons]
    exact (Transition.exec_cons_of_step _ hstep).trans hexec

/-- The check of a batch of items is the check of their messages. -/
theorem step_check (json : SerdeJson) (config : BusConfig) {batch : List Item}
    (hphase : s.worker = .draining (batch.map (·.msg)))
    (hfull : s.queue.buffer = [] ∨ 1000 ≤ batch.length) :
    ∃ s', step json config s (.worker (.check fun _ => true)) = some s' ∧
      s'.worker = .counting [] ((validBatch s.db batch).map (·.msg)) ∧ s'.db = s.db ∧
      s'.manager = s.manager ∧ s'.history.handed = s.history.handed ∧
      s'.signalled = s.signalled ++
        (DupCheck.run Item.idempotencyKey s.db.keyRecorded batch).duplicates.filterMap
          (·.msg.ackTx) := by
  have hstep : step json config s (.worker (.check fun _ => true)) = s.check fun _ => true := rfl
  have hrecorded : (fun key => true && s.db.keyRecorded key) = s.db.keyRecorded := by
    funext key
    exact Bool.true_and _
  rw [hstep, check, hphase]
  dsimp only
  rw [if_pos (by simpa using hfull), hrecorded, DupCheck.run_map]
  refine ⟨_, rfl, rfl, rfl, rfl, rfl, ?_⟩
  rw [List.filterMap_map]
  rfl

/-- The write of a counted batch of items. -/
theorem step_write (json : SerdeJson) (config : BusConfig) (faults : RedbCall → Option Fault)
    {batch : List Item} {db : Db}
    (hphase : s.worker = .counting ((validBatch db batch).map (·.toCounted)) [])
    (hdb : s.db = db) :
    ∃ s', step json config s (.worker (.write faults)) = some s' ∧
      s'.db = (processBatch json faults db batch).db ∧ SamePublished s s' ∧
      s'.worker = if batchWrite json faults db batch = .panicked then .receiving
        else .delivering ((validBatch db batch).map (·.msg)) := by
  have hrows : rowsOf json ((validBatch db batch).map (·.toCounted)) = dbInserts json db batch := by
    rw [rowsOf, List.filterMap_map]
    rfl
  have hmsgs : ((validBatch db batch).map (·.toCounted)).map (·.msg)
      = (validBatch db batch).map (·.msg) := List.map_map ..
  have hstep : step json config s (.worker (.write faults)) = s.write json faults := rfl
  rw [processBatch_eq, hstep, write, hphase, hdb]
  dsimp only
  rw [hrows, hmsgs, joinWrite_writeTxn]
  unfold batchWrite
  by_cases hempty : (dbInserts json db batch).isEmpty = true
  · simp only [hempty, ↓reduceIte]
    refine ⟨_, rfl, ?_, ⟨rfl, rfl, rfl⟩, rfl⟩
    rw [List.isEmpty_iff.mp hempty]
    rfl
  · simp only [hempty, Bool.false_eq_true, ↓reduceIte]
    cases writeOutcome faults (dbInserts json db batch) with
    | committed => exact ⟨_, rfl, rfl, ⟨rfl, rfl, rfl⟩, rfl⟩
    | failed msg => exact ⟨_, rfl, rfl, ⟨rfl, rfl, rfl⟩, rfl⟩
    | panicked => exact ⟨_, rfl, rfl, ⟨rfl, rfl, rfl⟩, rfl⟩

/-- From the check of a batch to its write, without interruption. -/
theorem exec_prepareBatch (json : SerdeJson) (config : BusConfig)
    (faults : RedbCall → Option Fault) {batch : List Item}
    (hphase : s.worker = .draining (batch.map (·.msg)))
    (hfull : s.queue.buffer = [] ∨ 1000 ≤ batch.length)
    (hreads : ∀ item ∈ batch, s.ReadsCount config item) :
    ∃ s', exec json config s (prepareBatch faults (validBatch s.db batch)) = some s' ∧
      s'.db = (processBatch json faults s.db batch).db ∧
      s'.history.handed = s.history.handed ∧
      s'.signalled = s.signalled ++
        (processBatch json faults s.db batch).discarded.filterMap (·.msg.ackTx) ∧
      s'.worker = if batchWrite json faults s.db batch = .panicked then .receiving
        else .delivering ((validBatch s.db batch).map (·.msg)) := by
  obtain ⟨s₁, hcheck, hphase₁, hdb₁, hmanager₁, hhanded₁, hsignalled₁⟩ :=
    step_check json config hphase hfull
  have hreads₁ : ∀ item ∈ validBatch s.db batch, s₁.ReadsCount config item := by
    unfold ReadsCount
    rw [hmanager₁]
    exact fun item h => hreads item ((DupCheck.mem_valid_or_mem_duplicates _ _).mp (.inl h))
  obtain ⟨s₂, hcounts, hphase₂, hdb₂, hsame₂⟩ :=
    exec_counts json config hphase₁ hreads₁
  obtain ⟨s₃, hwrite, hdb₃, hsame₃, hphase₃⟩ :=
    step_write json config faults hphase₂ (hdb₂.trans hdb₁)
  have hsame := hsame₂.trans hsame₃
  refine ⟨s₃, ?_, hdb₃, hsame.handed.trans hhanded₁, ?_, hphase₃⟩
  · refine (Transition.exec_cons_of_step _ hcheck).trans ?_
    refine (Transition.exec_append_of_exec _ hcounts).trans ?_
    exact Transition.exec_cons_of_step _ hwrite
  · rw [hsame.signalled, hsignalled₁, processBatch_eq]

/-! ## Delivering -/

/-- The dispatch loop over items; the timeout cuts each `dispatch` off at once. -/
def deliverBatch (items : List Item) : List Action :=
  items.flatMap fun item => .worker (.deliver item.dispatchNow) ::
    if item.msg.envelope.isScheduled item.dispatchNow then [] else [.worker .dispatched]

theorem exec_deliverBatch (json : SerdeJson) {items : List Item}
    (htimeout : 0 < config.processingTimeoutMs)
    (hphase : s.worker = .delivering (items.map (·.msg))) :
    ∃ s', exec json config s (deliverBatch items) = some s' ∧ s'.worker = .delivering [] ∧
      s'.db = s.db ∧ s'.signalled = s.signalled ++ items.filterMap (·.msg.ackTx) ∧
      s'.history.handed = s.history.handed ++
        (items.filter fun item => !item.msg.envelope.isScheduled item.dispatchNow).map
          (·.msg.envelope.eventId) := by
  induction items generalizing s with
  | nil => exact ⟨s, rfl, hphase, rfl, by simp, by simp⟩
  | cons item items ih =>
    have hstep : step json config s (.worker (.deliver item.dispatchNow))
        = s.deliver item.dispatchNow := rfl
    have hacks : (item :: items).filterMap (·.msg.ackTx)
        = item.msg.ackTx.toList ++ items.filterMap (·.msg.ackTx) := by
      cases h : item.msg.ackTx <;> simp [h]
    have hcons : deliverBatch (item :: items) = .worker (.deliver item.dispatchNow) ::
        ((if item.msg.envelope.isScheduled item.dispatchNow then [] else [.worker .dispatched])
          ++ deliverBatch items) := rfl
    rw [hcons, hacks]
    cases hscheduled : item.msg.envelope.isScheduled item.dispatchNow with
    | true =>
      obtain ⟨s', hexec, hphase', hdb, hsignalled, hhanded⟩ :=
        ih (s := { s with
          signalled := s.signalled ++ item.msg.ackTx.toList
          worker := .delivering (items.map (·.msg)) }) rfl
      refine ⟨s', ?_, hphase', hdb, ?_, ?_⟩
      · refine (Transition.exec_cons_of_step _ ?_).trans hexec
        rw [hstep, deliver, hphase]
        simp [hscheduled]
      · rw [hsignalled, List.append_assoc]
      · rw [hhanded]
        simp [hscheduled]
    | false =>
      obtain ⟨s', hexec, hphase', hdb, hsignalled, hhanded⟩ :=
        ih (s := { s with
          signalled := s.signalled ++ item.msg.ackTx.toList
          worker := .delivering (items.map (·.msg))
          history := { s.history with
            handed := s.history.handed ++ [item.msg.envelope.eventId] } }) rfl
      refine ⟨s', ?_, hphase', hdb, ?_, ?_⟩
      · have hhand : step json config s (.worker (.deliver item.dispatchNow)) = some { s with
            signalled := s.signalled ++ item.msg.ackTx.toList
            worker := .dispatching item.msg.envelope (s.manager.senders item.msg.envelope)
              (items.map (·.msg))
            history := { s.history with
              handed := s.history.handed ++ [item.msg.envelope.eventId] } } := by
          rw [hstep, deliver, hphase]
          simp [hscheduled]
        refine (Transition.exec_cons_of_step _ hhand).trans ?_
        refine (Transition.exec_cons_of_step _ ?_).trans hexec
        simp [step, stepWorker, dispatched, htimeout]
      · rw [hsignalled, List.append_assoc]
      · rw [hhanded]
        simp [hscheduled]

/-- With room in every live channel, all sends of a `dispatch` complete. -/
theorem exec_pushes (json : SerdeJson) {envelope : EventEnvelope} {sends : List Uuid}
    {rest : List RedbDispatcherMessage} (hphase : s.worker = .dispatching envelope sends rest)
    (hnodup : sends.Nodup)
    (hopen : ∀ id ∈ sends, (s.manager.subscriptions[id]?).isSome = true)
    (hroom : ∀ id ∈ sends, ∀ data, s.manager.subscriptions[id]? = some data → data.live = true →
      data.channel.length < config.handlerChannelSize) :
    exec json config s (sends.map fun id => .worker (.push id)) = some { s with
      worker := .dispatching envelope [] rest
      manager := { s.manager with
        subscriptions :=
          SubscriptionManager.pushAll envelope s.manager.subscriptions sends } } := by
  induction sends generalizing s with
  | nil =>
    rw [← hphase]
    rfl
  | cons id sends ih =>
    obtain ⟨hid, hnodup'⟩ := List.nodup_cons.mp hnodup
    have hstep : step json config s (.worker (.push id)) = some { s with
        worker := .dispatching envelope sends rest
        manager := { s.manager with
          subscriptions := SubscriptionManager.push envelope s.manager.subscriptions id } } := by
      have hpush : step json config s (.worker (.push id)) = s.push config id := rfl
      rw [hpush, push, hphase]
      dsimp only
      rw [if_pos (List.mem_cons_self ..), List.erase_cons_head]
      cases hdata : s.manager.subscriptions[id]? with
      | none =>
        have := hopen id (List.mem_cons_self ..)
        simp [hdata] at this
      | some data =>
        have hfree : ¬ (data.live && decide (config.handlerChannelSize ≤ data.channel.length))
            = true := by
          rw [Bool.and_eq_true, decide_eq_true_eq]
          rintro ⟨hlive, hfull⟩
          have hlt := hroom id (List.mem_cons_self ..) data hdata hlive
          omega
        dsimp only
        rw [if_neg hfree]
    refine (Transition.exec_cons_of_step _ hstep).trans ((ih rfl hnodup' ?_ ?_).trans rfl)
    · intro id' hmem
      rw [SubscriptionManager.getElem?_push, Option.isSome_map]
      exact hopen id' (List.mem_cons_of_mem _ hmem)
    intro id' hmem data hdata
    have hne : ¬ id = id' := fun h => hid (h ▸ hmem)
    rw [SubscriptionManager.getElem?_push] at hdata
    simp only [hne, false_and, ↓reduceIte, Option.map_id_fun', id_eq] at hdata
    exact hroom id' (List.mem_cons_of_mem _ hmem) data hdata

/-- **One dispatch.** With room in every live channel, the worker's steps in `dispatch` are
    `SubscriptionManager.dispatch`. -/
theorem exec_dispatch (json : SerdeJson) {envelope : EventEnvelope}
    {rest : List RedbDispatcherMessage}
    (hphase : s.worker = .dispatching envelope (s.manager.senders envelope) rest)
    (hnodup : (s.manager.senders envelope).Nodup)
    (hroom : ∀ id ∈ s.manager.senders envelope, ∀ data, s.manager.subscriptions[id]? = some data →
      data.live = true → data.channel.length < config.handlerChannelSize) :
    exec json config s
        ((s.manager.senders envelope).map (fun id => .worker (.push id)) ++ [.worker .dispatched])
      = some { s with
          worker := .delivering rest
          manager := s.manager.dispatch envelope } := by
  refine (Transition.exec_append_of_exec _ (exec_pushes json hphase hnodup ?_ hroom)).trans ?_
  · intro id hid
    exact (SubscriptionManager.mem_senders.mp hid).choose_spec.2.2.2
  refine (Transition.exec_cons_of_step _ ?_).trans rfl
  simp [step, stepWorker, dispatched, SubscriptionManager.dispatch]

/-- The worker's steps over one batch. -/
def batchActions (json : SerdeJson) (faults : RedbCall → Option Fault) (db : Db)
    (batch : List Item) : List Action :=
  prepareBatch faults (validBatch db batch) ++
    if batchWrite json faults db batch = .panicked then []
    else deliverBatch (validBatch db batch) ++ [.worker (.deliver 0)]

/-- **One batch.** Handled without interruption, a batch takes the worker back to
    `receiver.recv()` with the database, the fired oneshots and the handed events that
    `processBatch` gives. -/
theorem exec_batch (json : SerdeJson) (faults : RedbCall → Option Fault) {batch : List Item}
    (htimeout : 0 < config.processingTimeoutMs)
    (hphase : s.worker = .draining (batch.map (·.msg)))
    (hfull : s.queue.buffer = [] ∨ 1000 ≤ batch.length)
    (hreads : ∀ item ∈ batch, s.ReadsCount config item) :
    ∃ s', exec json config s (batchActions json faults s.db batch) = some s' ∧
      s'.worker = .receiving ∧
      s'.db = (processBatch json faults s.db batch).db ∧
      s'.signalled = s.signalled ++
        ((processBatch json faults s.db batch).discarded ++
          (processBatch json faults s.db batch).acked).filterMap (·.msg.ackTx) ∧
      s'.history.handed = s.history.handed ++
        (processBatch json faults s.db batch).dispatched.map (·.msg.envelope.eventId) := by
  obtain ⟨s₁, hprepare, hdb₁, hhanded₁, hsignalled₁, hphase₁⟩ :=
    exec_prepareBatch json config faults hphase hfull hreads
  unfold batchActions
  by_cases hpanic : batchWrite json faults s.db batch = .panicked
  · rw [if_pos hpanic] at hphase₁ ⊢
    refine ⟨s₁, by rwa [List.append_nil], hphase₁, hdb₁, ?_, ?_⟩
    · rw [hsignalled₁, processBatch_eq]
      simp [hpanic]
    · rw [hhanded₁, processBatch_eq]
      simp [hpanic]
  · rw [if_neg hpanic] at hphase₁ ⊢
    obtain ⟨s₂, hdeliver, hphase₂, hdb₂, hsignalled₂, hhanded₂⟩ :=
      exec_deliverBatch json htimeout hphase₁
    have hacked : ((validBatch s.db batch).filter fun item => item.msg.ackTx.isSome).filterMap
        (·.msg.ackTx) = (validBatch s.db batch).filterMap (·.msg.ackTx) := by
      rw [List.filterMap_filter]
      refine List.filterMap_congr fun item _ => ?_
      cases item.msg.ackTx <;> rfl
    refine ⟨{ s₂ with worker := .receiving }, ?_, rfl, hdb₂.trans hdb₁, ?_, ?_⟩
    · refine (Transition.exec_append_of_exec _ hprepare).trans ?_
      refine (Transition.exec_append_of_exec _ hdeliver).trans ?_
      refine Transition.exec_cons_of_step _ ?_
      simp [step, stepWorker, deliver, hphase₂]
    · show s₂.signalled = _
      rw [hsignalled₂, hsignalled₁, processBatch_eq]
      simp only [hpanic, ↓reduceIte, List.filterMap_append, hacked, List.append_assoc]
    · show s₂.history.handed = _
      rw [hhanded₂, hhanded₁, processBatch_eq]
      simp only [hpanic, ↓reduceIte]

/-! ## `replay_dlq` -/

/-- The sending loop of a replay call that runs alone. -/
theorem exec_dlqSends (json : SerdeJson) (config : BusConfig)
    {envelopes : List (Uuid × PersistedEnvelope)} (i : Nat)
    (hreplays : s.replays = [.dlq (envelopes.map (·.2))]) :
    exec json config s (List.replicate (envelopes.length + 1) (.replay (.dlqSend 0)))
      = some { s with
          replays := []
          queue := (sendDlq s.manager.registry (fun _ queue => queue) i s.queue
            envelopes).queue } := by
  have hstep : step json config s (.replay (.dlqSend 0)) = s.replayDlqSend 0 := rfl
  induction envelopes generalizing s i with
  | nil =>
    refine (Transition.exec_cons_of_step _ ?_).trans rfl
    rw [hstep, replayDlqSend, hreplays]
    rfl
  | cons row rest ih =>
    obtain ⟨id, persisted⟩ := row
    have hhead : s.replays = [.dlq (persisted :: rest.map (·.2))] := hreplays
    -- the state in which the next turn of the loop begins
    have hnext : ∃ queue, step json config s (.replay (.dlqSend 0))
          = some { s with replays := [.dlq (rest.map (·.2))], queue := queue } ∧
        (sendDlq s.manager.registry (fun _ queue => queue) i s.queue
            ((id, persisted) :: rest)).queue
          = (sendDlq s.manager.registry (fun _ queue => queue) (i + 1) queue rest).queue := by
      rw [hstep, replayDlqSend, hhead, sendDlq]
      dsimp only [List.getElem?_cons_zero, List.set_cons_zero]
      cases EventRegistry.getTypeId s.manager.registry persisted.typeName with
      | none => exact ⟨_, rfl, rfl⟩
      | some typeId =>
        dsimp only
        cases s.queue.trySend (persisted.message typeId) with
        | error e => exact ⟨_, rfl, rfl⟩
        | ok queue => exact ⟨queue, rfl, rfl⟩
    obtain ⟨queue, hfirst, hqueue⟩ := hnext
    rw [List.length_cons, List.replicate_succ, hqueue]
    exact (Transition.exec_cons_of_step _ hfirst).trans (ih (i + 1) rfl rfl)

/-- **One call of `replay_dlq`** that runs alone. -/
theorem exec_replayDlq (json : SerdeJson) (config : BusConfig) (hexclusive : s.exclusive = false)
    (hsender : s.sender = true) (hreplays : s.replays = []) :
    exec json config s (.replay .dlq ::
        List.replicate ((s.db.dlqEnvelopes json).length + 1) (.replay (.dlqSend 0)))
      = some { s with
          db := (TokioEvents.replayDlq json s.manager.registry (fun _ queue => queue)
            (some s.queue) .committed s.db).db
          queue := (sendDlq s.manager.registry (fun _ queue => queue) 0 s.queue
            (s.db.dlqEnvelopes json)).queue } := by
  have hstep : step json config s (.replay .dlq) = some { s with
      db := s.db.removeDlq (s.db.dlqEnvelopes json)
      replays := [.dlq ((s.db.dlqEnvelopes json).map (·.2))] } := by
    have hdlq : step json config s (.replay .dlq) = s.replayDlq json := rfl
    simp [hdlq, PersistentBus.replayDlq, hexclusive, hsender, hreplays]
  refine (Transition.exec_cons_of_step _ hstep).trans ((exec_dlqSends json config 0 rfl).trans ?_)
  rw [← hreplays]
  rfl

end PersistentBus
end TokioEvents
