/-
  TokioEvents.Persistence.Idempotency

  Idempotency keys across re-injection.  The key of an event is recorded by the
  transaction that first accepts it, and nothing ever removes a key.  The scheduler,
  `replay_pending` and `replay_dlq` put the stored event back into the queue with its
  key, and the duplicate check does not tell it from a second publish: it is
  acknowledged and discarded, in every batch of every later run.
-/

import TokioEvents.Persistence.Bus.Effects

namespace TokioEvents
namespace PersistentBus

variable {json : SerdeJson} {config : BusConfig} {s s' : PersistentBus} {k : String}

/-! ## A recorded key stays recorded -/

theorem keyRecorded_ack (db : Db) (completion : Completion) (k : String) :
    (db.ack completion).keyRecorded k = db.keyRecorded k := by
  rcases db.ack_cases completion with h | ⟨n, h⟩ | ⟨dlq, h⟩ <;> rw [h] <;> rfl

/-- Only the worker records keys, and nobody forgets one. -/
theorem keyRecorded_of_not_worker {a : Action} (h : step json config s a = some s')
    (ha : ∀ b, a ≠ .worker b) (k : String) : s'.db.keyRecorded k = s.db.keyRecorded k := by
  cases a with
  | publisher a => rw [(stepPublisher_frame h).1]
  | worker a => exact absurd rfl (ha a)
  | scheduler a =>
    rw [(stepScheduler_frame h).1]
    cases s.pollTime a <;> rfl
  | handler a =>
    rcases (stepHandler_frame h).1 with hdb | ⟨completion, -, hdb⟩
    · rw [hdb]
    · rw [hdb, keyRecorded_ack]
  | replay a =>
    obtain ⟨⟨envelopes, hdb⟩, -⟩ := stepReplay_frame h
    rw [hdb]
    cases s.collected a <;> rfl
  | control a => rw [(stepControl_frame h).1]

/-- **One step** keeps every recorded key. -/
theorem step_keyRecorded {a : Action} (h : step json config s a = some s')
    (hrec : s.db.keyRecorded k = true) : s'.db.keyRecorded k = true := by
  by_cases ha : ∃ b, a = .worker b
  · obtain ⟨b, rfl⟩ := ha
    obtain ⟨-, ⟨hdb, -⟩ | ⟨done, hdb, -⟩⟩ := stepWorker_db h
    · rw [hdb]
      exact hrec
    · rw [hdb, keyRecorded_insertRows]
      exact .inl hrec
  · rw [keyRecorded_of_not_worker h fun b hb => ha ⟨b, hb⟩]
    exact hrec

/-- **Every run** keeps every recorded key. -/
theorem exec_keyRecorded {as : List Action} (h : exec json config s as = some s')
    (hrec : s.db.keyRecorded k = true) : s'.db.keyRecorded k = true :=
  Transition.invariant (I := fun s : PersistentBus => s.db.keyRecorded k = true)
    (fun _ _ _ hI hstep => step_keyRecorded hstep hI) hrec h

/-! ## Re-injection -/

/-- The stored event that a step puts back into the queue: a scheduled event that
    fires, a pending row, or a row of the DLQ. -/
def reinjected (s : PersistentBus) : Action → Option RedbDispatcherMessage
  | .scheduler .send =>
    match s.scheduler with
    | .sending envelope _ => some ⟨envelope, none⟩
    | _ => none
  | .replay (.send index) =>
    match s.replays[index]? with
    | some (.pendingSend envelope _ _) => some ⟨envelope, none⟩
    | _ => none
  | .replay (.dlqSend index) =>
    match s.replays[index]? with
    | some (.dlq (persisted :: _)) =>
      (EventRegistry.getTypeId s.manager.registry persisted.typeName).map persisted.message
    | _ => none
  | _ => none

/-- An accepted event comes back: its key is recorded in `s`, a step puts the stored
    event back into the queue, and after any further steps the worker of `s'` has it in
    a batch it is about to check. -/
structure Reinjection (json : SerdeJson) (config : BusConfig) (s : PersistentBus)
    (msg : RedbDispatcherMessage) (s' : PersistentBus) : Prop where
  accepted : ∃ k, msg.idempotencyKey = some k ∧ s.db.keyRecorded k = true
  enqueued : ∃ a s₁ as, s.reinjected a = some msg ∧ step json config s a = some s₁ ∧
    exec json config s₁ as = some s'
  arrived : ∃ batch, s'.worker = .draining batch ∧ msg ∈ batch

/-- A check whose reads succeed discards a message with a recorded key. -/
theorem check_discards {msg : RedbDispatcherMessage} (h : s.check (fun _ => true) = some s')
    (hkey : msg.idempotencyKey = some k) (hrec : s.db.keyRecorded k = true) :
    msg ∉ s'.worker.messages := by
  obtain ⟨batch, checked, -, rfl, rfl⟩ := check_cases h
  exact DupCheck.not_mem_valid_of_recorded _ _ hkey (by simp [hrec])

/-- **No accepted event comes back.** Whatever the batch in which a re-injected event
    arrives, and whatever has happened since, the duplicate check discards it, so it is
    not handed on. -/
theorem reinjection_discarded {msg : RedbDispatcherMessage} {s'' : PersistentBus}
    (h : Reinjection json config s msg s')
    (hcheck : step json config s' (.worker (.check fun _ => true)) = some s'') :
    msg ∉ s''.worker.messages := by
  obtain ⟨k, hkey, hrec⟩ := h.accepted
  obtain ⟨a, s₁, as, -, hstep, hrun⟩ := h.enqueued
  exact check_discards hcheck hkey (exec_keyRecorded hrun (step_keyRecorded hstep hrec))

/-! ## A scheduled order with a key -/

/-- An order to be delivered one millisecond after the epoch. -/
def keyedOrder : EventEnvelope :=
  .fromSerialized 1 "OrderEvent"
    { eventId := 7, timestamp := 0, deliverAt := some 1000000, idempotencyKey := some "k" }
    .normal []

/-- The codec that knows the order. -/
def keyedOrderJson : SerdeJson := .ofList [⟨"OrderEvent", keyedOrder.metadata, .normal, []⟩]

/-- One subscriber; the order is published, stored for the scheduler, falls due and is
    about to be sent to the worker. -/
def keyedOrderFires : List Action :=
  [.handler (.openChannel 10),
    .handler (.registry (.register 1 "OrderEvent" { id := 10 })), .control .start,
    .publisher (.dispatch keyedOrder), .worker .recv, .worker (.check fun _ => true),
    .worker (.count 0), .worker (.write noFaults),
    .worker (.deliver 0), .worker (.deliver 0), .scheduler (.wake 2000000),
    .scheduler (.poll true), .scheduler .fire]

/-- The scheduler is in `sender.send(msg)`. -/
def orderFiring : PersistentBus :=
  after keyedOrderJson {} (boot keyedOrderJson {} .empty) keyedOrderFires

/-- The order is back with the worker. -/
def orderArrived : PersistentBus :=
  after keyedOrderJson {} orderFiring [.scheduler .send, .worker .recv]

/-- The duplicate check is done. -/
def orderChecked : PersistentBus :=
  after keyedOrderJson {} orderArrived [.worker (.check fun _ => true)]

/-- The message that re-injects the order. -/
def firedOrder : RedbDispatcherMessage :=
  ⟨firedEnvelope 1 ⟨"OrderEvent", keyedOrder.metadata, .normal, []⟩, none⟩

theorem reinjection_firedOrder :
    Reinjection keyedOrderJson {} orderFiring firedOrder orderArrived where
  accepted := ⟨"k", rfl, by decide⟩
  enqueued := ⟨.scheduler .send, after keyedOrderJson {} orderFiring [.scheduler .send],
    [.worker .recv], rfl, rfl, rfl⟩
  arrived := ⟨[firedOrder], rfl, List.mem_singleton_self _⟩

/-- The fired order does not pass its check. -/
theorem reinjection_discarded_firedOrder : firedOrder ∉ orderChecked.worker.messages :=
  reinjection_discarded reinjection_firedOrder rfl

/-- The check does not let every re-injected event through: the fired order is in no
    table, was never handed on, and is gone. -/
theorem not_reinjection_passes :
    exec keyedOrderJson {} (boot keyedOrderJson {} .empty) keyedOrderFires = some orderFiring ∧
    (¬ ∀ msg s' s'', Reinjection keyedOrderJson {} orderFiring msg s' →
      step keyedOrderJson {} s' (.worker (.check fun _ => true)) = some s'' →
      msg ∈ s''.worker.messages) ∧
    7 ∉ orderChecked.history.handed ∧ 7 ∉ orderChecked.db.scheduledIds keyedOrderJson ∧
    7 ∉ orderChecked.db.events := by
  refine ⟨rfl, fun h => ?_, by decide, by decide, by decide⟩
  have hmem := h firedOrder orderArrived orderChecked reinjection_firedOrder rfl
  cases hmem

end PersistentBus
end TokioEvents
