/-
  TokioEvents.Remote.Inbound

  The consumer loop of `EventBus::subscribe_remote`, which feeds the messages of a
  network stream to the local bus, and the tasks of `NatsTransport::subscribe` that
  acknowledge them.
-/

import TokioEvents.Remote.State

namespace TokioEvents

/-- `TypeId::of::<BroadcastEvent>()`. -/
def broadcastEventTypeId : TypeId := 0

/-- The envelope of a message that cannot be deserialized.  A `BroadcastEvent` is its
    message; it is never serialized here, since the envelope has its bytes. -/
def poisonPill (bytes : Bytes) (metadata : EventMetadata) : EventEnvelope :=
  { EventEnvelope.withMetadata broadcastEventTypeId "BroadcastEvent" .ok
      "Poison Pill".toUTF8.toList metadata with
    payloadBytes := some bytes }

namespace RemoteBus

/-- The steps of consumer loops and of the tasks that acknowledge their messages. -/
inductive ConsumerAction where
  /-- `subscribe_remote` spawns a loop. -/
  | spawn (remote : RemoteType) (jetStream : Bool)
  /-- `stream.next()` yields a message; `metadata` is a fresh `EventMetadata::new()`, and
      `addr` names the allocation of a poison pill. -/
  | receive (k : Nat) (bytes : Bytes) (eventId : Uuid) (timestamp : DateTime) (addr : Nat)
  /-- `local_bus.publish(event)` has returned. -/
  | routed (k : Nat)
  /-- `dlq_tx.send(envelope)` completes. -/
  | deadLettered (k : Nat)
  /-- `stream.next()` yields `None`. -/
  | ended (k : Nat)
  /-- The task is dropped at an `await`. -/
  | dropped (k : Nat)
  /-- `ack_rx.await.is_ok()`, and `msg.ack()`. -/
  | ack (k : Nat) (message : Nat)

/-- `let _ = ack_tx.send(())`, and on to the next message. -/
def conclude (s : RemoteBus) (k : Nat) (consumer : Consumer) (handling : Handling) : RemoteBus :=
  s.setConsumer k { consumer with
    phase := .streaming
    handled := consumer.handled ++ [handling]
    -- Trigger NATS acknowledgment after successful local routing or DLQ drop.
    signalled := consumer.signalled ++ [consumer.handled.length] }

/-- The next message of the stream. -/
def receive (s : RemoteBus) (k : Nat) (bytes : Bytes) (metadata : EventMetadata) (addr : Nat) :
    Option RemoteBus :=
  match s.consumers[k]? with
  | some consumer =>
    match consumer.phase with
    | .streaming =>
      match consumer.remote.deserializeEvent bytes with
      | .ok event =>
        let phase := .publishing s.bus.calls.length
        some ((s.setBus (s.bus.publish (consumer.remote.envelope event metadata) false)).setConsumer
          k { consumer with phase := phase })
      | .error _ =>
        -- MITIGATION: Network Poison Pill DLQ
        if s.bus.dlq.isSome then
          let envelope : ArcEnvelope := ⟨addr, poisonPill bytes metadata⟩
          some (s.setConsumer k { consumer with phase := .deadLettering envelope })
        else some (s.conclude k consumer .dropped)
    | _ => none
  | none => none

/-- The local publish is over; its error is only logged. -/
def routed (s : RemoteBus) (k : Nat) : Option RemoteBus :=
  match s.consumers[k]? with
  | some consumer =>
    match consumer.phase with
    | .publishing n =>
      match s.bus.calls[n]? with
      | some call =>
        match call.phase with
        | .returned _ => some (s.conclude k consumer (.published n))
        | _ => none
      | none => none
    | _ => none
  | none => none

/-- `let _ = dlq_tx.send(Arc::new(envelope)).await`. -/
def deadLettered (s : RemoteBus) (k : Nat) : Option RemoteBus :=
  match s.consumers[k]? with
  | some consumer =>
    match consumer.phase, s.bus.dlq with
    | .deadLettering envelope, some dlq =>
      match dlq.trySend envelope with
      | .ok dlq =>
        some ({ s with bus := { s.bus with dlq := some dlq } }.conclude k consumer
          (.deadLettered true))
      | .error .full => none
      | .error .closed => some (s.conclude k consumer (.deadLettered false))
    | _, _ => none
  | none => none

/-- Remote Consumer Loop stopped. -/
def consumerEnded (s : RemoteBus) (k : Nat) : Option RemoteBus :=
  match s.consumers[k]? with
  | some consumer =>
    match consumer.phase with
    | .streaming => some (s.setConsumer k { consumer with phase := .stopped })
    | _ => none
  | none => none

/-- The task is dropped, with its publish call and the `ack_tx` of its message. -/
def consumerDropped (s : RemoteBus) (k : Nat) : Option RemoteBus :=
  match s.consumers[k]? with
  | some consumer =>
    let stopped := { consumer with phase := .stopped }
    match consumer.phase with
    | .publishing n => (s.bus.cancel n).map fun bus => (s.setBus bus).setConsumer k stopped
    | .stopped => none
    | _ => some (s.setConsumer k stopped)
  | none => none

/-- The acknowledgement of a message. -/
def ack (s : RemoteBus) (k : Nat) (message : Nat) : Option RemoteBus :=
  match s.consumers[k]? with
  | some consumer =>
    if consumer.jetStream ∧ message ∈ consumer.signalled ∧ message ∉ consumer.acked then
      some (s.setConsumer k { consumer with acked := consumer.acked ++ [message] })
    else none
  | none => none

/-- A step of a consumer loop. -/
def stepConsumer (s : RemoteBus) : ConsumerAction → Option RemoteBus
  | .spawn remote jetStream =>
    some { s with consumers := s.consumers ++ [⟨remote, jetStream, .streaming, [], [], []⟩] }
  | .receive k bytes eventId timestamp addr =>
    s.receive k bytes { eventId := eventId, timestamp := timestamp } addr
  | .routed k => s.routed k
  | .deadLettered k => s.deadLettered k
  | .ended k => s.consumerEnded k
  | .dropped k => s.consumerDropped k
  | .ack k message => s.ack k message

end RemoteBus
end TokioEvents
