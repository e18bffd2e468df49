/-
  TokioEvents.Remote.State

  The bus with a remote transport: the consumer loops of `subscribe_remote`, the calls
  of `publish_remote`, `publish_remote_delayed` and `publish_remote_scheduled`, and the
  tasks the latter two spawn (`src/bus/mod.rs`, `src/remote/nats.rs`).

  The transport is seen from its two ends: `wire` is what was passed to
  `RemoteTransport::publish`, and an inbound message is acknowledged when the task that
  waits for its `ack_tx` acknowledges it at the broker.
-/

import TokioEvents.Bus.Journal
import TokioEvents.Event.Uuid

namespace TokioEvents

/-- A type with `Event` and `Remote`. -/
structure RemoteType where
  typeId : TypeId
  eventType : String
  remoteTopic : String
  serializeEvent : Bytes → Except Error Bytes
  deserializeEvent : Bytes → Except Error Bytes

/-- `EventEnvelope::with_metadata` of a value of the type. -/
def RemoteType.envelope (remote : RemoteType) (event : Bytes) (metadata : EventMetadata) :
    EventEnvelope :=
  .withMetadata remote.typeId remote.eventType remote.serializeEvent event metadata

/-! ## Inbound -/

/-- What was done with an inbound message before its `ack_tx` was used. -/
inductive Handling where
  /-- It was published by this call. -/
  | published (call : Nat)
  /-- It was sent to the DLQ, which took it or was closed. -/
  | deadLettered (taken : Bool)
  /-- There is no DLQ. -/
  | dropped
  deriving DecidableEq, Repr

/-- The consumer loop of `subscribe_remote`. -/
inductive ConsumerPhase where
  /-- In `stream.next()`. -/
  | streaming
  /-- In `local_bus.publish(event)`, which makes this call. -/
  | publishing (call : Nat)
  /-- In `dlq_tx.send(envelope)`. -/
  | deadLettering (envelope : ArcEnvelope)
  /-- The stream has ended, or the task was dropped. -/
  | stopped

/-- A consumer loop. Its messages are numbered as they arrive. -/
structure Consumer where
  remote : RemoteType
  /-- A task waits for `ack_tx`: the stream is of JetStream, not of core NATS. -/
  jetStream : Bool
  phase : ConsumerPhase
  /-- What was done with each message, for the statements about runs. -/
  handled : List Handling
  /-- The messages whose `ack_tx` was used. -/
  signalled : List Nat
  /-- The messages acknowledged at the broker. -/
  acked : List Nat

/-! ## Outbound -/

/-- The three ways to publish over the network. -/
inductive PublishKind where
  /-- `publish_remote` -/
  | immediate
  /-- `publish_remote_delayed`, with the delay in nanoseconds -/
  | delayed (delay : Nat)
  /-- `publish_remote_scheduled` -/
  | scheduled (deliverAt : DateTime)
  deriving DecidableEq, Repr

/-- A call of one of the three. -/
inductive PublicationPhase where
  /-- In the local publish, which is this call. -/
  | publishing (payload : Bytes) (call : Nat)
  /-- In `transport.publish(..)`. -/
  | sending (eventId : Uuid)
  | returned (result : Except Error Uuid)
  /-- The caller has dropped the future. -/
  | dropped

/-- A call of one of the three. -/
structure Publication where
  remote : RemoteType
  event : Bytes
  kind : PublishKind
  phase : PublicationPhase
  /-- The local publish call, if there is one. -/
  call : Option Nat
  /-- The bus was shutting down when the call began. -/
  shuttingDown : Bool

/-- The arguments of `RemoteTransport::publish`, and the call of which they are. -/
structure NetworkMessage where
  publication : Nat
  topic : String
  payload : Bytes
  msgId : String
  deriving DecidableEq, Repr

/-- The state of the system. -/
structure RemoteBus where
  bus : MemoryBus
  /-- `remote_transport` is `Some`. -/
  transport : Bool
  consumers : List Consumer
  publications : List Publication
  /-- The spawned tasks that sleep before their `transport.publish`. -/
  outbox : List NetworkMessage
  /-- What was passed to `transport.publish`. -/
  wire : List NetworkMessage
  /-- The publish calls whose event the dispatcher has taken, for the statements about
      runs. -/
  accepted : List Nat

namespace RemoteBus

/-- `EventBusBuilder::build`, with or without a transport. -/
def build (config : EventBusConfig) (transport : Bool) : RemoteBus where
  bus := .build config
  transport := transport
  consumers := []
  publications := []
  outbox := []
  wire := []
  accepted := []

/-- The local bus goes on. The dispatcher has taken the events of its queue and of the
    tasks it has spawned. -/
def setBus (s : RemoteBus) (bus : MemoryBus) : RemoteBus :=
  { s with
    bus := bus
    accepted := s.accepted ++ bus.entered ++ bus.sleepers.map (·.addr) }

/-- A consumer loop goes on. -/
def setConsumer (s : RemoteBus) (k : Nat) (consumer : Consumer) : RemoteBus :=
  { s with consumers := s.consumers.set k consumer }

/-- A call goes on to a phase. -/
def setPublication (s : RemoteBus) (k : Nat) (publication : Publication)
    (phase : PublicationPhase) : RemoteBus :=
  { s with publications := s.publications.set k { publication with phase := phase } }

end RemoteBus
end TokioEvents
