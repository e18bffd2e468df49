/-
  TokioEvents.Event.Envelope

  Events as the bus carries them (`src/event/metadata.rs`, `src/event/envelope.rs`,
  `src/error.rs`): identifiers, metadata, and the type-erased `EventEnvelope` that
  holds either an in-memory payload with its serializer or the bytes it was read
  back from.

  Machine representation: a `Uuid` is its 128 bits (`Uuid::as_u128` is the
  identity), a `TypeId` is an opaque name that is only compared, a `DateTime<Utc>`
  is the number of nanoseconds since the epoch, and a `HashMap` is an ordered map
  whose order no function reads.
-/

import Mathlib.Algebra.Group.Nat.Defs
import Mathlib.Algebra.Ring.Int.Defs
import Mathlib.Data.List.Basic

namespace TokioEvents

/-- `uuid::Uuid`, as the `u128` that keys every persistent table. -/
abbrev Uuid := BitVec 128

instance : Std.TransOrd Uuid := BitVec.instTransOrd

instance : Std.LawfulEqOrd Uuid := BitVec.instLawfulEqOrd

instance : LawfulBEq Uuid := inferInstance

/-- `std::any::TypeId`: an opaque identity, compared for equality only. -/
abbrev TypeId := Nat

/-- `Vec<u8>`. -/
abbrev Bytes := List UInt8

/-- `chrono::DateTime<Utc>` in nanoseconds since the Unix epoch. -/
abbrev DateTime := Int

/-- `timestamp_millis() as u64`: whole milliseconds, rounded down, reduced to the
    64 bits of the table key. -/
def timestampMillisU64 (d : DateTime) : Nat :=
  (d / 1000000 % 2 ^ 64).toNat

/-- The variants of `Error` that the modelled functions return. -/
inductive Error where
  | eventNotRegistered (typeName : String)
  | subscriptionNotFound (id : Uuid)
  | shuttingDown
  | serializationError (msg : String)
  | internal (msg : String)
  deriving DecidableEq, Repr

/-- `TryPublishError`. -/
inductive TryPublishError where
  | shuttingDown
  | backpressure
  | notRunning
  deriving DecidableEq, Repr

/-- `EventPriority`, lowest first. -/
inductive EventPriority where
  | low
  | normal
  | high
  | critical
  deriving DecidableEq, Repr

/-- `EventMetadata`. The defaults are those of `EventMetadata::new`, which draws
    `eventId` from the generator and `timestamp` from the clock. -/
structure EventMetadata where
  eventId : Uuid
  timestamp : DateTime
  correlationId : Option Uuid := none
  causationId : Option Uuid := none
  source : Option String := none
  userId : Option String := none
  sessionId : Option String := none
  custom : Std.ExtTreeMap String String compare := ∅
  deliverAt : Option DateTime := none
  topic : Option String := none
  replyTo : Option String := none
  idempotencyKey : Option String := none
  deriving DecidableEq

/-- `dyn Any + Send + Sync`: the concrete type of the value and the value itself. -/
structure AnyPayload where
  typeId : TypeId
  value : Bytes
  deriving DecidableEq, Repr

/-- `EventEnvelope`. -/
structure EventEnvelope where
  /-- The in-memory payload (`None` if loaded from disk). -/
  payload : Option AnyPayload
  /-- The serialized payload (`Some` if loaded from disk). -/
  payloadBytes : Option Bytes
  serializer : AnyPayload → Except Error Bytes
  typeId : TypeId
  typeName : String
  metadata : EventMetadata
  priority : EventPriority

namespace EventEnvelope

/-- `EventEnvelope::event_type`. -/
def eventType (e : EventEnvelope) : String := e.typeName

/-- `EventEnvelope::event_id`. -/
def eventId (e : EventEnvelope) : Uuid := e.metadata.eventId

/-- `EventEnvelope::with_metadata`, for a type given by its id, its name and its
    `serialize_event`. -/
def withMetadata (typeId : TypeId) (typeName : String)
    (serializeEvent : Bytes → Except Error Bytes) (event : Bytes) (metadata : EventMetadata) :
    EventEnvelope where
  payload := some ⟨typeId, event⟩
  payloadBytes := none
  serializer := fun any =>
    if any.typeId = typeId then serializeEvent any.value
    else .error (.internal "Failed to downcast for serialization")
  typeId := typeId
  typeName := typeName
  metadata := metadata
  priority := .normal

/-- `EventEnvelope::into_bytes`: stored bytes win over the in-memory payload. -/
def intoBytes (e : EventEnvelope) : Except Error Bytes :=
  match e.payloadBytes with
  | some bytes => .ok bytes
  | none =>
    match e.payload with
    | some payload => e.serializer payload
    | none => .error (.internal "Event envelope is empty")

/-- `deliver_at.map(|d| d > Utc::now()).unwrap_or(false)`. -/
def isScheduled (event : EventEnvelope) (now : DateTime) : Bool :=
  event.metadata.deliverAt.elim false fun d => decide (now < d)

/-- `EventEnvelope::from_serialized`. -/
def fromSerialized (typeId : TypeId) (typeName : String) (metadata : EventMetadata)
    (priority : EventPriority) (payloadBytes : Bytes) : EventEnvelope where
  payload := none
  payloadBytes := some payloadBytes
  serializer := fun _ => .error (.internal "Cannot serialize an already serialized event")
  typeId := typeId
  typeName := typeName
  metadata := metadata
  priority := priority

@[simp] theorem fromSerialized_metadata (t : TypeId) (n : String) (md : EventMetadata)
    (p : EventPriority) (b : Bytes) : (fromSerialized t n md p b).metadata = md := rfl

end EventEnvelope
end TokioEvents
