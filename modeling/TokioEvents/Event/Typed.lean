/-
  TokioEvents.Event.Typed

  A type of events (`trait Event`, `src/event/mod.rs`) and the typed way into an envelope,
  `EventEnvelope::get_event` (`src/event/envelope.rs`).

  A value of the type is its representation in bytes, as in `AnyPayload`.
-/

import TokioEvents.Event.Envelope

namespace TokioEvents

/-- `trait Event`, for one type. -/
structure EventType where
  typeId : TypeId
  eventType : String
  serializeEvent : Bytes → Except Error Bytes
  deserializeEvent : Bytes → Except Error Bytes

namespace EventType

/-- `EventEnvelope::with_metadata` for a value of the type. -/
def envelope (T : EventType) (event : Bytes) (metadata : EventMetadata) : EventEnvelope :=
  .withMetadata T.typeId T.eventType T.serializeEvent event metadata

variable (T : EventType) (event : Bytes) (metadata : EventMetadata)

@[simp] theorem envelope_metadata : (T.envelope event metadata).metadata = metadata := rfl

@[simp] theorem envelope_typeId : (T.envelope event metadata).typeId = T.typeId := rfl

@[simp] theorem envelope_eventType : (T.envelope event metadata).eventType = T.eventType := rfl

@[simp] theorem envelope_payload :
    (T.envelope event metadata).payload = some ⟨T.typeId, event⟩ := rfl

end EventType

namespace EventEnvelope

/-- The last two ways of `get_event`: the stored bytes, or an error. -/
def getStored (T : EventType) (e : EventEnvelope) : Except Error Bytes :=
  match e.payloadBytes with
  | some bytes => T.deserializeEvent bytes
  | none => .error (.internal "Event envelope is empty")

/-- `EventEnvelope::get_event::<T>`. -/
def getEvent (T : EventType) (e : EventEnvelope) : Except Error Bytes :=
  if e.typeId ≠ T.typeId then .error (.eventNotRegistered e.typeName)
  else
    match e.payload with
    -- It's in memory, clone it
    | some payload => if payload.typeId = T.typeId then .ok payload.value else e.getStored T
    | none => e.getStored T

variable {T U : EventType} {e : EventEnvelope} {event : Bytes} {metadata : EventMetadata}

/-- A typed value comes out of its envelope as it went in, under its own type. -/
theorem getEvent_envelope {value : Bytes} :
    (U.envelope event metadata).getEvent T = .ok value ↔ U.typeId = T.typeId ∧ event = value := by
  unfold getEvent
  by_cases htype : U.typeId = T.typeId
  · simp [htype]
  · simp [htype]

end EventEnvelope
end TokioEvents
