/-
  TokioEvents.Event.Chain

  Causality between events: `EventMetadata::chain_from` (`src/event/metadata.rs`) and
  `EventEnvelope::chain` (`src/event/envelope.rs`).
-/

import TokioEvents.Event.Typed

namespace TokioEvents

/-- `EventMetadata::chain_from`. -/
def EventMetadata.chainFrom (metadata parent : EventMetadata) : EventMetadata :=
  { metadata with
    causationId := some parent.eventId
    correlationId := parent.correlationId.or (some parent.eventId)
    -- Inherit user and session context
    userId := if metadata.userId.isNone then parent.userId else metadata.userId
    sessionId := if metadata.sessionId.isNone then parent.sessionId else metadata.sessionId }

namespace EventEnvelope

/-- `EventEnvelope::chain`; the id and the time are those `EventMetadata::new` draws. -/
def chain (parent : EventEnvelope) (T : EventType) (event : Bytes) (eventId : Uuid)
    (timestamp : DateTime) : EventEnvelope :=
  let metadata : EventMetadata := { eventId := eventId, timestamp := timestamp }
  T.envelope event (metadata.chainFrom parent.metadata)

/-- The name of the trace of an event: its correlation id, or else its own id. -/
def traceId (e : EventEnvelope) : Uuid := e.metadata.correlationId.getD e.eventId

/-- What an event passes on as the correlation id is the name of its trace. -/
theorem correlationId_or (e : EventEnvelope) :
    e.metadata.correlationId.or (some e.eventId) = some e.traceId := by
  unfold traceId
  cases e.metadata.correlationId with
  | none => rfl
  | some correlationId => rfl

/-- An event with that correlation id belongs to the trace. -/
theorem traceId_of_correlationId {e : EventEnvelope} {id : Uuid}
    (h : e.metadata.correlationId = some id) : e.traceId = id := by
  rw [traceId, h, Option.getD_some]

variable (parent : EventEnvelope) (T : EventType) (event : Bytes) (eventId : Uuid)
  (timestamp : DateTime)

theorem chain_correlationId :
    (parent.chain T event eventId timestamp).metadata.correlationId = some parent.traceId :=
  parent.correlationId_or

@[simp] theorem traceId_chain : (parent.chain T event eventId timestamp).traceId = parent.traceId :=
  traceId_of_correlationId (chain_correlationId parent T event eventId timestamp)

/-- The events of a causal chain: the root, and what is chained from an event of it. -/
inductive Chained (root : EventEnvelope) : EventEnvelope → Prop where
  | root : Chained root root
  | chain {parent : EventEnvelope} (T : EventType) (event : Bytes) (eventId : Uuid)
      (timestamp : DateTime) (h : Chained root parent) :
      Chained root (parent.chain T event eventId timestamp)

variable {root e : EventEnvelope}

/-- A chain is one trace. -/
theorem Chained.traceId_eq (h : Chained root e) : e.traceId = root.traceId := by
  induction h with
  | root => rfl
  | chain T event eventId timestamp _ ih => rw [traceId_chain, ih]

end EventEnvelope
end TokioEvents
