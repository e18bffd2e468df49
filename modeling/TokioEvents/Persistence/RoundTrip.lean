/-
  TokioEvents.Persistence.RoundTrip

  An event through the tables and back.  `process_events` stores an envelope as the JSON of
  a `PersistedEnvelope`; `replay_pending`, the scheduler and `replay_dlq` read it back and
  make an envelope of it with `EventEnvelope::from_serialized`; and the worker may store that
  one again.

  The first trip changes the representation: the value becomes its bytes, and the serializer
  is gone.  From then on the bytes are copied.
-/

import TokioEvents.Event.Typed
import TokioEvents.Persistence.ReplayPending

namespace TokioEvents

/-! ## A trip -/

/-- The tables an event is read back from. -/
inductive StoredTable where
  | events
  | scheduled
  | dlq
  deriving DecidableEq, Repr

/-- What reading back does to the metadata: the scheduler strips the `deliver_at`. -/
def StoredTable.readMetadata : StoredTable → EventMetadata → EventMetadata
  | .scheduled, metadata => { metadata with deliverAt := none }
  | .events, metadata | .dlq, metadata => metadata

section Trips

variable {R : Type} [EventRegistry R]

/-- The envelope that a row of the table becomes. -/
def reload (json : SerdeJson) (registry : R) (table : StoredTable) (bytes : Bytes) :
    Option EventEnvelope :=
  match json.fromSlice bytes with
  | some persisted =>
    match EventRegistry.getTypeId registry persisted.typeName with
    | some typeId =>
      some ({ persisted with metadata := table.readMetadata persisted.metadata }.envelope typeId)
    | none => none
  | none => none

/-- An envelope is stored, and read back under this registry. -/
def roundTrip (json : SerdeJson) (trip : StoredTable × R) (e : EventEnvelope) :
    Option EventEnvelope :=
  match e.persistedBytes json with
  | .ok bytes => reload json trip.2 trip.1 bytes
  | .error _ => none

/-- One trip after the other. -/
def roundTrips (json : SerdeJson) : List (StoredTable × R) → EventEnvelope → Option EventEnvelope
  | [], e => some e
  | trip :: trips, e => (roundTrip json trip e).bind (roundTrips json trips)

/-! ## The trips of the dispatcher -/

/-- What `process_events` stores is the first half of a trip. -/
theorem bytes_of_prepare {json : SerdeJson} {event : EventEnvelope} {n : Nat} {now : DateTime}
    {row : DbInsert} (h : prepare json event n now = some row) :
    event.persistedBytes json = .ok row.bytes := by
  obtain ⟨-, bytes, hbytes, rfl⟩ := prepare_eq_some.mp h
  exact hbytes

/-- A permanent failure copies the row to the dead letters as it is. -/
theorem dlq_of_ack {db : Db} {id : Uuid} {bytes : Bytes} {n : Nat}
    (hrow : db.events[id]? = some bytes) (hcount : db.refcount[id]? = some n) (hlast : n ≤ 1) :
    (db.ack (id, false)).dlq[id]? = some bytes := by
  rw [Db.ack_last false hrow hcount hlast]
  simp [Db.finish]

/-- `replay_pending` reads back from `EVENTS_TABLE`. -/
theorem reload_of_pendingFate {json : SerdeJson} {registry : R} {bytes : Bytes}
    {refcount : Option Nat} {envelope : EventEnvelope}
    (h : pendingFate json registry bytes refcount = .live envelope) :
    reload json registry .events bytes = some envelope := by
  obtain ⟨n, persisted, typeId, -, -, hdecode, htype, -, rfl⟩ := pendingFate_eq_live.mp h
  unfold reload
  rw [hdecode]
  dsimp only
  rw [htype]
  rfl

/-- The scheduler reads back from `SCHEDULED_EVENTS_TABLE`. -/
theorem reload_of_fire {json : SerdeJson} {s s' : PersistentBus} {persisted : PersistedEnvelope}
    {rest : List PersistedEnvelope} {bytes : Bytes} {envelope : EventEnvelope}
    (hscheduler : s.scheduler = .firing (persisted :: rest))
    (hdecode : json.fromSlice bytes = some persisted) (h : s.fire = some s')
    (hsending : s'.scheduler = .sending envelope rest) :
    reload json s.manager.registry .scheduled bytes = some envelope := by
  unfold PersistentBus.fire at h
  rw [hscheduler] at h
  unfold reload
  rw [hdecode]
  dsimp only at h ⊢
  cases htype : EventRegistry.getTypeId s.manager.registry persisted.typeName with
  | none =>
    rw [htype] at h
    cases h
    cases hsending
  | some typeId =>
    rw [htype] at h
    dsimp only at h
    split at h
    · cases h
      cases hsending
      rfl
    · cases h
      cases hsending

/-- `replay_dlq` reads back from `DLQ_TABLE`. -/
theorem reload_of_replayDlqSend {json : SerdeJson} {s s' : PersistentBus} {index : Nat}
    {persisted : PersistedEnvelope} {rest : List PersistedEnvelope} {bytes : Bytes}
    {message : RedbDispatcherMessage}
    (hreplay : s.replays[index]? = some (.dlq (persisted :: rest)))
    (hdecode : json.fromSlice bytes = some persisted) (h : s.replayDlqSend index = some s')
    (hsent : s'.queue.buffer = s.queue.buffer ++ [message]) :
    reload json s.manager.registry .dlq bytes = some message.envelope := by
  unfold PersistentBus.replayDlqSend at h
  rw [hreplay] at h
  unfold reload
  rw [hdecode]
  dsimp only at h ⊢
  cases htype : EventRegistry.getTypeId s.manager.registry persisted.typeName with
  | none =>
    rw [htype] at h
    cases h
    simp at hsent
  | some typeId =>
    rw [htype] at h
    dsimp only at h
    cases hsend : s.queue.trySend (persisted.message typeId) with
    | error e =>
      rw [hsend] at h
      cases h
      simp at hsent
    | ok queue =>
      rw [hsend] at h
      cases h
      obtain ⟨-, rfl⟩ := Mpsc.Channel.trySend_eq_ok.mp hsend
      have hmessage := List.append_cancel_left hsent
      cases hmessage
      rfl

end Trips

/-! ## What an envelope carries -/

/-- The envelope holds this event of the type, as a value or as its bytes. -/
structure Carries (T : EventType) (event : Bytes) (e : EventEnvelope) : Prop where
  typeId : e.typeId = T.typeId
  typeName : e.typeName = T.eventType
  form : (e.payload = some ⟨T.typeId, event⟩ ∧ e.payloadBytes = none ∧
      e.serializer ⟨T.typeId, event⟩ = T.serializeEvent event) ∨
    (e.payload = none ∧ ∃ bytes, e.payloadBytes = some bytes ∧ T.serializeEvent event = .ok bytes)

section Carried

variable {T : EventType} {event : Bytes} {e : EventEnvelope}

/-- Both forms are stored as the same bytes. -/
theorem Carries.intoBytes (h : Carries T event e) : e.intoBytes = T.serializeEvent event := by
  unfold EventEnvelope.intoBytes
  rcases h.form with ⟨hpayload, hbytes, hserializer⟩ | ⟨-, bytes, hbytes, hserialized⟩
  · rw [hbytes, hpayload]
    exact hserializer
  · rw [hbytes, hserialized]

/-- Both forms give the event back. -/
theorem Carries.getEvent
    (hinverts : ∀ event bytes, T.serializeEvent event = .ok bytes →
      T.deserializeEvent bytes = .ok event) (h : Carries T event e) :
    e.getEvent T = .ok event := by
  unfold EventEnvelope.getEvent EventEnvelope.getStored
  rw [if_neg (not_not.mpr h.typeId)]
  rcases h.form with ⟨hpayload, -, -⟩ | ⟨hpayload, bytes, hbytes, hserialized⟩
  · rw [hpayload]
    exact if_pos rfl
  · rw [hpayload, hbytes]
    exact hinverts event bytes hserialized

/-- Neither is an event of another type. -/
theorem Carries.getEvent_of_ne (h : Carries T event e) {U : EventType} (hne : U.typeId ≠ T.typeId) :
    e.getEvent U = .error (.eventNotRegistered T.eventType) := by
  unfold EventEnvelope.getEvent
  rw [if_pos (by rw [h.typeId]; exact hne.symm), h.typeName]

/-- What a stored event is persisted as. -/
theorem Carries.persistedBytes (h : Carries T event e) (json : SerdeJson) {payload : Bytes}
    (hserialized : T.serializeEvent event = .ok payload) :
    e.persistedBytes json = json.toVec ⟨T.eventType, e.metadata, e.priority, payload⟩ := by
  unfold EventEnvelope.persistedBytes
  rw [h.intoBytes, hserialized]
  show json.toVec ⟨e.typeName, e.metadata, e.priority, payload⟩ = _
  rw [h.typeName]

variable {R : Type} [EventRegistry R] {json : SerdeJson} {trip : StoredTable × R}

/-- **A trip**, for the bytes that the event has. -/
theorem Carries.roundTrip_eq (h : Carries T event e)
    (hregistry : EventRegistry.getTypeId trip.2 T.eventType = some T.typeId) {payload : Bytes}
    (hserialized : T.serializeEvent event = .ok payload) {bytes : Bytes}
    (hjson : json.toVec ⟨T.eventType, e.metadata, e.priority, payload⟩ = .ok bytes) :
    roundTrip json trip e = some (.fromSerialized T.typeId T.eventType
      (trip.1.readMetadata e.metadata) e.priority payload) := by
  unfold roundTrip
  rw [h.persistedBytes json hserialized, hjson]
  unfold reload
  dsimp only
  rw [json.fromSlice_toVec hjson]
  dsimp only
  rw [hregistry]
  rfl

theorem carries_fromSerialized {payload : Bytes}
    (hserialized : T.serializeEvent event = .ok payload) (metadata : EventMetadata)
    (priority : EventPriority) :
    Carries T event (.fromSerialized T.typeId T.eventType metadata priority payload) :=
  ⟨rfl, rfl, .inr ⟨rfl, payload, rfl, hserialized⟩⟩

/-- **A trip that gets through** brings the same event back. -/
theorem Carries.roundTrip (h : Carries T event e)
    (hregistry : EventRegistry.getTypeId trip.2 T.eventType = some T.typeId) {e' : EventEnvelope}
    (htrip : roundTrip json trip e = some e') :
    Carries T event e' ∧ e'.priority = e.priority ∧
      e'.metadata = trip.1.readMetadata e.metadata := by
  cases hserialized : T.serializeEvent event with
  | error err =>
    unfold TokioEvents.roundTrip EventEnvelope.persistedBytes at htrip
    rw [h.intoBytes, hserialized] at htrip
    cases htrip
  | ok payload =>
    cases hjson : json.toVec ⟨T.eventType, e.metadata, e.priority, payload⟩ with
    | error err =>
      unfold TokioEvents.roundTrip at htrip
      rw [h.persistedBytes json hserialized, hjson] at htrip
      cases htrip
    | ok bytes =>
      rw [h.roundTrip_eq hregistry hserialized hjson] at htrip
      cases htrip
      exact ⟨carries_fromSerialized hserialized _ _, rfl, rfl⟩

end Carried

/-! ## Any number of trips -/

/-- The metadata after the trips. -/
def readAgain {R : Type} (trips : List (StoredTable × R)) (metadata : EventMetadata) :
    EventMetadata :=
  if trips.any (·.1 = .scheduled) then { metadata with deliverAt := none } else metadata

theorem readAgain_cons {R : Type} (trip : StoredTable × R) (trips : List (StoredTable × R))
    (metadata : EventMetadata) :
    readAgain trips (trip.1.readMetadata metadata) = readAgain (trip :: trips) metadata := by
  obtain ⟨table, registry⟩ := trip
  unfold readAgain
  rw [List.any_cons]
  cases table with
  | events => rfl
  | dlq => rfl
  | scheduled =>
    show (if _ then _ else ({ metadata with deliverAt := none } : EventMetadata)) = _
    split <;> rfl

section Trips

variable {R : Type} [EventRegistry R] {T : EventType} {event : Bytes} {json : SerdeJson}
  {trips : List (StoredTable × R)}

theorem Carries.roundTrips {e e' : EventEnvelope} (h : Carries T event e)
    (hregistries : ∀ trip ∈ trips, EventRegistry.getTypeId trip.2 T.eventType = some T.typeId)
    (htrips : roundTrips json trips e = some e') :
    Carries T event e' ∧ e'.priority = e.priority ∧ e'.metadata = readAgain trips e.metadata := by
  induction trips generalizing e with
  | nil =>
    cases htrips
    exact ⟨h, rfl, rfl⟩
  | cons trip trips ih =>
    obtain ⟨e₁, hfirst, hrest⟩ := Option.bind_eq_some_iff.mp htrips
    obtain ⟨h₁, hpriority, hmetadata⟩ := h.roundTrip (hregistries trip List.mem_cons_self) hfirst
    obtain ⟨h', hpriority', hmetadata'⟩ :=
      ih h₁ (fun trip' hmem => hregistries trip' (List.mem_cons_of_mem _ hmem)) hrest
    refine ⟨h', hpriority'.trans hpriority, ?_⟩
    rw [hmetadata', hmetadata, readAgain_cons]

/-- The codec takes the event with and without its `deliver_at`. -/
def Storable (json : SerdeJson) (T : EventType) (metadata : EventMetadata)
    (priority : EventPriority) (payload : Bytes) : Prop :=
  (∃ bytes, json.toVec ⟨T.eventType, metadata, priority, payload⟩ = .ok bytes) ∧
    ∃ bytes, json.toVec ⟨T.eventType, { metadata with deliverAt := none }, priority, payload⟩
      = .ok bytes

theorem Storable.readMetadata {metadata : EventMetadata} {priority : EventPriority}
    {payload : Bytes} (h : Storable json T metadata priority payload) (table : StoredTable) :
    Storable json T (table.readMetadata metadata) priority payload := by
  cases table with
  | events => exact h
  | dlq => exact h
  | scheduled => exact ⟨h.2, h.2⟩

/-- The trips of a storable event get through. -/
theorem Carries.exists_roundTrips {e : EventEnvelope} (h : Carries T event e)
    (hregistries : ∀ trip ∈ trips, EventRegistry.getTypeId trip.2 T.eventType = some T.typeId)
    {payload : Bytes} (hserialized : T.serializeEvent event = .ok payload)
    (hstorable : Storable json T e.metadata e.priority payload) :
    ∃ e', TokioEvents.roundTrips json trips e = some e' := by
  induction trips generalizing e with
  | nil => exact ⟨e, rfl⟩
  | cons trip trips ih =>
    obtain ⟨bytes, hjson⟩ := hstorable.1
    have hfirst := h.roundTrip_eq (hregistries trip List.mem_cons_self) hserialized hjson
    obtain ⟨e', he'⟩ := ih (carries_fromSerialized hserialized _ _)
      (fun trip' hmem => hregistries trip' (List.mem_cons_of_mem _ hmem))
      (hstorable.readMetadata trip.1)
    exact ⟨e', Option.bind_eq_some_iff.mpr ⟨_, hfirst, he'⟩⟩

end Trips

/-- `EventEnvelope::with_priority`. -/
def EventType.withPriority (T : EventType) (event : Bytes) (metadata : EventMetadata)
    (priority : EventPriority) : EventEnvelope :=
  { T.envelope event metadata with priority := priority }

theorem carries_withPriority (T : EventType) (event : Bytes) (metadata : EventMetadata)
    (priority : EventPriority) : Carries T event (T.withPriority event metadata priority) :=
  ⟨rfl, rfl, .inl ⟨rfl, rfl, if_pos rfl⟩⟩

/-- What the handlers see of an event that went through the tables. -/
structure SameEvent (T : EventType) (metadata : EventMetadata) (e e' : EventEnvelope) :
    Prop where
  getEvent : e'.getEvent T = e.getEvent T
  eventId : e'.eventId = e.eventId
  typeName : e'.eventType = e.eventType
  priority : e'.priority = e.priority
  metadata : e'.metadata = metadata
  others : ∀ U : EventType, U.typeId ≠ T.typeId → ∃ err, e'.getEvent U = .error err

/-- **Persisting is transparent**, through any number of trips by any of the tables, and under
    registries that know the type: what comes back is the event with its metadata, without the
    `deliver_at` if the scheduler had it.  If the event and the codec allow the first trip,
    every further one is made. -/
theorem persisting_transparent {R : Type} [EventRegistry R] (T : EventType)
    (hinverts : ∀ event bytes, T.serializeEvent event = .ok bytes →
      T.deserializeEvent bytes = .ok event)
    (json : SerdeJson) (event : Bytes) (metadata : EventMetadata) (priority : EventPriority)
    (trips : List (StoredTable × R))
    (hregistries : ∀ trip ∈ trips, EventRegistry.getTypeId trip.2 T.eventType = some T.typeId) :
    (∀ e', roundTrips json trips (T.withPriority event metadata priority) = some e' →
      SameEvent T (readAgain trips metadata) (T.withPriority event metadata priority) e') ∧
    ∀ payload, T.serializeEvent event = .ok payload →
      Storable json T metadata priority payload →
        ∃ e', roundTrips json trips (T.withPriority event metadata priority) = some e' := by
  have hcarries := carries_withPriority T event metadata priority
  refine ⟨fun e' htrips => ?_, fun payload hserialized hstorable =>
    hcarries.exists_roundTrips hregistries hserialized hstorable⟩
  obtain ⟨h', hpriority, hmetadata⟩ := hcarries.roundTrips hregistries htrips
  have heventId : (readAgain trips metadata).eventId = metadata.eventId := by
    unfold readAgain
    split <;> rfl
  constructor
  case getEvent => rw [h'.getEvent hinverts, hcarries.getEvent hinverts]
  case eventId =>
    show e'.metadata.eventId = metadata.eventId
    rw [hmetadata]
    exact heventId
  case typeName => exact h'.typeName
  case priority => exact hpriority
  case metadata => exact hmetadata
  case others => exact fun U hne => ⟨_, h'.getEvent_of_ne hne⟩

/-- A type of orders, written as they are. -/
def storedOrders : EventType := ⟨1, "OrderEvent", fun event => .ok event, fun bytes => .ok bytes⟩

/-- An order for the first millisecond. -/
def delayedMetadata : EventMetadata := { eventId := 7, timestamp := 0, deliverAt := some 1000000 }

/-- The codec that knows the order, with and without its time. -/
def delayedOrderJson : SerdeJson :=
  .ofList [⟨"OrderEvent", delayedMetadata, .high, [1, 2]⟩,
    ⟨"OrderEvent", { delayedMetadata with deliverAt := none }, .high, [1, 2]⟩]

/-- The registry knows the orders. -/
def ordersRegistered : DashMapRegistry :=
  RegistryOp.run .new [.register 1 "OrderEvent" { id := 10 }]

/-- The order waits for its time, fails, and is replayed. -/
theorem persisting_transparent_delayedOrder :
    ∃ e', roundTrips delayedOrderJson
        [(.scheduled, ordersRegistered), (.dlq, ordersRegistered), (.events, ordersRegistered)]
        (storedOrders.withPriority [1, 2] delayedMetadata .high) = some e' ∧
      e'.getEvent storedOrders = .ok [1, 2] ∧
        e'.metadata = { delayedMetadata with deliverAt := none } := by
  have hinverts : ∀ event bytes, storedOrders.serializeEvent event = .ok bytes →
      storedOrders.deserializeEvent bytes = .ok event := by
    intro event bytes h
    cases h
    rfl
  obtain ⟨htransparent, hgets⟩ := persisting_transparent storedOrders hinverts delayedOrderJson
    [1, 2] delayedMetadata .high
    [(.scheduled, ordersRegistered), (.dlq, ordersRegistered), (.events, ordersRegistered)]
    (by decide)
  obtain ⟨e', htrips⟩ := hgets [1, 2] rfl ⟨⟨_, rfl⟩, ⟨_, rfl⟩⟩
  have h := htransparent e' htrips
  exact ⟨e', htrips, h.getEvent, h.metadata⟩

end TokioEvents
