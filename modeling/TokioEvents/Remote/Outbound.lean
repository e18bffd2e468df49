/-
  TokioEvents.Remote.Outbound

  `EventBus::publish_remote`, `publish_remote_delayed` and `publish_remote_scheduled`.
  The latter two publish locally first, with `EventMetadata::delay` and `schedule_at`.
-/

import TokioEvents.Remote.State

namespace TokioEvents

namespace EventMetadata

/-- `schedule_at`. -/
def scheduleAt (metadata : EventMetadata) (time : DateTime) : EventMetadata :=
  { metadata with deliverAt := some time }

/-- `delay`; `now` is the clock. -/
def delay (metadata : EventMetadata) (now : DateTime) (delay : Nat) : EventMetadata :=
  { metadata with deliverAt := some (now + delay) }

end EventMetadata

namespace RemoteBus

/-- The steps of the calls and of the tasks they spawn. -/
inductive PublicationAction where
  /-- A call begins; `eventId` is what it draws from the generator, `timestamp` and `now`
      are the readings of `EventMetadata::new` and `delay`. -/
  | publish (remote : RemoteType) (event : Bytes) (kind : PublishKind) (eventId : Uuid)
      (timestamp now : DateTime)
  /-- The local publish has returned; `now` is the clock. -/
  | published (k : Nat) (now : DateTime)
  /-- `transport.publish(..)` completes. -/
  | sent (k : Nat) (result : Except Error Unit)
  /-- The caller drops the future at an `await`. -/
  | dropped (k : Nat)
  /-- A spawned task has slept and calls `transport.publish(..)`. -/
  | wake (index : Nat)

/-- A call is added. -/
def addPublication (s : RemoteBus) (publication : Publication) : RemoteBus :=
  { s with publications := s.publications ++ [publication] }

/-- The event is passed to the transport. -/
def send (s : RemoteBus) (message : NetworkMessage) : RemoteBus :=
  { s with wire := s.wire ++ [message] }

/-- The first steps of a call. -/
def publish (s : RemoteBus) (remote : RemoteType) (event : Bytes) (kind : PublishKind)
    (eventId : Uuid) (timestamp now : DateTime) : RemoteBus :=
  let shuttingDown := s.bus.shutdownState ≠ .running
  match remote.serializeEvent event with
  | .error e => s.addPublication ⟨remote, event, kind, .returned (.error e), none, shuttingDown⟩
  | .ok payload =>
    let metadata : EventMetadata := { eventId := eventId, timestamp := timestamp }
    match kind with
    | .immediate =>
      -- We route it over the network
      if s.transport then
        (s.send ⟨s.publications.length, remote.remoteTopic, payload, eventId.hyphenated⟩
          ).addPublication ⟨remote, event, kind, .sending eventId, none, shuttingDown⟩
      else s.addPublication ⟨remote, event, kind, .returned (.ok eventId), none, shuttingDown⟩
    | .delayed delay =>
      let call := s.bus.calls.length
      (s.setBus (s.bus.publish (remote.envelope event (metadata.delay now delay)) false)
        ).addPublication ⟨remote, event, kind, .publishing payload call, some call, shuttingDown⟩
    | .scheduled deliverAt =>
      let call := s.bus.calls.length
      (s.setBus (s.bus.publish (remote.envelope event (metadata.scheduleAt deliverAt)) false)
        ).addPublication ⟨remote, event, kind, .publishing payload call, some call, shuttingDown⟩

/-- The network part of a call whose local publish is done. -/
def network (s : RemoteBus) (k : Nat) (publication : Publication) (payload : Bytes)
    (eventId : Uuid) (now : DateTime) : RemoteBus :=
  let message : NetworkMessage :=
    ⟨k, publication.remote.remoteTopic, payload, eventId.hyphenated⟩
  let spawned := { s with outbox := s.outbox ++ [message] }
  if s.transport then
    match publication.kind with
    | .scheduled deliverAt =>
      if now < deliverAt then spawned.setPublication k publication (.returned (.ok eventId))
      -- Time has already passed, publish immediately
      else (s.send message).setPublication k publication (.sending eventId)
    | _ => spawned.setPublication k publication (.returned (.ok eventId))
  else s.setPublication k publication (.returned (.ok eventId))

/-- The result of the local publish; its error ends the call. -/
def published (s : RemoteBus) (k : Nat) (now : DateTime) : Option RemoteBus :=
  match s.publications[k]? with
  | some publication =>
    match publication.phase with
    | .publishing payload n =>
      match s.bus.calls[n]? with
      | some call =>
        match call.phase with
        | .returned (.ok eventId) => some (s.network k publication payload eventId now)
        | .returned (.error e) => some (s.setPublication k publication (.returned (.error e)))
        | _ => none
      | none => none
    | _ => none
  | none => none

/-- `transport.publish(..).await?`. -/
def sent (s : RemoteBus) (k : Nat) (result : Except Error Unit) : Option RemoteBus :=
  match s.publications[k]? with
  | some publication =>
    match publication.phase with
    | .sending eventId =>
      some (s.setPublication k publication (.returned (result.map fun _ => eventId)))
    | _ => none
  | none => none

/-- The caller gives up, in the local publish or in the transport. -/
def publicationDropped (s : RemoteBus) (k : Nat) : Option RemoteBus :=
  match s.publications[k]? with
  | some publication =>
    match publication.phase with
    | .publishing _ n =>
      (s.bus.cancel n).map fun bus => (s.setBus bus).setPublication k publication .dropped
    | .sending _ => some (s.setPublication k publication .dropped)
    | _ => none
  | none => none

/-- A spawned task; an error is only logged. -/
def wake (s : RemoteBus) (index : Nat) : Option RemoteBus :=
  match s.outbox[index]? with
  | some message => some ({ s with outbox := s.outbox.eraseIdx index }.send message)
  | none => none

/-- A step of a call or of a spawned task. -/
def stepPublication (s : RemoteBus) : PublicationAction → Option RemoteBus
  | .publish remote event kind eventId timestamp now =>
    some (s.publish remote event kind eventId timestamp now)
  | .published k now => s.published k now
  | .sent k result => s.sent k result
  | .dropped k => s.publicationDropped k
  | .wake index => s.wake index

end RemoteBus
end TokioEvents
