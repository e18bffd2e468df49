/-
  TokioEvents.Persistence.Bus.Replays

  The replay calls of `RedbDispatcher` as blocking tasks: `replay_pending` visits the
  rows of a read transaction one by one and then collects the dead ones, `replay_dlq`
  commits the removal of its rows and then sends them.
-/

import TokioEvents.Persistence.Bus.State

namespace TokioEvents

namespace Db

/-- The rows `replay_pending` visits, with their refcounts. -/
def pendingRows (db : Db) : List (Uuid × Bytes × Option Nat) :=
  db.events.toList.map fun row => (row.1, row.2, db.refcount[row.1]?)

/-- Garbage collect all dead events. -/
def collectDead (db : Db) (dead : List Uuid) : Db :=
  { db with
    events := dead.foldl (fun t id => t.erase id) db.events
    refcount := dead.foldl (fun t id => t.erase id) db.refcount }

end Db

/-- The steps of replay calls. -/
inductive ReplayAction where
  /-- `replay_pending` takes its read transaction. -/
  | pending
  /-- The next row of `replay_pending`. -/
  | visit (index : Nat)
  /-- `blocking_send` completes. -/
  | send (index : Nat)
  /-- The garbage collection of `replay_pending`, whose transaction commits or fails. -/
  | collect (index : Nat) (commits : Bool)
  /-- A read of `replay_pending` fails, and the call returns. -/
  | fail (index : Nat)
  /-- The transaction of `replay_dlq` commits. -/
  | dlq
  /-- The next event of `replay_dlq`, or its end. -/
  | dlqSend (index : Nat)

/-- What `replay_pending` makes of a row. -/
inductive RowFate where
  /-- No refcount row: passed over. -/
  | skip
  /-- To be collected. -/
  | dead
  | live (envelope : EventEnvelope)

/-- The body of the loop over the rows. -/
def rowFate (json : SerdeJson) (registry : RedbRegistry) (bytes : Bytes) (refcount : Option Nat) :
    RowFate :=
  match refcount with
  | none => .skip
  | some refcount =>
    if refcount > 0 then
      match json.fromSlice bytes with
      | some persisted =>
        match EventRegistry.getTypeId registry persisted.typeName with
        | some typeId =>
          if EventRegistry.subscriptionCount registry typeId > 0 then
            .live (persisted.envelope typeId)
          else .dead
        | none => .dead
      -- Corrupted payload, consider it dead
      | none => .dead
    else .dead

namespace PersistentBus

/-- `replay_pending` begins. -/
def replayPending (s : PersistentBus) : Option PersistentBus :=
  if s.exclusive || !s.sender then none
  else some { s with replays := s.replays ++ [.pending s.db.pendingRows []] }

/-- One turn of the loop over the rows, up to the send. -/
def replayVisit (json : SerdeJson) (s : PersistentBus) (index : Nat) : Option PersistentBus :=
  match s.replays[index]? with
  | some (.pending ((id, bytes, refcount) :: rows) dead) =>
    let replay := match rowFate json s.manager.registry bytes refcount with
      | .skip => Replay.pending rows dead
      | .dead => .pending rows (dead ++ [id])
      | .live envelope => .pendingSend envelope rows dead
    some { s with replays := s.replays.set index replay }
  | _ => none

/-- `sender.blocking_send(msg)`. -/
def replaySend (s : PersistentBus) (index : Nat) : Option PersistentBus :=
  match s.replays[index]? with
  | some (.pendingSend envelope rows dead) =>
    let s := { s with replays := s.replays.set index (.pending rows dead) }
    match s.queue.trySend ⟨envelope, none⟩ with
    | .ok queue => some { s with queue := queue }
    | .error .closed => some s
    | .error .full => none
  | _ => none

/-- The end of `replay_pending`. -/
def replayCollect (s : PersistentBus) (index : Nat) (commits : Bool) : Option PersistentBus :=
  match s.replays[index]? with
  | some (.pending [] dead) =>
    some { s with
      replays := s.replays.eraseIdx index
      db := if commits then s.db.collectDead dead else s.db }
  | _ => none

/-- `event_entry.map_err(..)?` while the rows are visited. -/
def replayFail (s : PersistentBus) (index : Nat) : Option PersistentBus :=
  match s.replays[index]? with
  | some (.pending _ _) => some { s with replays := s.replays.eraseIdx index }
  | _ => none

/-- `replay_dlq`, up to its commit. -/
def replayDlq (json : SerdeJson) (s : PersistentBus) : Option PersistentBus :=
  if s.exclusive || !s.sender then none
  else
    let envelopes := s.db.dlqEnvelopes json
    some { s with
      db := s.db.removeDlq envelopes
      replays := s.replays ++ [.dlq (envelopes.map (·.2))] }

/-- One turn of the sending loop of `replay_dlq`. -/
def replayDlqSend (s : PersistentBus) (index : Nat) : Option PersistentBus :=
  match s.replays[index]? with
  | some (.dlq []) => some { s with replays := s.replays.eraseIdx index }
  | some (.dlq (persisted :: rest)) =>
    let s := { s with replays := s.replays.set index (.dlq rest) }
    match EventRegistry.getTypeId s.manager.registry persisted.typeName with
    | some typeId =>
      match s.queue.trySend (persisted.message typeId) with
      | .ok queue => some { s with queue := queue }
      -- `let _ = sender.try_send(msg)`
      | .error _ => some s
    | none => some s
  | _ => none

/-- A step of a replay call. -/
def stepReplay (json : SerdeJson) (s : PersistentBus) : ReplayAction → Option PersistentBus
  | .pending => s.replayPending
  | .visit index => s.replayVisit json index
  | .send index => s.replaySend index
  | .collect index commits => s.replayCollect index commits
  | .fail index => s.replayFail index
  | .dlq => s.replayDlq json
  | .dlqSend index => s.replayDlqSend index

end PersistentBus
end TokioEvents
