/-
  TokioEvents.Persistence.ReplayPending

  `RedbDispatcher::replay_pending` as one call (`src/persistence/redb.rs`): the loop over
  `EVENTS_TABLE` in a read transaction, the sends, and the removal of the dead events in a
  transaction of its own.

  A call sorts the rows that have a refcount into live ones, which it sends and keeps, and
  dead ones, which it removes.  A row without a refcount is passed over.
-/

import TokioEvents.Persistence.Bus.System

namespace TokioEvents

/-- The body of the loop over the rows, for any registry. -/
def pendingFate {R : Type} [EventRegistry R] (json : SerdeJson) (registry : R) (bytes : Bytes)
    (refcount : Option Nat) : RowFate :=
  match refcount with
  | none => .skip
  | some refcount =>
    -- Check if it has a positive refcount
    if refcount > 0 then
      match json.fromSlice bytes with
      | some persisted =>
        match EventRegistry.getTypeId registry persisted.typeName with
        | some typeId =>
          if EventRegistry.subscriptionCount registry typeId > 0 then
            .live (persisted.envelope typeId)
          else .dead
        | none => .dead
      | none => .dead
    else .dead

/-- What a call meets besides the tables. -/
structure PendingEnv where
  /-- The transaction or a table cannot be opened. -/
  openError : Option String
  /-- A row cannot be read. -/
  readError : Uuid → Option String
  /-- The receiver is there when the send of this row gets its slot. -/
  isOpen : Uuid → Bool
  /-- The transaction that removes the dead events commits. -/
  commits : Bool

/-- What the loop has done. -/
structure PendingScan where
  count : Nat
  /-- The messages that entered the queue, each with the row it comes from. -/
  enqueued : List (Uuid × RedbDispatcherMessage)
  dead : List Uuid
  failed : Option String

/-- What a call of `replay_pending` returns and leaves behind. -/
structure PendingReplay where
  result : Except Error Unit
  db : Db
  enqueued : List (Uuid × RedbDispatcherMessage)

section Call

variable {R : Type} [EventRegistry R] (json : SerdeJson) (registry : R)

/-- The loop. -/
def scanPending (env : PendingEnv) : List (Uuid × Bytes × Option Nat) → PendingScan
  | [] => ⟨0, [], [], none⟩
  | (id, bytes, refcount) :: rows =>
    match env.readError id with
    | some msg => ⟨0, [], [], some msg⟩
    | none =>
      let r := scanPending env rows
      match pendingFate json registry bytes refcount with
      | .skip => r
      | .dead => { r with dead := id :: r.dead }
      | .live envelope =>
        -- `if sender.blocking_send(msg).is_ok()`
        if env.isOpen id then
          { r with count := r.count + 1, enqueued := (id, ⟨envelope, none⟩) :: r.enqueued }
        else r

/-- `replay_pending`. -/
def replayPending (sender : Bool) (env : PendingEnv) (db : Db) : PendingReplay :=
  if !sender then ⟨.error (.internal "Dispatcher not initialized"), db, []⟩
  else
    match env.openError with
    | some msg => ⟨.error (.internal ("Failed to replay events: " ++ msg)), db, []⟩
    | none =>
      let r := scanPending json registry env db.pendingRows
      match r.failed with
      | some msg => ⟨.error (.internal ("Failed to replay events: " ++ msg)), db, r.enqueued⟩
      | none => ⟨.ok (), if env.commits then db.collectDead r.dead else db, r.enqueued⟩

end Call

/-- The queue is open, and nothing fails but, it may be, the removal. -/
def PendingEnv.undisturbed (commits : Bool) : PendingEnv :=
  ⟨none, fun _ => none, fun _ => true, commits⟩

/-! ## The fate of a row -/

section Fate

variable {R : Type} [EventRegistry R] {json : SerdeJson} {registry : R} {bytes : Bytes}
  {refcount : Option Nat}

theorem pendingFate_eq_skip :
    pendingFate json registry bytes refcount = .skip ↔ refcount = none := by
  unfold pendingFate
  cases refcount with
  | none => simp
  | some n =>
    simp only [reduceCtorEq, iff_false]
    repeat' split
    all_goals simp

/-- **A row is live** if its refcount is positive, its payload decodes, and its type is
    registered with at least one subscription. -/
theorem pendingFate_eq_live {envelope : EventEnvelope} :
    pendingFate json registry bytes refcount = .live envelope
      ↔ ∃ n persisted typeId, refcount = some n ∧ 0 < n ∧ json.fromSlice bytes = some persisted ∧
        EventRegistry.getTypeId registry persisted.typeName = some typeId ∧
        0 < EventRegistry.subscriptionCount registry typeId ∧
        envelope = persisted.envelope typeId := by
  constructor
  · intro h
    unfold pendingFate at h
    split at h
    · cases h
    · rename_i n
      split at h
      · rename_i hpos
        split at h
        · rename_i persisted hdecode
          split at h
          · rename_i typeId htype
            split at h
            · rename_i hcount
              cases h
              exact ⟨n, persisted, typeId, rfl, hpos, hdecode, htype, hcount, rfl⟩
            · cases h
          · cases h
        · cases h
      · cases h
  · rintro ⟨n, persisted, typeId, rfl, hpos, hdecode, htype, hcount, rfl⟩
    simp [pendingFate, hpos, hdecode, htype, hcount]

end Fate

/-! ## The loop -/

section Scan

variable {R : Type} [EventRegistry R] {json : SerdeJson} {registry : R} {env : PendingEnv}

/-- What one row adds to the messages and to the dead. -/
def liveRow (json : SerdeJson) (registry : R) (row : Uuid × Bytes × Option Nat) :
    Option (Uuid × RedbDispatcherMessage) :=
  match pendingFate json registry row.2.1 row.2.2 with
  | .live envelope => some (row.1, ⟨envelope, none⟩)
  | _ => none

def deadRow (json : SerdeJson) (registry : R) (row : Uuid × Bytes × Option Nat) : Option Uuid :=
  match pendingFate json registry row.2.1 row.2.2 with
  | .dead => some row.1
  | _ => none

/-- **The loop is a filter** when every row is read and the queue is open. -/
theorem scanPending_undisturbed (commits : Bool) (rows : List (Uuid × Bytes × Option Nat)) :
    scanPending json registry (.undisturbed commits) rows
      = ⟨(rows.filterMap (liveRow json registry)).length, rows.filterMap (liveRow json registry),
        rows.filterMap (deadRow json registry), none⟩ := by
  induction rows with
  | nil => rfl
  | cons row rows ih =>
    obtain ⟨id, bytes, refcount⟩ := row
    have hread : (PendingEnv.undisturbed commits).readError id = none := rfl
    have hopen : (PendingEnv.undisturbed commits).isOpen id = true := rfl
    unfold scanPending
    rw [hread]
    dsimp only
    rw [ih]
    cases hfate : pendingFate json registry bytes refcount with
    | skip =>
      rw [List.filterMap_cons_none (by simp [liveRow, hfate]),
        List.filterMap_cons_none (by simp [deadRow, hfate])]
    | dead =>
      rw [List.filterMap_cons_none (by simp [liveRow, hfate]),
        List.filterMap_cons_some (b := id) (by simp [deadRow, hfate])]
    | live envelope =>
      rw [List.filterMap_cons_some (b := (id, ⟨envelope, none⟩)) (by simp [liveRow, hfate]),
        List.filterMap_cons_none (by simp [deadRow, hfate])]
      simp [hopen]

theorem liveRow_fst {row : Uuid × Bytes × Option Nat} {sent : Uuid × RedbDispatcherMessage}
    (h : liveRow json registry row = some sent) : sent.1 = row.1 := by
  unfold liveRow at h
  split at h
  · cases h
    rfl
  · cases h

end Scan

/-! ## What a call does -/

/-- The rows a call visits are the rows of the table, in the order of their ids. -/
theorem Db.mem_pendingRows {db : Db} {row : Uuid × Bytes × Option Nat} :
    row ∈ db.pendingRows
      ↔ db.events[row.1]? = some row.2.1 ∧ row.2.2 = db.refcount[row.1]? := by
  obtain ⟨id, bytes, refcount⟩ := row
  unfold pendingRows
  rw [List.mem_map]
  constructor
  · rintro ⟨⟨id', bytes'⟩, hmem, heq⟩
    cases heq
    exact ⟨Std.ExtTreeMap.mem_toList_iff_getElem?_eq_some.mp hmem, rfl⟩
  · rintro ⟨hevent, hrefcount⟩
    change refcount = db.refcount[id]? at hrefcount
    refine ⟨(id, bytes), Std.ExtTreeMap.mem_toList_iff_getElem?_eq_some.mpr hevent, ?_⟩
    rw [hrefcount]

theorem Db.ascending_pendingRows (db : Db) :
    db.pendingRows.Pairwise fun a b => a.1 < b.1 := by
  unfold pendingRows
  rw [List.pairwise_map]
  refine Std.ExtTreeMap.ordered_keys_toList.imp fun {a b} h => ?_
  exact lt_of_compare_eq_lt h

section Partition

variable {R : Type} [EventRegistry R] (json : SerdeJson) (registry : R) (db : Db)

/-- The event is to be replayed, as this message. -/
def Live (id : Uuid) (message : RedbDispatcherMessage) : Prop :=
  ∃ bytes refcount persisted typeId, db.events[id]? = some bytes ∧
    db.refcount[id]? = some refcount ∧ 0 < refcount ∧ json.fromSlice bytes = some persisted ∧
    EventRegistry.getTypeId registry persisted.typeName = some typeId ∧
    0 < EventRegistry.subscriptionCount registry typeId ∧ message = persisted.message typeId

/-- A row with a refcount that is not to be replayed. -/
def Dead (id : Uuid) : Prop :=
  db.events[id]? ≠ none ∧ db.refcount[id]? ≠ none ∧ ∀ message, ¬ Live json registry db id message

/-- **The partition**: the live events are enqueued once each in ascending order and keep
    their rows, the dead ones lose both rows, and nothing else changes. -/
structure Partitions (replay : PendingReplay) : Prop where
  enqueued : ∀ id message, (id, message) ∈ replay.enqueued ↔ Live json registry db id message
  ascending : replay.enqueued.Pairwise fun a b => a.1 < b.1
  deleted : ∀ id, Dead json registry db id →
    replay.db.events[id]? = none ∧ replay.db.refcount[id]? = none
  kept : ∀ id, ¬ Dead json registry db id →
    replay.db.events[id]? = db.events[id]? ∧ replay.db.refcount[id]? = db.refcount[id]?
  others : replay.db.scheduledEvents = db.scheduledEvents ∧ replay.db.dlq = db.dlq ∧
    replay.db.processedKeys = db.processedKeys

variable {json registry db}

theorem mem_filterMap_liveRow {id : Uuid} {message : RedbDispatcherMessage} :
    (id, message) ∈ db.pendingRows.filterMap (liveRow json registry)
      ↔ Live json registry db id message := by
  rw [List.mem_filterMap]
  constructor
  · rintro ⟨⟨id', bytes, refcount⟩, hrow, hlive⟩
    obtain rfl : id = id' := liveRow_fst hlive
    obtain ⟨hevent, hrefcount⟩ := Db.mem_pendingRows.mp hrow
    unfold liveRow at hlive
    split at hlive
    · rename_i envelope hfate
      cases hlive
      obtain ⟨n, persisted, typeId, hn, hpos, hdecode, htype, hcount, rfl⟩ :=
        pendingFate_eq_live.mp hfate
      exact ⟨bytes, n, persisted, typeId, hevent, hrefcount.symm.trans hn, hpos, hdecode, htype,
        hcount, rfl⟩
    · cases hlive
  · rintro ⟨bytes, n, persisted, typeId, hevent, hrefcount, hpos, hdecode, htype, hcount, rfl⟩
    refine ⟨(id, bytes, some n), Db.mem_pendingRows.mpr ⟨hevent, hrefcount.symm⟩, ?_⟩
    have hfate : pendingFate json registry bytes (some n) = .live (persisted.envelope typeId) :=
      pendingFate_eq_live.mpr ⟨n, persisted, typeId, rfl, hpos, hdecode, htype, hcount, rfl⟩
    unfold liveRow
    rw [hfate]
    rfl

theorem mem_filterMap_deadRow {id : Uuid} :
    id ∈ db.pendingRows.filterMap (deadRow json registry) ↔ Dead json registry db id := by
  rw [List.mem_filterMap]
  constructor
  · rintro ⟨⟨id', bytes, refcount⟩, hrow, hdead⟩
    obtain ⟨hevent, hrefcount⟩ := Db.mem_pendingRows.mp hrow
    unfold deadRow at hdead
    split at hdead
    · rename_i hfate
      cases hdead
      refine ⟨by rw [hevent]; simp, fun hnone => ?_, fun message hlive => ?_⟩
      · rw [pendingFate_eq_skip.mpr (hrefcount.trans hnone)] at hfate
        cases hfate
      · obtain ⟨bytes', n, persisted, typeId, hevent', hn, hrest⟩ := hlive
        cases hevent.symm.trans hevent'
        obtain ⟨hpos, hdecode, htype, hcount, -⟩ := hrest
        rw [pendingFate_eq_live.mpr ⟨n, persisted, typeId, hrefcount.trans hn, hpos, hdecode, htype,
          hcount, rfl⟩] at hfate
        cases hfate
    · cases hdead
  · rintro ⟨hevent, hrefcount, hnot⟩
    obtain ⟨bytes, hevent⟩ := Option.ne_none_iff_exists'.mp hevent
    refine ⟨(id, bytes, db.refcount[id]?), Db.mem_pendingRows.mpr ⟨hevent, rfl⟩, ?_⟩
    unfold deadRow
    cases hfate : pendingFate json registry bytes db.refcount[id]? with
    | dead => rfl
    | skip => exact absurd (pendingFate_eq_skip.mp hfate) hrefcount
    | live envelope =>
      obtain ⟨n, persisted, typeId, hn, hpos, hdecode, htype, hcount, -⟩ :=
        pendingFate_eq_live.mp hfate
      exact absurd ⟨bytes, n, persisted, typeId, hevent, hn, hpos, hdecode, htype, hcount, rfl⟩
        (hnot _)

end Partition

/-- A call that is not disturbed. -/
theorem replayPending_undisturbed {R : Type} [EventRegistry R] (json : SerdeJson) (registry : R)
    (commits : Bool) (db : Db) :
    replayPending json registry true (.undisturbed commits) db
      = ⟨.ok (), if commits then
          db.collectDead (db.pendingRows.filterMap (deadRow json registry)) else db,
        db.pendingRows.filterMap (liveRow json registry)⟩ := by
  have hopen : (PendingEnv.undisturbed commits).openError = none := rfl
  unfold replayPending
  rw [hopen]
  simp only [Bool.not_true, Bool.false_eq_true, if_false, scanPending_undisturbed]
  rfl

/-! ## The call within the system -/

section System

variable {json : SerdeJson} {s : PersistentBus} {index : Nat}

theorem rowFate_eq (json : SerdeJson) (registry : RedbRegistry) (bytes : Bytes)
    (refcount : Option Nat) :
    rowFate json registry bytes refcount = pendingFate json registry bytes refcount := rfl

/-- The steps of the loop: a live row is visited and sent, any other one is visited. -/
def visitActions (json : SerdeJson) (registry : RedbRegistry) (index : Nat) :
    List (Uuid × Bytes × Option Nat) → List ReplayAction
  | [] => []
  | row :: rows =>
    match liveRow json registry row with
    | some _ => .visit index :: .send index :: visitActions json registry index rows
    | none => .visit index :: visitActions json registry index rows

/-- What the loop leaves: the live rows are in the queue, the dead ones are collected. -/
def afterVisits (json : SerdeJson) (s : PersistentBus) (index : Nat)
    (rows : List (Uuid × Bytes × Option Nat)) (dead : List Uuid) : PersistentBus :=
  { s with
    queue := { s.queue with
      buffer := s.queue.buffer
        ++ (rows.filterMap (liveRow json s.manager.registry)).map (·.2) }
    replays := s.replays.set index
      (.pending [] (dead ++ rows.filterMap (deadRow json s.manager.registry))) }

/-- A row that is not live is visited in one step. -/
theorem replayVisit_of_none {row : Uuid × Bytes × Option Nat}
    {rows : List (Uuid × Bytes × Option Nat)} {dead : List Uuid}
    (hreplay : s.replays[index]? = some (.pending (row :: rows) dead))
    (hlive : liveRow json s.manager.registry row = none) :
    s.replayVisit json index = some { s with
      replays := s.replays.set index
        (.pending rows (dead ++ (deadRow json s.manager.registry row).toList)) } := by
  obtain ⟨id, bytes, refcount⟩ := row
  unfold PersistentBus.replayVisit
  rw [hreplay]
  unfold liveRow at hlive
  unfold deadRow
  simp only [rowFate_eq] at hlive ⊢
  cases hfate : pendingFate json s.manager.registry bytes refcount with
  | skip => simp
  | dead => rfl
  | live envelope =>
    rw [hfate] at hlive
    cases hlive

/-- A live row is visited and sent, if there is room. -/
theorem replayVisit_of_some {row : Uuid × Bytes × Option Nat}
    {rows : List (Uuid × Bytes × Option Nat)} {dead : List Uuid}
    {sent : Uuid × RedbDispatcherMessage}
    (hreplay : s.replays[index]? = some (.pending (row :: rows) dead))
    (hlive : liveRow json s.manager.registry row = some sent) (haccepts : s.queue.Accepts) :
    deadRow json s.manager.registry row = none ∧
      ∃ s₁, s.replayVisit json index = some s₁ ∧ s₁.replaySend index = some { s with
        queue := s.queue.push sent.2
        replays := s.replays.set index (.pending rows dead) } := by
  have hindex : index < s.replays.length := (List.getElem?_eq_some_iff.mp hreplay).1
  obtain ⟨id, bytes, refcount⟩ := row
  unfold liveRow at hlive
  simp only at hlive
  cases hfate : pendingFate json s.manager.registry bytes refcount with
  | skip =>
    rw [hfate] at hlive
    cases hlive
  | dead =>
    rw [hfate] at hlive
    cases hlive
  | live envelope =>
    rw [hfate] at hlive
    cases hlive
    refine ⟨by simp [deadRow, hfate], ?_⟩
    refine ⟨{ s with replays := s.replays.set index (.pendingSend envelope rows dead) }, ?_, ?_⟩
    · unfold PersistentBus.replayVisit
      rw [hreplay]
      simp only [rowFate_eq, hfate]
    · unfold PersistentBus.replaySend
      dsimp only
      rw [List.getElem?_set_self hindex]
      dsimp only
      rw [Mpsc.Channel.trySend_of_accepts haccepts, List.set_set]

/-- The loop of the system is the loop of the call while there is room. -/
theorem exec_visitActions {rows : List (Uuid × Bytes × Option Nat)} {dead : List Uuid}
    (hreplay : s.replays[index]? = some (.pending rows dead)) (hreceiver : s.queue.receiver = true)
    (hroom : s.queue.buffer.length + (rows.filterMap (liveRow json s.manager.registry)).length
      ≤ s.queue.capacity) :
    Transition.exec (PersistentBus.stepReplay json) s
        (visitActions json s.manager.registry index rows)
      = some (afterVisits json s index rows dead) := by
  induction rows generalizing s dead with
  | nil =>
    obtain ⟨hlt, hget⟩ := List.getElem?_eq_some_iff.mp hreplay
    unfold visitActions Transition.exec afterVisits
    simp only [List.filterMap_nil, List.map_nil, List.append_nil]
    rw [← hget, List.set_getElem_self]
  | cons row rows ih =>
    have hindex : index < s.replays.length := (List.getElem?_eq_some_iff.mp hreplay).1
    unfold visitActions
    cases hlive : liveRow json s.manager.registry row with
    | none =>
      dsimp only
      have hvisit : PersistentBus.stepReplay json s (.visit index) = _ :=
        replayVisit_of_none hreplay hlive
      rw [Transition.exec_cons_of_step _ hvisit]
      rw [List.filterMap_cons_none hlive] at hroom
      refine (ih (s := { s with replays := s.replays.set index (.pending rows
        (dead ++ (deadRow json s.manager.registry row).toList)) })
          (List.getElem?_set_self hindex) hreceiver hroom).trans ?_
      unfold afterVisits
      simp only [List.filterMap_cons_none hlive, List.set_set, List.append_assoc]
      cases hdead : deadRow json s.manager.registry row with
      | none => rw [List.filterMap_cons_none hdead, Option.toList_none, List.nil_append]
      | some id => rw [List.filterMap_cons_some hdead, Option.toList_some, List.singleton_append]
    | some sent =>
      rw [List.filterMap_cons_some hlive, List.length_cons] at hroom
      have haccepts : s.queue.Accepts := ⟨hreceiver, by omega⟩
      obtain ⟨hdead, s₁, hvisit, hsend⟩ := replayVisit_of_some hreplay hlive haccepts
      have hvisit : PersistentBus.stepReplay json s (.visit index) = _ := hvisit
      have hsend : PersistentBus.stepReplay json s₁ (.send index) = _ := hsend
      dsimp only
      rw [Transition.exec_cons_of_step _ hvisit, Transition.exec_cons_of_step _ hsend]
      refine (ih (s := { s with
          queue := s.queue.push sent.2
          replays := s.replays.set index (.pending rows dead) })
        (List.getElem?_set_self hindex) hreceiver ?_).trans ?_
      · show (s.queue.buffer ++ [sent.2]).length + _ ≤ s.queue.capacity
        rw [List.length_append, List.length_singleton]
        show _ + 1 + (rows.filterMap (liveRow json s.manager.registry)).length ≤ _
        omega
      · unfold afterVisits
        simp only [List.filterMap_cons_some hlive, List.filterMap_cons_none hdead, List.set_set,
          List.map_cons, Mpsc.Channel.push, List.append_assoc, List.singleton_append]

/-- **A call that nothing comes between**, in the system, does what the call does: the same
    messages are in the queue and the same rows are left. -/
theorem exec_replayPending (json : SerdeJson) (commits : Bool) (hexclusive : s.exclusive = false)
    (hsender : s.sender = true) (hreceiver : s.queue.receiver = true)
    (hroom : s.queue.buffer.length
      + (s.db.pendingRows.filterMap (liveRow json s.manager.registry)).length
        ≤ s.queue.capacity) :
    Transition.exec (PersistentBus.stepReplay json) s
        (.pending :: (visitActions json s.manager.registry s.replays.length s.db.pendingRows
          ++ [.collect s.replays.length commits]))
      = some { s with
        queue := { s.queue with
          buffer := s.queue.buffer ++ (replayPending json s.manager.registry true
            (.undisturbed commits) s.db).enqueued.map (·.2) }
        db := (replayPending json s.manager.registry true (.undisturbed commits) s.db).db } := by
  let begun : PersistentBus := { s with replays := s.replays ++ [.pending s.db.pendingRows []] }
  have hbegin : PersistentBus.stepReplay json s .pending = some begun := by
    show s.replayPending = _
    unfold PersistentBus.replayPending
    rw [if_neg (by simp [hexclusive, hsender])]
  have hvisits : Transition.exec (PersistentBus.stepReplay json) begun _ = _ :=
    exec_visitActions List.getElem?_concat_length hreceiver hroom
  have hset : ∀ r, begun.replays.set s.replays.length r = s.replays ++ [r] := by
    intro r
    show (s.replays ++ [_]).set s.replays.length r = _
    rw [List.set_append_right _ _ (Nat.le_refl _), Nat.sub_self, List.set_cons_zero]
  have hcollect : PersistentBus.stepReplay json
      (afterVisits json begun s.replays.length s.db.pendingRows [])
        (.collect s.replays.length commits)
      = some { s with
        queue := { s.queue with
          buffer := s.queue.buffer
            ++ (s.db.pendingRows.filterMap (liveRow json s.manager.registry)).map (·.2) }
        db := if commits then s.db.collectDead
          (s.db.pendingRows.filterMap (deadRow json s.manager.registry)) else s.db } := by
    show PersistentBus.replayCollect _ _ _ = _
    unfold PersistentBus.replayCollect afterVisits
    dsimp only
    rw [List.nil_append, hset, List.getElem?_concat_length]
    dsimp only
    rw [List.eraseIdx_append_of_length_le (Nat.le_refl _), Nat.sub_self, List.eraseIdx_cons_zero,
      List.append_nil]
  rw [Transition.exec_cons_of_step _ hbegin]
  refine (Transition.exec_append_of_exec _ hvisits).trans ?_
  rw [Transition.exec_cons_of_step _ hcollect, replayPending_undisturbed]
  rfl

end System

/-- **`replay_pending` partitions the table**, for every database, registry and codec, if
    its removal commits; otherwise it enqueues the same events and changes nothing. -/
theorem replayPending_partitions {R : Type} [EventRegistry R] (json : SerdeJson) (registry : R)
    (db : Db) :
    Partitions json registry db (replayPending json registry true (.undisturbed true) db) ∧
      (replayPending json registry true (.undisturbed false) db).enqueued
        = (replayPending json registry true (.undisturbed true) db).enqueued ∧
      (replayPending json registry true (.undisturbed false) db).db = db := by
  rw [replayPending_undisturbed, replayPending_undisturbed]
  refine ⟨?_, rfl, rfl⟩
  have hevents := fun id => Table.getElem?_foldl_erase (fun id => id)
    (db.pendingRows.filterMap (deadRow json registry)) db.events id
  have hrefcounts := fun id => Table.getElem?_foldl_erase (fun id => id)
    (db.pendingRows.filterMap (deadRow json registry)) db.refcount id
  simp only [List.map_id'] at hevents hrefcounts
  constructor
  case enqueued => exact fun id message => mem_filterMap_liveRow
  case ascending =>
    refine (db.ascending_pendingRows).filterMap _ fun a b hlt sent hsent sent' hsent' => ?_
    rw [liveRow_fst hsent, liveRow_fst hsent']
    exact hlt
  case deleted =>
    intro id hdead
    have hmem := mem_filterMap_deadRow.mpr hdead
    exact ⟨(hevents id).1 hmem, (hrefcounts id).1 hmem⟩
  case kept =>
    intro id hdead
    have hmem := fun h => hdead (mem_filterMap_deadRow.mp h)
    exact ⟨(hevents id).2 hmem, (hrefcounts id).2 hmem⟩
  case others => exact ⟨rfl, rfl, rfl⟩

end TokioEvents
