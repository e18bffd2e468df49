/-
  TokioEvents.Persistence.Bus.Ring

  Three waits that a replay can bring about.  `EventBus::replay_pending` keeps the lock of
  the dispatcher until the last pending row is in the queue.  If the queue is full, the
  replay waits for the worker; if the worker waits for room in the channel of a handler,
  and the handler waits for the lock because it publishes, all three wait for ever.

  `Ring` is this state, and `Inv` is what the bus behind its lock keeps in every run.
-/

import TokioEvents.Lib.Calls
import TokioEvents.Persistence.Bus.Effects
import TokioEvents.Persistence.Bus.Guard
import TokioEvents.Persistence.Refcount
import TokioEvents.Registry.Indexes

namespace TokioEvents

/-! ## The three waits -/

/-- The sends of `SubscriptionManager::dispatch` that have not completed. -/
def Worker.sends : Worker → List Uuid
  | .dispatching _ sends _ => sends
  | _ => []

namespace PersistentBus

/-- A send to the queue waits. -/
def QueueFull (s : PersistentBus) : Prop :=
  s.queue.receiver = true ∧ s.queue.capacity ≤ s.queue.buffer.length

/-- A send to the handler of a subscription waits. -/
def ChannelFull (config : BusConfig) (s : PersistentBus) (id : Uuid) : Prop :=
  ∃ data ∈ s.manager.subscriptions[id]?,
    data.live = true ∧ config.handlerChannelSize ≤ data.channel.length

instance (s : PersistentBus) : Decidable s.QueueFull := inferInstanceAs (Decidable (_ ∧ _))

instance (config : BusConfig) (s : PersistentBus) (id : Uuid) :
    Decidable (s.ChannelFull config id) :=
  inferInstanceAs (Decidable (∃ data ∈ s.manager.subscriptions[id]?,
    data.live = true ∧ config.handlerChannelSize ≤ data.channel.length))

end PersistentBus

namespace GuardedBus

variable {json : SerdeJson} {config : BusConfig} {s s' : GuardedBus}

/-- The handler of a subscription waits for the lock. -/
def HandlerWaits (s : GuardedBus) (id : Uuid) : Prop :=
  ∃ call ∈ s.publishes, call.caller = some id ∧ call.phase = .waiting

/-- The replay has the lock and is in `blocking_send`. -/
def ReplaySends (s : GuardedBus) : Prop :=
  s.replay = .holding ∧ ∃ replay ∈ s.bus.replays, replay.isSending = true

/-- Some of these subscriptions have no room for an event, and their handler waits for the
    lock. -/
def Stuck (config : BusConfig) (s : GuardedBus) (ids : List Uuid) : Prop :=
  ∃ id ∈ ids, s.bus.ChannelFull config id ∧ s.HandlerWaits id

/-- **The deadlock**: the replay waits for room in the queue, the worker for room in the
    channel of a handler, and the handler for the lock that the replay holds. -/
def Ring (config : BusConfig) (s : GuardedBus) : Prop :=
  s.ReplaySends ∧ s.bus.QueueFull ∧ s.Stuck config s.bus.worker.sends

instance (s : GuardedBus) (id : Uuid) : Decidable (s.HandlerWaits id) :=
  inferInstanceAs (Decidable (∃ call ∈ s.publishes, call.caller = some id ∧ call.phase = .waiting))

instance (s : GuardedBus) : Decidable s.ReplaySends :=
  inferInstanceAs (Decidable (_ ∧ ∃ replay ∈ s.bus.replays, replay.isSending = true))

-- an instance found by search goes through all ids there are
instance (s : GuardedBus) (ids : List Uuid) : Decidable (s.Stuck config ids) :=
  List.decidableBEx (fun id => s.bus.ChannelFull config id ∧ s.HandlerWaits id) ids

instance (s : GuardedBus) : Decidable (s.Ring config) := inferInstanceAs (Decidable (_ ∧ _ ∧ _))

/-- **Nobody in the ring moves**: the replay cannot send, the worker can neither send nor,
    without a timeout, give up, and the handler does not get the lock. -/
theorem Ring.stuck (h : s.Ring config) (htimeout : config.processingTimeoutMs = 0) :
    (∀ (index : Nat) envelope rows dead,
      s.bus.replays[index]? = some (.pendingSend envelope rows dead) →
        s.bus.replaySend index = none) ∧
    s.bus.dispatched config = none ∧
    (∃ id, s.HandlerWaits id ∧ s.bus.push config id = none) ∧
    ∀ index, s.publishLock index = none := by
  obtain ⟨⟨hholding, -⟩, ⟨hreceiver, hfull⟩, id, hsends, ⟨data, hdata, hlive, hroom⟩, hwaits⟩ := h
  cases hworker : s.bus.worker with
  | dispatching envelope sends rest =>
    rw [hworker] at hsends
    refine ⟨fun index envelope rows dead hreplay => ?_, ?_, ⟨id, hwaits, ?_⟩, fun index => ?_⟩
    · simp [PersistentBus.replaySend, hreplay, Mpsc.Channel.trySend, hreceiver,
        Nat.not_lt.mpr hfull]
    · have hnonempty : sends ≠ [] := List.ne_nil_of_mem hsends
      simp [PersistentBus.dispatched, hworker, hnonempty, htimeout]
    · have hmem : id ∈ sends := hsends
      rw [Option.mem_def] at hdata
      simp [PersistentBus.push, hworker, hmem, hdata, hlive, hroom]
    · unfold publishLock
      split
      · rw [if_neg fun h => h.2 hholding]
      · rfl
  | unspawned => rw [hworker] at hsends; cases hsends
  | receiving => rw [hworker] at hsends; cases hsends
  | draining batch => rw [hworker] at hsends; cases hsends
  | counting done rest => rw [hworker] at hsends; cases hsends
  | delivering rest => rw [hworker] at hsends; cases hsends
  | stopped => rw [hworker] at hsends; cases hsends

/-! ## What the bus keeps in every run -/

/-- The lock excludes readers while the replay has it; there is at most one blocking task of
    `replay_pending`, and none before the call has the lock; and the worker sends an event
    to a subscription once, because ids are registered once. -/
structure Inv (s : GuardedBus) : Prop where
  exclusive : s.replay = .holding → s.shared = false
  pendings : s.bus.replays.countP Replay.isPending ≤ 1
  noPending : s.replay = .notCalled ∨ s.replay = .waiting →
    s.bus.replays.countP Replay.isPending = 0
  refines : ∃ live, s.bus.manager.registry.inner.Refines live
  nodup : s.bus.worker.sends.Nodup

end GuardedBus

namespace PersistentBus

variable {json : SerdeJson} {config : BusConfig} {s s' : PersistentBus} {live : List Registration}

theorem nodup_senders (h : s.manager.registry.inner.Refines live) (envelope : EventEnvelope) :
    (s.manager.senders envelope).Nodup := by
  refine (SubscriptionManager.senders_sublist _ _).nodup ?_
  rw [SubscriptionManager.selectSubscriptions_redb]
  exact (List.filter_sublist.map _).nodup (h.nodup_ids _)

/-- What the worker sends next it sends once. -/
theorem nodup_stepWorker {a : WorkerAction} (h : s.stepWorker json config a = some s')
    (hrefines : s.manager.registry.inner.Refines live) (hnodup : s.worker.sends.Nodup) :
    s'.worker.sends.Nodup := by
  cases a with
  | recv =>
    obtain ⟨-, ⟨msg, rest, -, rfl⟩ | ⟨-, rfl⟩⟩ := recv_cases h <;> exact List.nodup_nil
  | tryRecv =>
    obtain ⟨batch, msg, rest, -, -, rfl⟩ := tryRecv_cases h
    exact List.nodup_nil
  | check reads =>
    obtain ⟨batch, checked, -, -, rfl⟩ := check_cases h
    exact List.nodup_nil
  | count now =>
    obtain ⟨done, msg, rest, n, -, -, rfl⟩ := count_cases h
    exact List.nodup_nil
  | write faults =>
    obtain ⟨done, -, ⟨-, rfl⟩ | ⟨msg, -, rfl⟩ | ⟨-, rfl⟩⟩ := write_cases h <;>
      exact List.nodup_nil
  | deliver now =>
    obtain ⟨-, rfl⟩ | ⟨msg, rest, -, ⟨-, rfl⟩ | ⟨-, rfl⟩⟩ := deliver_cases h
    · exact List.nodup_nil
    · exact List.nodup_nil
    · exact nodup_senders hrefines msg.envelope
  | push id =>
    obtain ⟨envelope, sends, rest, hphase, -, rfl⟩ := push_cases h
    rw [hphase] at hnodup
    exact hnodup.erase id
  | dispatched =>
    obtain ⟨envelope, sends, rest, -, rfl⟩ := dispatched_cases h
    exact List.nodup_nil
  | panic =>
    obtain ⟨-, rfl⟩ := workerPanic_cases h
    exact List.nodup_nil

/-- A registry call that registers no id a second time keeps the registrations apart, and
    nothing else touches the registry but handlers that count what they have processed. -/
theorem refines_stepHandler {a : HandlerAction} (h : s.stepHandler a = some s')
    (hrefines : s.manager.registry.inner.Refines live)
    (hfresh : ∀ t n entry, a = .registry (.register t n entry) →
      s.manager.registry.inner.subscriptionToType[entry.id]? = none) :
    ∃ live', s'.manager.registry.inner.Refines live' := by
  cases a with
  | registry op =>
    cases h
    refine ⟨op.store live, ?_⟩
    show (op.apply s.manager.registry).inner.Refines _
    rw [RedbRegistry.inner_apply]
    refine hrefines.apply fun id hid hmem => ?_
    cases op with
    | register t n entry =>
      obtain ⟨x, hx, hxid⟩ := List.mem_map.mp hmem
      exact hrefines.not_typed (hfresh t n entry rfl) x hx (hxid.trans (Option.some.inj hid).symm)
    | unregister _ => cases hid
    | deactivate _ => cases hid
    | incrementProcessed _ => cases hid
    | clear => cases hid
  | openChannel id =>
    obtain ⟨-, rfl⟩ := openChannel_cases h
    exact ⟨live, hrefines⟩
  | removeChannel id =>
    cases h
    exact ⟨live, hrefines⟩
  | closeChannel id =>
    obtain ⟨data, -, rfl⟩ := closeChannel_cases h
    exact ⟨live, hrefines⟩
  | take id =>
    obtain ⟨-, envelope, rest, ⟨-, rfl⟩ | ⟨-, rfl⟩⟩ := handlerTake_cases h <;>
      exact ⟨live, hrefines⟩
  | complete id isSuccess =>
    obtain ⟨envelope, registry, -, -, hinner, rfl⟩ := handlerComplete_cases h
    refine ⟨live, ?_⟩
    show registry.inner.Refines live
    rw [hinner]
    cases isSuccess with
    | true => exact hrefines.incrementProcessed id
    | false => exact hrefines
  | exit id =>
    cases h
    exact ⟨live, hrefines⟩
  | ack commits =>
    obtain ⟨completion, rest, -, rfl⟩ := ack_step_cases h
    exact ⟨live, hrefines⟩

/-- No step behind the manager fills a channel. -/
theorem channelFull_stepHandler {a : HandlerAction} {id : Uuid} (h : s.stepHandler a = some s')
    (hopen : ∀ i, a = .openChannel i → 0 < config.handlerChannelSize)
    (hfull : s'.ChannelFull config id) : s.ChannelFull config id := by
  have hsame : s'.manager.subscriptions = s.manager.subscriptions → s.ChannelFull config id := by
    intro heq
    unfold ChannelFull at hfull ⊢
    rwa [heq] at hfull
  obtain ⟨data, hdata, hlive, hlength⟩ := hfull
  rw [Option.mem_def] at hdata
  cases a with
  | registry op => cases h; exact hsame rfl
  | complete i isSuccess =>
    obtain ⟨envelope, registry, -, -, -, rfl⟩ := handlerComplete_cases h
    exact hsame rfl
  | ack commits =>
    obtain ⟨completion, rest, -, rfl⟩ := ack_step_cases h
    exact hsame rfl
  | openChannel i =>
    obtain ⟨-, rfl⟩ := openChannel_cases h
    rw [Std.ExtTreeMap.getElem?_insert] at hdata
    split at hdata
    · -- the new channel is empty
      cases hdata
      exact absurd (hopen i rfl) (by simpa using hlength)
    · exact ⟨data, hdata, hlive, hlength⟩
  | removeChannel i =>
    cases h
    unfold removeChannel at hdata
    rw [Std.ExtTreeMap.getElem?_erase] at hdata
    split at hdata
    · cases hdata
    · exact ⟨data, hdata, hlive, hlength⟩
  | closeChannel i =>
    obtain ⟨data', -, rfl⟩ := closeChannel_cases h
    rw [Std.ExtTreeMap.getElem?_erase] at hdata
    split at hdata
    · cases hdata
    · exact ⟨data, hdata, hlive, hlength⟩
  | take i =>
    obtain ⟨-, envelope, rest, ⟨hchannel, rfl⟩ | ⟨-, rfl⟩⟩ := handlerTake_cases h
    · rw [Std.ExtTreeMap.getElem?_insert] at hdata
      split at hdata
      · rename_i heq
        cases hdata
        obtain rfl : i = id := by simpa using heq
        exact ⟨_, hchannel, rfl, Nat.le_succ_of_le hlength⟩
      · exact ⟨data, hdata, hlive, hlength⟩
    · exact ⟨data, hdata, hlive, hlength⟩
  | exit i =>
    cases h
    unfold handlerExit at hdata
    dsimp only at hdata
    split at hdata
    · rw [Std.ExtTreeMap.getElem?_insert] at hdata
      split at hdata
      · cases hdata
        cases hlive
      · exact ⟨data, hdata, hlive, hlength⟩
    · exact ⟨data, hdata, hlive, hlength⟩

end PersistentBus

/-! ## The blocking tasks -/

namespace Replay

theorem isPending_of_isSending {replay : Replay} (h : replay.isSending = true) :
    replay.isPending = true := by
  cases replay with
  | pending rows dead => cases h
  | pendingSend envelope rows dead => rfl
  | dlq envelopes => cases h

/-- Where there is one blocking task of `replay_pending`, it is the one that sends. -/
theorem sending_set_iff {replays : List Replay} {index : Nat} {replay : Replay} (replay' : Replay)
    (hreplay : replays[index]? = some replay) (hpending : replay.isPending = true)
    (hone : replays.countP isPending ≤ 1) :
    (∃ r ∈ replays.set index replay', r.isSending = true) ↔ replay'.isSending = true := by
  obtain ⟨hlt, hget⟩ := List.getElem?_eq_some_iff.mp hreplay
  rw [List.set_eq_take_append_cons_drop, if_pos hlt]
  have hsplit : replays = replays.take index ++ replay :: replays.drop (index + 1) := by
    rw [← hget, List.getElem_cons_drop, List.take_append_drop]
  rw [hsplit, List.countP_append, List.countP_cons_of_pos hpending] at hone
  have hother : ∀ r ∈ replays.take index ++ replays.drop (index + 1), r.isSending = false := by
    intro r hr
    have hnone : (replays.take index ++ replays.drop (index + 1)).countP isPending = 0 := by
      rw [List.countP_append]
      omega
    by_contra hsending
    exact List.countP_eq_zero.mp hnone r hr (isPending_of_isSending (by simpa using hsending))
  constructor
  · rintro ⟨r, hr, hsending⟩
    rcases List.mem_append.mp hr with hr | hr
    · rw [hother r (List.mem_append_left _ hr)] at hsending
      cases hsending
    · rcases List.mem_cons.mp hr with rfl | hr
      · exact hsending
      · rw [hother r (List.mem_append_right _ hr)] at hsending
        cases hsending
  · intro hsending
    exact ⟨replay', by simp, hsending⟩

end Replay

namespace PersistentBus

variable {json : SerdeJson} {config : BusConfig} {s s' : PersistentBus}

/-- A replay call moves on with at most as many blocking tasks of `replay_pending`. -/
theorem pendings_stepReplay {a : ReplayAction} (h : s.stepReplay json a = some s')
    (ha : a ≠ .pending) :
    s'.replays.countP Replay.isPending ≤ s.replays.countP Replay.isPending := by
  have hset : ∀ {index : Nat} {replay replay' : Replay}, s.replays[index]? = some replay →
      replay'.isPending = replay.isPending →
      (s.replays.set index replay').countP Replay.isPending
        ≤ s.replays.countP Replay.isPending := by
    intro index replay replay' hreplay heq
    obtain ⟨hlt, hget⟩ := List.getElem?_eq_some_iff.mp hreplay
    rw [List.countP_set hlt, hget, heq]
    cases hp : replay.isPending with
    | false => simp
    | true =>
      have hpos : 0 < s.replays.countP Replay.isPending :=
        List.countP_pos_iff.mpr ⟨replay, hget ▸ List.getElem_mem hlt, hp⟩
      simp only [↓reduceIte]
      omega
  have herase : ∀ index, (s.replays.eraseIdx index).countP Replay.isPending
      ≤ s.replays.countP Replay.isPending := fun index =>
    (List.eraseIdx_sublist _ index).countP_le
  cases a with
  | pending => exact absurd rfl ha
  | visit index =>
    simp only [stepReplay, replayVisit] at h
    split at h
    · rename_i hreplay
      cases h
      refine hset hreplay ?_
      split <;> rfl
    · cases h
  | send index =>
    simp only [stepReplay, replaySend] at h
    split at h
    · rename_i hreplay
      split at h <;> cases h <;> exact hset hreplay rfl
    · cases h
  | collect index commits =>
    simp only [stepReplay, replayCollect] at h
    split at h <;> cases h
    exact herase index
  | fail index =>
    simp only [stepReplay, replayFail] at h
    split at h <;> cases h
    exact herase index
  | dlq =>
    simp only [stepReplay, replayDlq] at h
    split at h <;> cases h
    simp [Replay.isPending]
  | dlqSend index =>
    simp only [stepReplay, replayDlqSend] at h
    split at h
    · cases h
      exact herase index
    · rename_i hreplay
      repeat' split at h
      all_goals
        cases h
        exact hset hreplay rfl
    · cases h

end PersistentBus

namespace GuardedBus

variable {json : SerdeJson} {config : BusConfig} {s s' : GuardedBus}

/-! ## The invariant -/

theorem inv_boot (json : SerdeJson) (config : BusConfig) (db : Db) :
    (boot json config db).Inv where
  exclusive h := by cases h
  pendings := Nat.zero_le _
  noPending _ := rfl
  refines := ⟨[], DashMapRegistry.refines_new⟩
  nodup := List.nodup_nil

/-- What the lock and the calls of `publish` leave alone. -/
theorem Inv.of_bus_eq (hI : s.Inv) (hexclusive : s'.replay = .holding → s'.shared = false)
    (hreplays : s'.bus.replays = s.bus.replays)
    (hreplay : s'.replay = .notCalled ∨ s'.replay = .waiting →
      s.replay = .notCalled ∨ s.replay = .waiting)
    (hregistry : s'.bus.manager.registry = s.bus.manager.registry)
    (hworker : s'.bus.worker = s.bus.worker) : s'.Inv where
  exclusive := hexclusive
  pendings := by rw [hreplays]; exact hI.pendings
  noPending h := by rw [hreplays]; exact hI.noPending (hreplay h)
  refines := by rw [hregistry]; exact hI.refines
  nodup := by rw [hworker]; exact hI.nodup

theorem stepBus_eq_some {a : Action} : s.stepBus json config a = some s' ↔
    s.permits config a = true ∧ ∃ bus, s.bus.step json config a = some bus ∧
      s' = { s with bus := bus } := by
  unfold stepBus
  split
  · rename_i hpermits
    simp only [Option.map_eq_some_iff, hpermits, true_and]
    exact exists_congr fun bus => and_congr_right fun _ => eq_comm
  · rename_i hpermits
    simp [hpermits]

theorem Inv.stepBus {a : Action} (hI : s.Inv) (h : s.stepBus json config a = some s') :
    s'.Inv := by
  obtain ⟨hpermits, bus, hstep, rfl⟩ := stepBus_eq_some.mp h
  obtain ⟨live, hrefines⟩ := hI.refines
  -- a step that leaves registry and worker alone
  have hother : bus.replays.countP Replay.isPending ≤ s.bus.replays.countP Replay.isPending →
      (∃ live, bus.manager.registry.inner.Refines live) → bus.worker.sends.Nodup →
      Inv { s with bus := bus } := fun hle hrefines hnodup =>
    ⟨hI.exclusive, hle.trans hI.pendings, fun h => Nat.le_zero.mp (hle.trans (hI.noPending h).le),
      hrefines, hnodup⟩
  have hhandling : PersistentBus.SameHandling s.bus bus →
      (∃ live, bus.manager.registry.inner.Refines live) ∧ bus.worker.sends.Nodup := fun h =>
    ⟨⟨live, by rw [h.manager]; exact hrefines⟩, by rw [h.worker]; exact hI.nodup⟩
  cases a with
  | publisher a =>
    obtain ⟨hr, hn⟩ := hhandling (PersistentBus.stepPublisher_frame hstep).2
    exact hother (by rw [(PersistentBus.stepPublisher_queue hstep).1]) hr hn
  | scheduler a =>
    obtain ⟨hr, hn⟩ := hhandling (PersistentBus.stepScheduler_frame hstep).2.1
    exact hother (by rw [PersistentBus.replays_stepScheduler hstep]) hr hn
  | replay a =>
    obtain ⟨hr, hn⟩ := hhandling (PersistentBus.stepReplay_frame hstep).2.1
    refine hother (PersistentBus.pendings_stepReplay hstep ?_) hr hn
    rintro rfl
    cases hpermits
  | worker a =>
    have hsame := PersistentBus.stepWorker_sameTasks hstep
    refine hother (by rw [hsame.replays]) ⟨live, by rw [hsame.registry]; exact hrefines⟩ ?_
    exact PersistentBus.nodup_stepWorker hstep hrefines hI.nodup
  | handler a =>
    have hworker := (PersistentBus.stepHandler_frame hstep).2.1
    refine hother (by rw [(PersistentBus.stepHandler_sameInputs hstep).2.1]) ?_
      (by rw [hworker]; exact hI.nodup)
    refine PersistentBus.refines_stepHandler hstep hrefines ?_
    rintro t n entry rfl
    exact Option.isNone_iff_eq_none.mp hpermits
  | control a =>
    have hsame := PersistentBus.stepControl_sameWork hstep (by rintro rfl; cases hpermits)
    refine hother (by rw [hsame.replays]) ⟨live, by rw [hsame.manager]; exact hrefines⟩ ?_
    rcases hsame.worker with hworker | ⟨-, hworker⟩
    · rw [hworker]
      exact hI.nodup
    · rw [hworker]
      exact List.nodup_nil

/-- Who has the guard shared excludes the replay. -/
theorem Inv.not_holding (hI : s.Inv) {index : Nat} {call : GuardedPublish}
    (hcall : s.publishes[index]? = some call) (hphase : call.phase ≠ .waiting) :
    s.replay ≠ .holding := by
  intro hholding
  have hshared : s.shared = true :=
    List.any_eq_true.mpr ⟨call, List.mem_of_getElem? hcall, decide_eq_true hphase⟩
  rw [hI.exclusive hholding] at hshared
  cases hshared

/-- A call of `publish` that goes on, or is over, leaves the rest alone. -/
theorem Inv.of_publisher (hI : s.Inv) {a : PublisherAction} {bus : PersistentBus}
    {publishes : List GuardedPublish} (hreplay : s.replay ≠ .holding)
    (h : s.bus.stepPublisher config a = some bus) :
    Inv ⟨bus, publishes, s.replay⟩ := by
  have hsame := (PersistentBus.stepPublisher_frame h).2
  exact hI.of_bus_eq (fun h => absurd h hreplay) (PersistentBus.stepPublisher_queue h).1 id
    (by rw [hsame.manager]) hsame.worker

theorem Inv.step {a : GuardedAction} (hI : s.Inv) (h : s.step json config a = some s') :
    s'.Inv := by
  cases a with
  | bus a => exact hI.stepBus h
  | replayPending =>
    simp only [GuardedBus.step, replayPending] at h
    split at h
    · rename_i hphase
      cases h
      exact hI.of_bus_eq (fun h => by cases h) rfl (fun _ => .inl hphase) rfl rfl
    · cases h
  | replayLock =>
    simp only [GuardedBus.step, replayLock] at h
    split at h
    · rename_i hfree
      split at h
      · rename_i bus hbus
        cases h
        unfold PersistentBus.replayPending at hbus
        split at hbus <;> cases hbus
        refine ⟨fun _ => hfree.2.1, ?_, ?_, hI.refines, hI.nodup⟩
        case refine_2 => rintro (h | h) <;> cases h
        have hnone := hI.noPending (.inr hfree.1)
        simp [hnone, List.countP_cons]
        rfl
      · cases h
        exact hI.of_bus_eq (fun h => by cases h) rfl (fun h => by rcases h with h | h <;> cases h)
          rfl rfl
    · cases h
  | replayReturn =>
    simp only [GuardedBus.step, replayReturn] at h
    split at h <;> cases h
    exact hI.of_bus_eq (fun h => by cases h) rfl (fun h => by rcases h with h | h <;> cases h)
      rfl rfl
  | replayDrop =>
    simp only [GuardedBus.step, replayDrop] at h
    split at h <;> cases h
    exact hI.of_bus_eq (fun h => by cases h) rfl (fun h => by rcases h with h | h <;> cases h)
      rfl rfl
  | publish caller envelope =>
    simp only [GuardedBus.step, publish] at h
    split at h <;> cases h
    refine hI.of_bus_eq (fun h => ?_) rfl id rfl rfl
    have hshared := hI.exclusive h
    unfold shared at hshared ⊢
    rw [List.any_append, hshared]
    rfl
  | publishLock index =>
    simp only [GuardedBus.step, publishLock] at h
    split at h
    · split at h
      · rename_i hfree
        cases h
        exact hI.of_bus_eq (fun h => absurd h hfree.2) rfl id rfl rfl
      · cases h
    · cases h
  | publishSend index =>
    simp only [GuardedBus.step, publishSend] at h
    split at h
    · rename_i call hcall
      split at h
      · rename_i hphase
        obtain ⟨bus, hbus, rfl⟩ := Option.map_eq_some_iff.mp h
        have hfree := hI.not_holding hcall (by rw [hphase]; simp)
        have hstep : s.bus.stepPublisher config (.dispatch call.envelope) = some bus := hbus
        split <;> exact hI.of_publisher hfree hstep
      · cases h
    · cases h
  | publishConfirm index =>
    simp only [GuardedBus.step, publishConfirm] at h
    split at h
    · rename_i hcall
      obtain ⟨bus, hbus, rfl⟩ := Option.map_eq_some_iff.mp h
      have hstep : s.bus.stepPublisher config (.returns _) = some bus := hbus
      exact hI.of_publisher (hI.not_holding hcall (by simp)) hstep
    · cases h
  | publishDrop index =>
    simp only [GuardedBus.step, publishDrop] at h
    split at h
    · rename_i hcall
      obtain ⟨bus, hbus, rfl⟩ := Option.map_eq_some_iff.mp h
      have hstep : s.bus.stepPublisher config (.cancel _) = some bus := hbus
      exact hI.of_publisher (hI.not_holding hcall (by simp)) hstep
    · cases h
      refine hI.of_bus_eq (fun h => ?_) rfl id rfl rfl
      have hshared := hI.exclusive h
      unfold shared at hshared ⊢
      rw [List.any_eq_false] at hshared ⊢
      exact fun call hmem => hshared call (List.mem_of_mem_eraseIdx hmem)
    · cases h

end GuardedBus
end TokioEvents
