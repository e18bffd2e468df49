/-
  TokioEvents.Persistence.ReplayDeadlock

  When a replay cannot deadlock the bus.  `Closes` says which step, in which state,
  completes the ring of waits; no other step does.
-/

import TokioEvents.Persistence.Bus.Crowd
import TokioEvents.Persistence.Bus.Ring

namespace TokioEvents

/-! ## The steps that complete the ring -/

namespace PersistentBus

/-- The sends that the next turn of the dispatch loop begins. -/
def turnsTo (s : PersistentBus) (now : DateTime) : List Uuid :=
  match s.worker with
  | .delivering (msg :: _) =>
    if msg.envelope.isScheduled now then [] else s.manager.senders msg.envelope
  | _ => []

/-- The next row of `replay_pending` is to be sent. -/
def visitsLive (json : SerdeJson) (s : PersistentBus) (index : Nat) : Bool :=
  match s.replays[index]? with
  | some (.pending ((_, bytes, refcount) :: _) _) =>
    match rowFate json s.manager.registry bytes refcount with
    | .live _ => true
    | _ => false
  | _ => false

/-- The scheduler is in `sender.send(msg)`. -/
def schedulerSends (s : PersistentBus) : Bool :=
  match s.scheduler with
  | .sending _ _ => true
  | _ => false

/-- The next event of `replay_dlq` is to be sent. -/
def dlqSends (s : PersistentBus) (index : Nat) : Bool :=
  match s.replays[index]? with
  | some (.dlq (persisted :: _)) =>
    (EventRegistry.getTypeId s.manager.registry persisted.typeName).isSome
  | _ => false

/-- There is room for one message more. -/
def OnePlace (s : PersistentBus) : Prop :=
  s.queue.receiver = true ∧ s.queue.buffer.length + 1 = s.queue.capacity

instance (s : PersistentBus) : Decidable s.OnePlace := inferInstanceAs (Decidable (_ ∧ _))

end PersistentBus

namespace GuardedBus

variable {json : SerdeJson} {config : BusConfig} {s s' : GuardedBus}

/-- A step completes the ring:
    a handler publishes while the replay waits for room and the worker for this handler;
    the worker turns to an event for a handler that has no room and waits for the lock,
    while the replay waits for room;
    the replay comes to a row that it has to send while the queue is full, or somebody
    else takes the last place before it sends, while the worker waits for a handler that
    waits for the lock. -/
def Closes (json : SerdeJson) (config : BusConfig) (s : GuardedBus) : GuardedAction → Prop
  | .publish (some id) _ =>
    s.ReplaySends ∧ s.bus.QueueFull ∧ id ∈ s.bus.worker.sends ∧ s.bus.ChannelFull config id
  | .bus (.worker (.deliver now)) =>
    s.ReplaySends ∧ s.bus.QueueFull ∧ s.Stuck config (s.bus.turnsTo now)
  | .bus (.replay (.visit index)) =>
    s.replay = .holding ∧ s.bus.visitsLive json index = true ∧ s.bus.QueueFull ∧
      s.Stuck config s.bus.worker.sends
  | .bus (.scheduler .send) =>
    s.ReplaySends ∧ s.bus.schedulerSends = true ∧ s.bus.OnePlace ∧
      s.Stuck config s.bus.worker.sends
  | .bus (.replay (.dlqSend index)) =>
    s.ReplaySends ∧ s.bus.dlqSends index = true ∧ s.bus.OnePlace ∧
      s.Stuck config s.bus.worker.sends
  | _ => False

instance decidableCloses (json : SerdeJson) (s : GuardedBus) :
    (a : GuardedAction) → Decidable (s.Closes json config a)
  | .publish (some _) _ => inferInstanceAs (Decidable (_ ∧ _ ∧ _ ∧ _))
  | .bus (.worker (.deliver _)) => inferInstanceAs (Decidable (_ ∧ _ ∧ _))
  | .bus (.replay (.visit _)) => inferInstanceAs (Decidable (_ ∧ _ ∧ _ ∧ _))
  | .bus (.scheduler .send) => inferInstanceAs (Decidable (_ ∧ _ ∧ _ ∧ _))
  | .bus (.replay (.dlqSend _)) => inferInstanceAs (Decidable (_ ∧ _ ∧ _ ∧ _))
  | .publish none _ | .replayPending | .replayLock | .replayReturn | .replayDrop
  | .publishLock _ | .publishSend _ | .publishConfirm _ | .publishDrop _
  | .bus (.worker .recv) | .bus (.worker .tryRecv) | .bus (.worker (.check _))
  | .bus (.worker (.count _)) | .bus (.worker (.write _)) | .bus (.worker (.push _))
  | .bus (.worker .dispatched) | .bus (.worker .panic)
  | .bus (.scheduler (.wake _)) | .bus (.scheduler (.poll _)) | .bus (.scheduler .fire)
  | .bus (.scheduler (.orphanPoll _ _))
  | .bus (.replay .pending) | .bus (.replay (.send _)) | .bus (.replay (.collect _ _))
  | .bus (.replay (.fail _)) | .bus (.replay .dlq)
  | .bus (.handler _) | .bus (.publisher _) | .bus (.control _) => isFalse fun h => h

/-! ## Exactly these steps complete the ring -/

theorem Stuck.imp {ids ids' : List Uuid} (h : s'.Stuck config ids') (hids : ids' ⊆ ids)
    (hfull : ∀ id ∈ ids', s'.bus.ChannelFull config id → s.bus.ChannelFull config id)
    (hwaits : ∀ id, s'.HandlerWaits id → s.HandlerWaits id) : s.Stuck config ids := by
  obtain ⟨id, hmem, hchannel, hhandler⟩ := h
  exact ⟨id, hids hmem, hfull id hmem hchannel, hwaits id hhandler⟩

/-- The parts of the ring that lie in the bus. -/
theorem Ring.imp {bus : PersistentBus} (h : Ring config { s with bus := bus })
    (hsends : (∃ r ∈ bus.replays, r.isSending = true) →
      ∃ r ∈ s.bus.replays, r.isSending = true)
    (hqueue : bus.QueueFull → s.bus.QueueFull) (hids : bus.worker.sends ⊆ s.bus.worker.sends)
    (hfull : ∀ id ∈ bus.worker.sends, bus.ChannelFull config id → s.bus.ChannelFull config id) :
    s.Ring config :=
  ⟨⟨h.1.1, hsends h.1.2⟩, hqueue h.2.1, h.2.2.imp hids hfull fun _ hw => hw⟩

theorem not_ring_of_sends {bus : PersistentBus} (h : bus.worker.sends = []) :
    ¬ Ring config { s with bus := bus } := by
  rintro ⟨-, -, id, hmem, -⟩
  rw [show ({ s with bus := bus } : GuardedBus).bus.worker.sends = [] from h] at hmem
  cases hmem

/-- The queue is full after a message exactly if there was one place left. -/
theorem queueFull_push_iff {bus : PersistentBus} (msg : RedbDispatcherMessage)
    (h : bus.queue.Accepts) :
    PersistentBus.QueueFull { bus with queue := bus.queue.push msg } ↔ bus.OnePlace := by
  obtain ⟨hreceiver, hroom⟩ := h
  unfold PersistentBus.QueueFull PersistentBus.OnePlace
  show bus.queue.receiver = true ∧ bus.queue.capacity ≤ (bus.queue.buffer ++ [msg]).length ↔ _
  rw [List.length_append, List.length_singleton, and_congr_right_iff]
  omega

theorem ring_worker_iff {a : WorkerAction} {bus : PersistentBus} (hI : s.Inv)
    (hring : ¬ s.Ring config) (h : s.bus.stepWorker json config a = some bus) :
    Ring config { s with bus := bus } ↔ s.Closes json config (.bus (.worker a)) := by
  have hclosed : bus.worker.sends = [] →
      (Ring config { s with bus := bus } ↔ False) := fun hsends =>
    iff_of_false (not_ring_of_sends hsends) id
  cases a with
  | recv =>
    obtain ⟨-, ⟨msg, rest, -, rfl⟩ | ⟨-, rfl⟩⟩ := PersistentBus.recv_cases h <;>
      exact hclosed rfl
  | tryRecv =>
    obtain ⟨batch, msg, rest, -, -, rfl⟩ := PersistentBus.tryRecv_cases h
    exact hclosed rfl
  | check reads =>
    obtain ⟨batch, checked, -, -, rfl⟩ := PersistentBus.check_cases h
    exact hclosed rfl
  | count now =>
    obtain ⟨done, msg, rest, n, -, -, rfl⟩ := PersistentBus.count_cases h
    exact hclosed rfl
  | write faults =>
    obtain ⟨done, -, ⟨-, rfl⟩ | ⟨msg, -, rfl⟩ | ⟨-, rfl⟩⟩ := PersistentBus.write_cases h <;>
      exact hclosed rfl
  | dispatched =>
    obtain ⟨envelope, sends, rest, -, rfl⟩ := PersistentBus.dispatched_cases h
    exact hclosed rfl
  | panic =>
    obtain ⟨-, rfl⟩ := PersistentBus.workerPanic_cases h
    exact hclosed rfl
  | deliver now =>
    -- queue, replays and channels stay, and the worker has new sends
    show _ ↔ s.ReplaySends ∧ s.bus.QueueFull ∧ s.Stuck config (s.bus.turnsTo now)
    obtain ⟨hphase, rfl⟩ | ⟨msg, rest, hphase, ⟨hscheduled, rfl⟩ | ⟨hdue, rfl⟩⟩ :=
      PersistentBus.deliver_cases h
    · have hnone : s.bus.turnsTo now = [] := by simp [PersistentBus.turnsTo, hphase]
      rw [hnone]
      exact Iff.rfl
    · have hnone : s.bus.turnsTo now = [] := by simp [PersistentBus.turnsTo, hphase, hscheduled]
      rw [hnone]
      exact Iff.rfl
    · have hsends : s.bus.turnsTo now = s.bus.manager.senders msg.envelope := by
        simp [PersistentBus.turnsTo, hphase, hdue]
      rw [hsends]
      exact Iff.rfl
  | push id =>
    obtain ⟨envelope, sends, rest, hphase, -, rfl⟩ := PersistentBus.push_cases h
    have hnodup : sends.Nodup := by simpa [hphase, Worker.sends] using hI.nodup
    refine iff_of_false (fun hclosed => hring (hclosed.imp (fun h => h) (fun h => h) ?_ ?_))
      fun h => h
    · rw [hphase]
      exact List.erase_subset
    · -- only the channel that has got the event is longer
      rintro i hi ⟨data, hdata, hlive, hlength⟩
      have hne : id ≠ i := fun heq => hnodup.not_mem_erase (heq ▸ hi)
      rw [Option.mem_def, SubscriptionManager.getElem?_push] at hdata
      simp only [hne, false_and, ↓reduceIte, Option.map_id'] at hdata
      exact ⟨data, hdata, hlive, hlength⟩

/-- A step that leaves the worker and the channels alone. -/
theorem ring_iff_of_sameHandling {bus : PersistentBus}
    (h : PersistentBus.SameHandling s.bus bus) :
    Ring config { s with bus := bus } ↔
      (s.replay = .holding ∧ ∃ replay ∈ bus.replays, replay.isSending = true) ∧
        bus.QueueFull ∧ s.Stuck config s.bus.worker.sends := by
  have hstuck : Stuck config { s with bus := bus } bus.worker.sends
      ↔ s.Stuck config s.bus.worker.sends := by
    rw [h.worker]
    refine exists_congr fun id => and_congr_right fun _ => and_congr_left fun _ => ?_
    unfold PersistentBus.ChannelFull
    rw [h.manager]
  exact and_congr_right fun _ => and_congr_right fun _ => hstuck

/-- A message is sent while the replay is waiting to send its own. -/
theorem ring_send_iff {bus : PersistentBus} {msg : RedbDispatcherMessage}
    (hsame : PersistentBus.SameHandling s.bus bus)
    (hqueue : s.bus.queue.trySend msg = .ok bus.queue)
    (hsends : (∃ replay ∈ bus.replays, replay.isSending = true) ↔
      ∃ replay ∈ s.bus.replays, replay.isSending = true) :
    Ring config { s with bus := bus } ↔
      s.ReplaySends ∧ s.bus.OnePlace ∧ s.Stuck config s.bus.worker.sends := by
  obtain ⟨haccepts, hpush⟩ := Mpsc.Channel.trySend_eq_ok.mp hqueue
  have hfull : bus.QueueFull ↔ s.bus.OnePlace := by
    rw [← queueFull_push_iff msg haccepts, ← hpush]
    exact Iff.rfl
  rw [ring_iff_of_sameHandling hsame, hsends, hfull]
  exact Iff.rfl

/-- Nobody waits for room in a closed queue. -/
theorem not_ring_of_closed {bus : PersistentBus} (h : bus.queue.receiver = false) :
    ¬ Ring config { s with bus := bus } := by
  rintro ⟨-, ⟨hreceiver, -⟩, -⟩
  exact Bool.false_ne_true (h.symm.trans hreceiver)

theorem ring_scheduler_iff {a : SchedulerAction} {bus : PersistentBus}
    (hring : ¬ s.Ring config) (h : s.bus.stepScheduler json a = some bus) :
    Ring config { s with bus := bus } ↔ s.Closes json config (.bus (.scheduler a)) := by
  have hreplays := PersistentBus.replays_stepScheduler h
  have hsame := (PersistentBus.stepScheduler_frame h).2.1
  have hquiet : bus.queue = s.bus.queue → (Ring config { s with bus := bus } ↔ False) := by
    intro hqueue
    rw [ring_iff_of_sameHandling hsame, hreplays]
    unfold PersistentBus.QueueFull
    rw [hqueue]
    exact iff_of_false hring id
  cases a with
  | wake now =>
    simp only [PersistentBus.stepScheduler, PersistentBus.wake] at h
    repeat' split at h
    all_goals cases h
    all_goals exact hquiet rfl
  | poll commits =>
    simp only [PersistentBus.stepScheduler, PersistentBus.poll] at h
    repeat' split at h
    all_goals cases h
    all_goals exact hquiet rfl
  | fire =>
    simp only [PersistentBus.stepScheduler, PersistentBus.fire] at h
    repeat' split at h
    all_goals cases h
    all_goals exact hquiet rfl
  | orphanPoll index commits =>
    simp only [PersistentBus.stepScheduler, PersistentBus.orphanPoll] at h
    split at h
    · cases commits <;> cases h <;> exact hquiet rfl
    · cases h
  | send =>
    show _ ↔ s.ReplaySends ∧ s.bus.schedulerSends = true ∧ s.bus.OnePlace ∧
      s.Stuck config s.bus.worker.sends
    simp only [PersistentBus.stepScheduler, PersistentBus.schedulerSend] at h
    split at h
    · rename_i envelope rest hphase
      have hsending : s.bus.schedulerSends = true := by simp [PersistentBus.schedulerSends, hphase]
      split at h
      · rename_i queue hqueue
        cases h
        rw [ring_send_iff hsame hqueue Iff.rfl, hsending]
        simp
      · rename_i hqueue
        cases h
        have hclosed := Mpsc.Channel.receiver_of_closed hqueue
        refine iff_of_false (not_ring_of_closed hclosed) fun hclose => ?_
        exact Bool.false_ne_true (hclosed.symm.trans hclose.2.2.1.1)
      · cases h
    · cases h

theorem ring_replay_iff {a : ReplayAction} {bus : PersistentBus} (hI : s.Inv)
    (hring : ¬ s.Ring config) (hpermits : s.permits config (.replay a) = true)
    (h : s.bus.stepReplay json a = some bus) :
    Ring config { s with bus := bus } ↔ s.Closes json config (.bus (.replay a)) := by
  have hsame := (PersistentBus.stepReplay_frame h).2.1
  have hquiet : bus.queue = s.bus.queue →
      ((∃ r ∈ bus.replays, r.isSending = true) → ∃ r ∈ s.bus.replays, r.isSending = true) →
      ¬ Ring config { s with bus := bus } := by
    intro hqueue hsends hclosed
    rw [ring_iff_of_sameHandling hsame] at hclosed
    unfold PersistentBus.QueueFull at hclosed
    rw [hqueue] at hclosed
    exact hring ⟨⟨hclosed.1.1, hsends hclosed.1.2⟩, hclosed.2⟩
  have herase : ∀ index, (∃ r ∈ s.bus.replays.eraseIdx index, r.isSending = true) →
      ∃ r ∈ s.bus.replays, r.isSending = true := by
    rintro index ⟨r, hr, hsending⟩
    exact ⟨r, List.mem_of_mem_eraseIdx hr, hsending⟩
  cases a with
  | pending => cases hpermits
  | visit index =>
    show _ ↔ s.replay = .holding ∧ s.bus.visitsLive json index = true ∧ s.bus.QueueFull ∧
      s.Stuck config s.bus.worker.sends
    simp only [PersistentBus.stepReplay, PersistentBus.replayVisit] at h
    split at h
    · rename_i id bytes refcount rows dead hreplay
      cases h
      rw [ring_iff_of_sameHandling hsame, Replay.sending_set_iff _ hreplay rfl hI.pendings,
        and_assoc]
      refine and_congr_right fun _ => and_congr_left fun _ => ?_
      unfold PersistentBus.visitsLive
      rw [hreplay]
      dsimp only
      cases rowFate json s.bus.manager.registry bytes refcount <;> simp [Replay.isSending]
    · cases h
  | send index =>
    simp only [PersistentBus.stepReplay, PersistentBus.replaySend] at h
    split at h
    · rename_i envelope rows dead hreplay
      -- it was the only one that sends
      have hnone := Replay.sending_set_iff (.pending rows dead) hreplay rfl hI.pendings
      have hnot : ¬ Ring config { s with bus := bus } := by
        rintro ⟨⟨-, hsends⟩, -⟩
        split at h <;> cases h <;> cases hnone.mp hsends
      exact iff_of_false hnot id
    · cases h
  | collect index commits =>
    simp only [PersistentBus.stepReplay, PersistentBus.replayCollect] at h
    split at h <;> cases h
    exact iff_of_false (hquiet rfl (herase index)) id
  | fail index =>
    simp only [PersistentBus.stepReplay, PersistentBus.replayFail] at h
    split at h <;> cases h
    exact iff_of_false (hquiet rfl (herase index)) id
  | dlq =>
    have hfree : s.replay ≠ .holding := of_decide_eq_true hpermits
    exact iff_of_false (fun hclosed => hfree hclosed.1.1) id
  | dlqSend index =>
    show _ ↔ s.ReplaySends ∧ s.bus.dlqSends index = true ∧ s.bus.OnePlace ∧
      s.Stuck config s.bus.worker.sends
    simp only [PersistentBus.stepReplay, PersistentBus.replayDlqSend] at h
    split at h
    · rename_i hreplay
      cases h
      have hover : s.bus.dlqSends index = false := by simp [PersistentBus.dlqSends, hreplay]
      exact iff_of_false (hquiet rfl (herase index)) fun hclose =>
        Bool.false_ne_true (hover.symm.trans hclose.2.1)
    · rename_i persisted rest hreplay
      have hsends : (∃ r ∈ s.bus.replays.set index (.dlq rest), r.isSending = true) ↔
          ∃ r ∈ s.bus.replays, r.isSending = true := by
        have hany : (s.bus.replays.set index (.dlq rest)).any Replay.isSending
            = s.bus.replays.any Replay.isSending := Calls.any_set hreplay rfl
        rw [← List.any_eq_true, ← List.any_eq_true, hany]
      split at h
      · rename_i typeId htype
        have hlive : s.bus.dlqSends index = true := by
          simp [PersistentBus.dlqSends, hreplay, htype]
        split at h
        · rename_i queue hqueue
          cases h
          rw [ring_send_iff hsame hqueue hsends, hlive]
          simp
        · -- the queue is full or closed, and stays what it is
          rename_i e hqueue
          cases h
          refine iff_of_false (hquiet rfl hsends.mp) fun hclose => ?_
          obtain ⟨hreceiver, hplace⟩ := hclose.2.2.1
          rw [Mpsc.Channel.trySend_of_accepts ⟨hreceiver, by omega⟩] at hqueue
          cases hqueue
      · rename_i htype
        cases h
        have hskipped : s.bus.dlqSends index = false := by
          simp [PersistentBus.dlqSends, hreplay, htype]
        exact iff_of_false (hquiet rfl hsends.mp) fun hclose =>
          Bool.false_ne_true (hskipped.symm.trans hclose.2.1)
    · cases h

theorem not_ring_handler {a : HandlerAction} {bus : PersistentBus} (hring : ¬ s.Ring config)
    (hpermits : s.permits config (.handler a) = true) (h : s.bus.stepHandler a = some bus) :
    ¬ Ring config { s with bus := bus } := by
  intro hclosed
  obtain ⟨hqueue, hreplays, -⟩ := PersistentBus.stepHandler_sameInputs h
  have hworker := (PersistentBus.stepHandler_frame h).2.1
  refine hring (hclosed.imp ?_ ?_ ?_ ?_)
  · rw [hreplays]
    exact id
  · unfold PersistentBus.QueueFull
    rw [hqueue]
    exact id
  · rw [hworker]
    exact fun _ hmem => hmem
  · intro id _ hfull
    refine PersistentBus.channelFull_stepHandler h ?_ hfull
    rintro i rfl
    exact of_decide_eq_true hpermits

theorem ring_publish_iff {caller : Option Uuid} {envelope : EventEnvelope}
    (hring : ¬ s.Ring config) :
    Ring config { s with publishes := s.publishes ++ [⟨caller, envelope, .waiting⟩] }
      ↔ s.Closes json config (.publish caller envelope) := by
  set s₁ : GuardedBus := { s with publishes := s.publishes ++ [⟨caller, envelope, .waiting⟩] }
  have hwaits : ∀ id, s₁.HandlerWaits id ↔ s.HandlerWaits id ∨ caller = some id := by
    intro id
    unfold HandlerWaits
    simp only [s₁, List.mem_append, List.mem_singleton, or_and_right, exists_or, exists_eq_left,
      and_true]
  constructor
  · rintro ⟨hsends, hqueue, id, hmem, hfull, hwait⟩
    rcases (hwaits id).mp hwait with hold | rfl
    · exact absurd ⟨hsends, hqueue, id, hmem, hfull, hold⟩ hring
    · exact ⟨hsends, hqueue, hmem, hfull⟩
  · intro hclose
    cases caller with
    | none => exact hclose.elim
    | some id =>
      obtain ⟨hsends, hqueue, hmem, hfull⟩ := hclose
      exact ⟨hsends, hqueue, id, hmem, hfull, (hwaits id).mpr (.inr rfl)⟩

/-- **One step** from a state without a ring makes one exactly when it completes it. -/
theorem ring_step_iff {a : GuardedAction} (hI : s.Inv) (hring : ¬ s.Ring config)
    (h : s.step json config a = some s') : s'.Ring config ↔ s.Closes json config a := by
  -- where the replay does not have the lock there is no ring
  have hfree : s'.replay ≠ .holding → (s'.Ring config ↔ False) := fun hne =>
    iff_of_false (fun hclosed => hne hclosed.1.1) fun h => h
  cases a with
  | bus a =>
    obtain ⟨hpermits, bus, hstep, rfl⟩ := stepBus_eq_some.mp h
    cases a with
    | worker a => exact ring_worker_iff hI hring hstep
    | scheduler a => exact ring_scheduler_iff hring hstep
    | replay a => exact ring_replay_iff hI hring hpermits hstep
    | handler a => exact iff_of_false (not_ring_handler hring hpermits hstep) fun h => h
    | publisher a =>
      cases a with
      | tryDispatch envelope => exact hfree (of_decide_eq_true hpermits)
      | dispatch envelope => cases hpermits
      | returns call => cases hpermits
      | cancel call => cases hpermits
    | control a =>
      have hunlocked : s.replay ≠ .holding := by
        cases a with
        | crash => cases hpermits
        | start | stop | abortScheduler | closeSender | joinWorker =>
          have hboth := (Bool.and_eq_true _ _ ▸ hpermits :)
          exact of_decide_eq_true hboth.1
      exact hfree hunlocked
  | replayPending =>
    simp only [step, replayPending] at h
    split at h <;> cases h
    exact hfree (by simp)
  | replayLock =>
    simp only [step, replayLock] at h
    split at h
    · rename_i hlock
      split at h
      · rename_i bus hbus
        cases h
        -- the blocking task is at its first row
        unfold PersistentBus.replayPending at hbus
        split at hbus <;> cases hbus
        refine iff_of_false ?_ fun h => h
        rintro ⟨⟨-, r, hr, hsending⟩, -⟩
        rcases List.mem_append.mp hr with hold | hnew
        · exact List.countP_eq_zero.mp (hI.noPending (.inr hlock.1)) r hold
            (Replay.isPending_of_isSending hsending)
        · rw [List.mem_singleton.mp hnew] at hsending
          cases hsending
      · cases h
        exact hfree (by simp)
    · cases h
  | replayReturn =>
    simp only [step, replayReturn] at h
    split at h <;> cases h
    exact hfree (by simp)
  | replayDrop =>
    simp only [step, replayDrop] at h
    split at h <;> cases h
    exact hfree (by simp)
  | publish caller envelope =>
    simp only [step, publish] at h
    split at h <;> cases h
    exact ring_publish_iff hring
  | publishLock index =>
    simp only [step, publishLock] at h
    split at h
    · split at h
      · rename_i hlock
        cases h
        exact hfree hlock.2
      · cases h
    · cases h
  | publishSend index =>
    simp only [step, publishSend] at h
    split at h
    · rename_i call hcall
      split at h
      · rename_i hphase
        obtain ⟨bus, -, rfl⟩ := Option.map_eq_some_iff.mp h
        refine hfree ?_
        split <;> exact hI.not_holding hcall (by rw [hphase]; simp)
      · cases h
    · cases h
  | publishConfirm index =>
    simp only [step, publishConfirm] at h
    split at h
    · rename_i hcall
      obtain ⟨bus, -, rfl⟩ := Option.map_eq_some_iff.mp h
      exact hfree (hI.not_holding hcall (by simp))
    · cases h
  | publishDrop index =>
    simp only [step, publishDrop] at h
    split at h
    · rename_i hcall
      obtain ⟨bus, -, rfl⟩ := Option.map_eq_some_iff.mp h
      exact hfree (hI.not_holding hcall (by simp))
    · cases h
      refine iff_of_false (fun hclosed => hring ?_) fun h => h
      refine ⟨hclosed.1, hclosed.2.1, hclosed.2.2.imp (fun _ h => h) (fun _ _ h => h) ?_⟩
      rintro id ⟨call, hmem, hcall⟩
      exact ⟨call, List.mem_of_mem_eraseIdx hmem, hcall⟩
    · cases h

theorem not_ring_boot (json : SerdeJson) (config : BusConfig) (db : Db) :
    ¬ Ring config (boot json config db) := by
  rintro ⟨⟨hholding, -⟩, -⟩
  cases hholding

/-! ## Five pending orders -/

/-- The orders by their ids. -/
def pendingOrder (n : Nat) : PersistedEnvelope :=
  ⟨"OrderEvent", { eventId := BitVec.ofNat 128 n, timestamp := 0 }, .normal, []⟩

def ordersJson : SerdeJson := .ofList ((List.range 6).map pendingOrder)

/-- What an earlier process has left: five orders, each with one subscriber. -/
def fiveOrders : Db :=
  (List.range 5).foldl (fun db n => db.insertRow
    ⟨BitVec.ofNat 128 (n + 1), 1, false, 0, List.replicate (n + 1) 0, none⟩) .empty

/-- A queue and channels with one place each, and no timeout. -/
def onePlace : BusConfig :=
  { maxQueueSize := 1, handlerChannelSize := 1, processingTimeoutMs := 0 }

/-- A queue and channels with five places each. -/
def fivePlaces : BusConfig :=
  { maxQueueSize := 5, handlerChannelSize := 5, processingTimeoutMs := 0 }

/-- The next order is replayed and goes to the worker, which hands it to the handler. -/
def replayed : List GuardedAction :=
  [.bus (.replay (.visit 0)), .bus (.replay (.send 0)), .bus (.worker .recv),
    .bus (.worker (.check fun _ => true)), .bus (.worker (.count 0)),
    .bus (.worker (.write noFaults)), .bus (.worker (.deliver 0))]

/-- The worker hands it over. -/
def handedOver : List GuardedAction :=
  [.bus (.worker (.push 0)), .bus (.worker .dispatched), .bus (.worker (.deliver 0))]

/-- A subscription is made, and the replay begins; its first order is processed, and the
    handler publishes an order of its own. -/
def handlerPublishes : List GuardedAction :=
  (PersistentBus.crowdArrives 1).map .bus ++ [.replayPending, .replayLock] ++ replayed ++
    handedOver ++ [.bus (.handler (.take 0)), .publish (some 0) ((pendingOrder 0).envelope 1)]

/-- The second order waits for the handler, the third is with the worker, the fourth is in
    the queue, and there is no room for the fifth. -/
def replayGoesOn : List GuardedAction :=
  replayed ++ handedOver ++ replayed ++ [.bus (.replay (.visit 0)), .bus (.replay (.send 0)),
    .bus (.replay (.visit 0))]

/-- **When a replay cannot deadlock the bus.** For every database, queue size, channel size
    and timeout, and in every run with one call of `replay_pending`: no state of the run has
    the ring of waits exactly when no step of the run completes it. -/
theorem neverRing_iff {db : Db} {as : List GuardedAction}
    (h : exec json config (boot json config db) as = some s') :
    Transition.Throughout (step json config) (fun s => ¬ s.Ring config) (boot json config db) as ↔
      Transition.Along (step json config) (fun s a => ¬ s.Closes json config a)
        (boot json config db) as :=
  Transition.throughout_iff_along (I := Inv) (P := fun s => ¬ s.Ring config)
    (C := fun s a => ¬ s.Closes json config a) (fun _ _ _ hI hstep => hI.step hstep)
    (fun _ _ _ hI hring hstep => not_congr (ring_step_iff hI hring hstep)) (inv_boot _ _ _)
    (not_ring_boot json config db) h

/-- With room for all the orders the same steps make no ring. -/
theorem neverRing_iff_fiveOrders :
    Transition.Throughout (step ordersJson fivePlaces) (fun s => ¬ s.Ring fivePlaces)
      (boot ordersJson fivePlaces fiveOrders) (handlerPublishes ++ replayGoesOn) := by
  obtain ⟨s', h⟩ : ∃ s', exec ordersJson fivePlaces (boot ordersJson fivePlaces fiveOrders)
      (handlerPublishes ++ replayGoesOn) = some s' :=
    Option.isSome_iff_exists.mp (by decide +kernel)
  exact (neverRing_iff h).mpr (by decide +kernel)

/-- With one place they end in a ring. -/
theorem ring_fiveOrders : ∃ s', exec ordersJson onePlace (boot ordersJson onePlace fiveOrders)
      (handlerPublishes ++ replayGoesOn) = some s' ∧ s'.Ring onePlace ∧
    ¬ Transition.Throughout (step ordersJson onePlace) (fun s => ¬ s.Ring onePlace)
      (boot ordersJson onePlace fiveOrders) (handlerPublishes ++ replayGoesOn) := by
  have hring : (exec ordersJson onePlace (boot ordersJson onePlace fiveOrders)
      (handlerPublishes ++ replayGoesOn)).any (fun s => decide (s.Ring onePlace)) = true := by
    decide +kernel
  obtain ⟨s', h, hclosed⟩ := (Option.any_eq_true _ _).mp hring
  refine ⟨s', h, of_decide_eq_true hclosed, fun hnever => ?_⟩
  exact hnever.last h (of_decide_eq_true hclosed)

end GuardedBus
end TokioEvents
