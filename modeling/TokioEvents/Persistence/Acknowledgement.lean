/-
  TokioEvents.Persistence.Acknowledgement

  What `Ok(())` of `dispatch` says when `wait_for_persistence` is set.  The call waits
  for its oneshot and ignores how the wait ends, so it returns `Ok(())` when the worker
  fires the sender half and also when the worker drops it.

  The worker fires it after a write that failed, and drops it when the blocking task or
  user code in the worker panics.  As long as no waiting call is affected by either,
  `Ok(())` means what it promises: the row of the event has been committed.
-/

import TokioEvents.Persistence.Bus.Effects
import TokioEvents.Persistence.WriteAhead

namespace TokioEvents

/-- The messages whose write step is still to come, less those that need no row. -/
def Worker.unwritten : Worker → List RedbDispatcherMessage
  | .draining batch => batch
  | .counting done rest =>
    (done.filter fun counted => decide (0 < counted.subCount)).map (·.msg) ++ rest
  | _ => []

namespace PersistentBus

variable {json : SerdeJson} {config : BusConfig} {s s' : PersistentBus} {call : Nat}

/-- `Ok(())` is true of the call: its event was a duplicate, had no counted subscriber,
    or has had its row committed. -/
def Settled (s : PersistentBus) (call : Nat) : Prop :=
  call ∈ s.history.discarded ∨ call ∈ s.history.uncounted ∨ call ∈ s.history.persisted

/-- No waiting call is let down: a write step that concerns one serializes its event and
    commits, and a panic in the worker takes no message of one with it. -/
def LetsNobodyDown (json : SerdeJson) (s : PersistentBus) : Action → Prop
  | .worker (.write faults) => ∀ done, s.worker = .counting done [] →
    ∀ counted ∈ done, 0 < counted.subCount → ∀ call ∈ s.waiting,
      counted.msg.ackTx = some call →
        counted.Serializes json ∧ TxnSucceeds faults (rowsOf json done)
  | .worker .panic => ∀ msg ∈ s.queue.buffer ++ s.worker.unwritten, ∀ call ∈ s.waiting,
    msg.ackTx ≠ some call
  | _ => True

/-- The calls whose message left a row are those of the rows that were written. -/
theorem mem_persistedCalls {done : List Counted} :
    call ∈ persistedCalls json done
      ↔ ∃ counted ∈ done, counted.msg.ackTx = some call ∧
          ∃ row ∈ rowsOf json done, counted.row json = some row := by
  unfold persistedCalls rowsOf
  simp only [List.mem_filterMap, List.mem_filter, Option.isSome_iff_exists]
  constructor
  · rintro ⟨counted, ⟨hmem, row, hrow⟩, hcall⟩
    exact ⟨counted, hmem, hcall, row, ⟨counted, hmem, hrow⟩, hrow⟩
  · rintro ⟨counted, hmem, hcall, row, -, hrow⟩
    exact ⟨counted, ⟨hmem, row, hrow⟩, hcall⟩

/-- **What `persisted` records.** A call is added to it only by a step that commits the
    row of its event. -/
theorem step_persisted {a : Action} (h : step json config s a = some s')
    (hnew : call ∈ s'.history.persisted) :
    call ∈ s.history.persisted ∨
      ∃ done, s'.db = s.db.insertRows (rowsOf json done) ∧
        ∃ counted ∈ done, counted.msg.ackTx = some call ∧
          ∃ row ∈ rowsOf json done, counted.row json = some row := by
  cases a with
  | publisher a => exact .inl ((stepPublisher_frame h).2.history ▸ hnew)
  | worker a =>
    obtain ⟨-, ⟨-, -, hsame⟩ | ⟨done, hdb, -, hgrows⟩⟩ := stepWorker_db h
    · exact .inl (hsame ▸ hnew)
    · rw [hgrows] at hnew
      exact (List.mem_append.mp hnew).imp_right fun hmem =>
        ⟨done, hdb, mem_persistedCalls.mp hmem⟩
  | scheduler a => exact .inl ((stepScheduler_frame h).2.1.history ▸ hnew)
  | handler a => exact .inl ((stepHandler_frame h).2.2.1 ▸ hnew)
  | replay a => exact .inl ((stepReplay_frame h).2.1.history ▸ hnew)
  | control a => exact .inl ((stepControl_frame h).2 ▸ hnew)

/-! ## The invariant -/

/-- What holds of the publishers' calls in every state of a run. -/
structure Sound (s : PersistentBus) : Prop where
  running : s.waiting ≠ [] → s.isRunning = true ∧ s.exclusive = false
  freshMessages : ∀ msg ∈ s.messages, ∀ call, msg.ackTx = some call → call < s.nextCall
  freshSignalled : ∀ call ∈ s.signalled, call < s.nextCall
  /-- The oneshot of a waiting call that is not settled has not been dropped. -/
  held : ∀ call ∈ s.waiting, s.Settled call ∨ s.Holds call
  signalled : ∀ call ∈ s.waiting, call ∈ s.signalled → s.Settled call
  returned : ∀ call, (call, .ok ()) ∈ s.returned → s.Settled call
  counted : ∀ done rest, s.worker = .counting done rest → ∀ counted ∈ done, ∀ call,
    counted.msg.ackTx = some call → counted.subCount = 0 → call ∈ s.history.uncounted
  written : ∀ msg ∈ s.worker.written, ∀ call ∈ s.waiting, msg.ackTx = some call →
    s.Settled call

theorem sound_boot (db : Db) : (boot json config db).Sound where
  running h := absurd rfl h
  freshMessages := by simp [boot, messages, Mpsc.Channel.new, Worker.messages]
  freshSignalled := by simp [boot]
  held := by simp [boot]
  signalled := by simp [boot]
  returned := by simp [boot]
  counted := by simp [boot]
  written := by simp [boot]

/-- **The frame of the invariant.** It survives a step that sends no message of a
    publisher and starts no call, if what the step fires, drops and returns is settled. -/
theorem Sound.of_frame (h : s.Sound) (hwaiting : s'.waiting ⊆ s.waiting)
    (hrunning : s'.waiting ≠ [] → s'.isRunning = true ∧ s'.exclusive = false)
    (hnext : s.nextCall ≤ s'.nextCall) (hsettled : ∀ call, s.Settled call → s'.Settled call)
    (hmessages : ∀ msg ∈ s'.messages, msg ∈ s.messages ∨ msg.ackTx = none)
    (hdropped : ∀ msg ∈ s.messages, msg ∈ s'.messages ∨
      ∀ call ∈ s'.waiting, msg.ackTx = some call → s'.Settled call)
    (hfired : ∀ call ∈ s'.signalled, call ∈ s.signalled ∨
      call < s.nextCall ∧ (call ∈ s'.waiting → s'.Settled call))
    (hreturned : ∀ call, (call, .ok ()) ∈ s'.returned → s'.Settled call)
    (hcounted : ∀ done rest, s'.worker = .counting done rest → ∀ counted ∈ done, ∀ call,
      counted.msg.ackTx = some call → counted.subCount = 0 → call ∈ s'.history.uncounted)
    (hwritten : ∀ msg ∈ s'.worker.written, ∀ call ∈ s'.waiting, msg.ackTx = some call →
      s'.Settled call) : s'.Sound where
  running := hrunning
  freshMessages msg hmem call hcall := by
    rcases hmessages msg hmem with hold | hnone
    · exact (h.freshMessages msg hold call hcall).trans_le hnext
    · rw [hnone] at hcall
      cases hcall
  freshSignalled call hmem := by
    rcases hfired call hmem with hold | ⟨hlt, -⟩
    · exact (h.freshSignalled call hold).trans_le hnext
    · exact hlt.trans_le hnext
  held call hmem := by
    rcases h.held call (hwaiting hmem) with hset | ⟨msg, hheld, hcall⟩
    · exact .inl (hsettled call hset)
    · rcases hdropped msg hheld with hstill | hset
      · exact .inr ⟨msg, hstill, hcall⟩
      · exact .inl (hset call hmem hcall)
  signalled call hmem hsig := by
    rcases hfired call hsig with hold | ⟨-, hset⟩
    · exact hsettled call (h.signalled call (hwaiting hmem) hold)
    · exact hset hmem
  returned := hreturned
  counted := hcounted
  written := hwritten

/-- A step that leaves the worker, its history and the calls alone. -/
theorem Sound.of_sameCalls (h : s.Sound) (hworker : s'.worker = s.worker)
    (hhistory : s'.history = s.history) (hcalls : SameCalls s s') : s'.Sound := by
  obtain ⟨injected, hqueue, hinjected⟩ := hcalls.queue
  have hsettled : ∀ call, s'.Settled call ↔ s.Settled call := by
    intro call
    unfold Settled
    rw [hhistory]
  have hmessages : ∀ msg, msg ∈ s'.messages ↔ msg ∈ s.messages ∨ msg ∈ injected := by
    intro msg
    simp only [messages, hqueue, hworker, List.mem_append]
    tauto
  refine h.of_frame ?_ ?_ hcalls.nextCall.ge (fun call => (hsettled call).mpr) ?_ ?_ ?_ ?_ ?_ ?_
  · rw [hcalls.waiting]
    exact List.Subset.refl _
  · rw [hcalls.waiting, hcalls.isRunning, hcalls.exclusive]
    exact h.running
  · exact fun msg hmem => ((hmessages msg).mp hmem).imp_right (hinjected msg)
  · exact fun msg hmem => .inl ((hmessages msg).mpr (.inl hmem))
  · rw [hcalls.signalled]
    exact fun call hmem => .inl hmem
  · rw [hcalls.returned]
    exact fun call hmem => (hsettled call).mpr (h.returned call hmem)
  · rw [hworker, hhistory]
    exact h.counted
  · rw [hworker, hcalls.waiting]
    exact fun msg hmem call hcall hack => (hsettled call).mpr (h.written msg hmem call hcall hack)

/-- With no call waiting, a step may drop whatever it likes. -/
theorem Sound.of_no_waiting (h : s.Sound) (hwaiting : s'.waiting = [])
    (hnext : s'.nextCall = s.nextCall) (hmessages : s'.messages ⊆ s.messages)
    (hsignalled : s'.signalled ⊆ s.signalled) (hreturned : s'.returned = s.returned)
    (hhistory : s'.history = s.history)
    (hworker : ∀ done rest, s'.worker ≠ .counting done rest) : s'.Sound := by
  have hsettled : ∀ call, s.Settled call → s'.Settled call := by
    intro call hset
    unfold Settled
    rw [hhistory]
    exact hset
  refine h.of_frame (by simp [hwaiting]) (by simp [hwaiting]) hnext.ge hsettled
    (fun msg hmem => .inl (hmessages hmem)) (by simp [hwaiting])
    (fun call hmem => .inl (hsignalled hmem)) ?_ ?_ (by simp [hwaiting])
  · rw [hreturned]
    exact fun call hmem => hsettled call (h.returned call hmem)
  · exact fun done rest hphase => absurd hphase (hworker done rest)

/-! ## Publishers -/

theorem tryDispatch_sameCalls {envelope : EventEnvelope} (h : s.tryDispatch envelope = some s') :
    SameCalls s s' := by
  simp only [tryDispatch] at h
  repeat' split at h
  all_goals cases h
  · exact .of_queue_eq rfl rfl rfl rfl rfl rfl rfl
  · exact (frame_send s.scheduler s.replays ‹_›).2
  · exact .of_queue_eq rfl rfl rfl rfl rfl rfl rfl

/-- A call that fails at once returns an error. -/
theorem Sound.finish_error (h : s.Sound) (error : Error) :
    ({ s with nextCall := s.nextCall + 1 }.finish s.nextCall (.error error)).Sound := by
  refine h.of_frame (List.Subset.refl _) h.running (Nat.le_succ _) (fun _ => id)
    (fun _ => .inl) (fun _ => .inl) (fun _ => .inl) (fun call hmem => ?_) h.counted h.written
  rcases List.mem_append.mp hmem with hold | hnew
  · exact h.returned call hold
  · simp at hnew

/-- A call whose message has been queued waits, and its name is new. -/
theorem Sound.enqueue (h : s.Sound) {envelope : EventEnvelope} (hrunning : s.isRunning = true)
    (hexclusive : s.exclusive = false) :
    { s with
      nextCall := s.nextCall + 1
      queue := s.queue.push ⟨envelope, some s.nextCall⟩
      waiting := s.waiting ++ [s.nextCall] }.Sound := by
  have hmessages : ∀ msg, msg ∈ { s with
        nextCall := s.nextCall + 1
        queue := s.queue.push ⟨envelope, some s.nextCall⟩
        waiting := s.waiting ++ [s.nextCall] }.messages
      ↔ msg ∈ s.messages ∨ msg = ⟨envelope, some s.nextCall⟩ := by
    intro msg
    simp only [messages, Mpsc.Channel.push_buffer, List.mem_append, List.mem_singleton]
    tauto
  constructor
  · exact fun _ => ⟨hrunning, hexclusive⟩
  · -- the new message carries the name that was next
    intro msg hmem call hcall
    rcases (hmessages msg).mp hmem with hold | rfl
    · exact (h.freshMessages msg hold call hcall).trans (Nat.lt_succ_self _)
    · cases hcall
      exact Nat.lt_succ_self _
  · exact fun call hmem => (h.freshSignalled call hmem).trans (Nat.lt_succ_self _)
  · -- its oneshot is held by the message just queued
    intro call hmem
    rcases List.mem_append.mp hmem with hold | hnew
    · refine (h.held call hold).imp_right ?_
      rintro ⟨msg, hheld, hcall⟩
      exact ⟨msg, (hmessages msg).mpr (.inl hheld), hcall⟩
    · rw [List.mem_singleton.mp hnew]
      exact .inr ⟨_, (hmessages _).mpr (.inr rfl), rfl⟩
  · -- nothing can have fired it before
    intro call hmem hsig
    rcases List.mem_append.mp hmem with hold | hnew
    · exact h.signalled call hold hsig
    · have hlt := h.freshSignalled call hsig
      rw [List.mem_singleton.mp hnew] at hlt
      exact absurd hlt (Nat.lt_irrefl _)
  · exact h.returned
  · exact h.counted
  · -- and no message the worker has can carry it
    intro msg hmem call hcall hack
    rcases List.mem_append.mp hcall with hold | hnew
    · exact h.written msg hmem call hold hack
    · have hworker : msg ∈ s.worker.messages := by
        cases hphase : s.worker <;> simp_all [Worker.written, Worker.messages]
      have hlt := h.freshMessages msg (List.mem_append_right _ hworker) call hack
      rw [List.mem_singleton.mp hnew] at hlt
      exact absurd hlt (Nat.lt_irrefl _)

theorem Sound.stepPublisher {a : PublisherAction} (hI : s.Sound)
    (hwait : config.waitForPersistence = true) (h : s.stepPublisher config a = some s') :
    s'.Sound := by
  cases a with
  | dispatch envelope =>
    simp only [PersistentBus.stepPublisher, dispatch, hwait, ↓reduceIte] at h
    repeat' split at h
    all_goals cases h
    -- not running, or no sender
    · exact hI.finish_error _
    · exact hI.finish_error _
    -- queued
    · rename_i hsend
      rw [(Mpsc.Channel.trySend_eq_ok.mp hsend).2]
      exact hI.enqueue (by simp_all) (by simp_all)
    -- full, or closed
    · exact hI.finish_error _
    · exact hI.finish_error _
    · exact hI.finish_error _
  | tryDispatch envelope =>
    obtain ⟨-, hsame⟩ := stepPublisher_frame h
    exact hI.of_sameCalls hsame.worker hsame.history (tryDispatch_sameCalls h)
  | returns call =>
    simp only [PersistentBus.stepPublisher, returns] at h
    split at h
    · rename_i hcall
      cases h
      refine hI.of_frame List.filter_sublist.subset (fun hne => hI.running ?_) le_rfl
        (fun _ => id) (fun _ => .inl) (fun _ => .inl) (fun _ => .inl) (fun call' hmem => ?_)
        hI.counted fun msg hmem call' hcall' => hI.written msg hmem call' ?_
      · exact List.ne_nil_of_mem hcall.1
      · rcases List.mem_append.mp hmem with hold | hnew
        · exact hI.returned call' hold
        · obtain ⟨rfl, -⟩ := Prod.mk.inj (List.mem_singleton.mp hnew)
          -- the wait is over because the oneshot was fired, or because it was dropped
          rcases hcall.2 with hsig | hgone
          · exact hI.signalled call' hcall.1 hsig
          · exact (hI.held call' hcall.1).resolve_right hgone
      · exact (List.mem_filter.mp hcall').1
    · cases h
  | cancel call =>
    simp only [PersistentBus.stepPublisher, cancel] at h
    split at h
    · rename_i hcall
      cases h
      refine hI.of_frame List.filter_sublist.subset (fun hne => hI.running ?_) le_rfl
        (fun _ => id) (fun _ => .inl) (fun _ => .inl) (fun _ => .inl) hI.returned
        hI.counted fun msg hmem call' hcall' => hI.written msg hmem call' ?_
      · exact List.ne_nil_of_mem hcall
      · exact (List.mem_filter.mp hcall').1
    · cases h

/-! ## The worker -/

/-- What a write step does for a message of a waiting call, if it lets nobody down: the
    message needs no row, or it is among those whose row has been committed. -/
theorem uncounted_or_persisted {faults : RedbCall → Option Fault} {done : List Counted}
    {counted : Counted} (hI : s.Sound) (hphase : s.worker = .counting done [])
    (hC : s.LetsNobodyDown json (.worker (.write faults))) (hmem : counted ∈ done)
    (hcall : call ∈ s.waiting) (hack : counted.msg.ackTx = some call) :
    call ∈ s.history.uncounted ∨
      (writeResult json faults done = .committed ∧ call ∈ persistedCalls json done) := by
  rcases Nat.eq_zero_or_pos counted.subCount with hzero | hpos
  · exact .inl (hI.counted done [] hphase counted hmem call hack hzero)
  · right
    obtain ⟨hser, htxn⟩ := hC done hphase counted hmem hpos call hcall hack
    obtain ⟨row, hrow⟩ := Counted.exists_row_iff.mpr ⟨hpos, hser⟩
    have hrows : row ∈ rowsOf json done := List.mem_filterMap.mpr ⟨counted, hmem, hrow⟩
    refine ⟨?_, mem_persistedCalls.mpr ⟨counted, hmem, hack, row, hrows, hrow⟩⟩
    unfold writeResult
    rw [if_neg (by simpa using List.ne_nil_of_mem hrows)]
    exact writeOutcome_eq_committed.mpr htxn

theorem Sound.write {faults : RedbCall → Option Fault} (hI : s.Sound)
    (hC : s.LetsNobodyDown json (.worker (.write faults)))
    (h : s.write json faults = some s') : s'.Sound := by
  obtain ⟨done, hphase, hcases⟩ := write_cases h
  have hmessages : ∀ msg, msg ∈ s.messages ↔ msg ∈ s.queue.buffer ++ done.map (·.msg) := by
    simp [messages, hphase, Worker.messages]
  have hwrite : ∀ msg ∈ done.map (·.msg), ∀ call ∈ s.waiting, msg.ackTx = some call →
      call ∈ s.history.uncounted ∨
        (writeResult json faults done = .committed ∧ call ∈ persistedCalls json done) := by
    intro msg hmem call hcall hack
    obtain ⟨counted, hcounted, rfl⟩ := List.mem_map.mp hmem
    exact uncounted_or_persisted hI hphase hC hcounted hcall hack
  obtain ⟨-, rfl⟩ | ⟨error, hfailed, rfl⟩ | ⟨hpanicked, rfl⟩ := hcases
  · -- committed: the rows of the batch are there
    refine hI.of_frame (List.Subset.refl _) hI.running le_rfl
      (fun _ => Or.imp_right (Or.imp_right (List.mem_append_left _)))
      (fun msg hmem => .inl ((hmessages msg).mpr hmem))
      (fun msg hmem => .inl ((hmessages msg).mp hmem))
      (fun _ => .inl)
      (fun call hmem => (hI.returned call hmem).imp_right (Or.imp_right (List.mem_append_left _)))
      (by simp) ?_
    intro msg hmem call hcall hack
    rcases hwrite msg hmem call hcall hack with huncounted | ⟨-, hpersisted⟩
    · exact .inr (.inl huncounted)
    · exact .inr (.inr (List.mem_append_right _ hpersisted))
  · -- failed: the loop goes on, so no message of the batch may need a row
    refine hI.of_frame (List.Subset.refl _) hI.running le_rfl (fun _ => id)
      (fun msg hmem => .inl ((hmessages msg).mpr hmem))
      (fun msg hmem => .inl ((hmessages msg).mp hmem))
      (fun _ => .inl) hI.returned (by simp) ?_
    intro msg hmem call hcall hack
    rcases hwrite msg hmem call hcall hack with huncounted | ⟨hok, -⟩
    · exact .inr (.inl huncounted)
    · cases hok.symm.trans hfailed
  · -- panicked: the batch is dropped, and with it the oneshots of its messages
    refine hI.of_frame (List.Subset.refl _) hI.running le_rfl (fun _ => id) ?_ ?_ (fun _ => .inl)
      hI.returned (by simp) (by simp [Worker.written])
    · intro msg hmem
      have hqueue : msg ∈ s.queue.buffer := by simpa [messages, Worker.messages] using hmem
      exact .inl (List.mem_append_left _ hqueue)
    · intro msg hmem
      rcases List.mem_append.mp ((hmessages msg).mp hmem) with hqueue | hdone
      · exact .inl (List.mem_append_left _ hqueue)
      · right
        intro call hcall hack
        rcases hwrite msg hdone call hcall hack with huncounted | ⟨hok, -⟩
        · exact .inr (.inl huncounted)
        · cases hok.symm.trans hpanicked

/-- The receiver goes, and with it what the worker had and what was queued. -/
theorem Sound.stopWorker (hI : s.Sound)
    (hdropped : ∀ msg ∈ s.messages, ∀ call ∈ s.waiting, msg.ackTx = some call → s.Settled call) :
    s.stopWorker.Sound := by
  have hempty : s.stopWorker.messages = [] := rfl
  refine hI.of_frame (List.Subset.refl _) hI.running le_rfl (fun _ => id) ?_ ?_ (fun _ => .inl)
    hI.returned ?_ ?_
  · simp [hempty]
  · exact fun msg hmem => .inr (hdropped msg hmem)
  · simp [PersistentBus.stopWorker]
  · simp [PersistentBus.stopWorker, Worker.written]

theorem Sound.recv (hI : s.Sound) (h : s.recv = some s') : s'.Sound := by
  obtain ⟨hphase, ⟨msg, rest, hqueue, rfl⟩ | ⟨hstops, rfl⟩⟩ := recv_cases h
  · have hmessages : ∀ msg', msg' ∈ s.messages ↔ msg' ∈ rest ++ [msg] := by
      simp [messages, hphase, hqueue, Worker.messages, or_comm]
    exact hI.of_frame (List.Subset.refl _) hI.running le_rfl (fun _ => id)
      (fun msg' hmem => .inl ((hmessages msg').mpr hmem))
      (fun msg' hmem => .inl ((hmessages msg').mp hmem)) (fun _ => .inl) hI.returned (by simp)
      (by simp [Worker.written])
  · refine hI.stopWorker fun msg hmem call hcall _ => ?_
    rcases hstops with hstopped | hqueue
    · -- a stopped dispatcher has no call waiting
      exact absurd (hI.running (List.ne_nil_of_mem hcall)).1 (by simp [hstopped])
    · -- the last sender is gone and the queue is empty
      simp [messages, hphase, hqueue, Worker.messages] at hmem

theorem Sound.tryRecv (hI : s.Sound) (h : s.tryRecv = some s') : s'.Sound := by
  obtain ⟨batch, msg, rest, hphase, hqueue, rfl⟩ := tryRecv_cases h
  have hmessages : ∀ msg', msg' ∈ s.messages ↔ msg' ∈ rest ++ (batch ++ [msg]) := by
    intro msg'
    simp only [messages, hphase, hqueue, Worker.messages, List.mem_append, List.mem_cons,
      List.not_mem_nil, or_false]
    tauto
  exact hI.of_frame (List.Subset.refl _) hI.running le_rfl (fun _ => id)
    (fun msg' hmem => .inl ((hmessages msg').mpr hmem))
    (fun msg' hmem => .inl ((hmessages msg').mp hmem)) (fun _ => .inl) hI.returned (by simp)
    (by simp [Worker.written])

/-- The duplicate check fires the oneshot of what it discards, and records it. -/
theorem Sound.check {reads : String → Bool} (hI : s.Sound) (h : s.check reads = some s') :
    s'.Sound := by
  obtain ⟨batch, checked, hphase, hchecked, rfl⟩ := check_cases h
  have hsplit : ∀ msg, msg ∈ checked.valid ∨ msg ∈ checked.duplicates ↔ msg ∈ batch := by
    rw [hchecked]
    exact fun msg => DupCheck.mem_valid_or_mem_duplicates _ _
  have hbatch : ∀ msg, msg ∈ s.messages ↔ msg ∈ s.queue.buffer ∨ msg ∈ batch := by
    simp [messages, hphase, Worker.messages]
  refine hI.of_frame (List.Subset.refl _) hI.running le_rfl
    (fun _ => Or.imp_left (List.mem_append_left _)) ?_ ?_ ?_
    (fun call hmem => (hI.returned call hmem).imp_left (List.mem_append_left _))
    (by simp) (by simp [Worker.written])
  · intro msg hmem
    refine .inl ((hbatch msg).mpr ((List.mem_append.mp hmem).imp_right fun hvalid => ?_))
    exact (hsplit msg).mp (.inl hvalid)
  · intro msg hmem
    rcases (hbatch msg).mp hmem with hqueue | hin
    · exact .inl (List.mem_append_left _ hqueue)
    · rcases (hsplit msg).mpr hin with hvalid | hdup
      · exact .inl (List.mem_append_right _ hvalid)
      · refine .inr fun call hcall hack => .inl (List.mem_append_right _ ?_)
        exact List.mem_filterMap.mpr ⟨msg, hdup, hack⟩
  · -- what is fired belongs to a duplicate
    intro call hmem
    rcases List.mem_append.mp hmem with hold | hnew
    · exact .inl hold
    · obtain ⟨msg, hdup, hack⟩ := List.mem_filterMap.mp hnew
      have hin := (hsplit msg).mp (.inr hdup)
      exact .inr ⟨hI.freshMessages msg ((hbatch msg).mpr (.inr hin)) call hack,
        fun _ => .inl (List.mem_append_right _ hnew)⟩

theorem Sound.count {now : DateTime} (hI : s.Sound) (h : s.count config now = some s') :
    s'.Sound := by
  obtain ⟨done, msg, rest, n, hphase, -, rfl⟩ := count_cases h
  have hgrows : s.history.uncounted ⊆
      if n = 0 then s.history.uncounted ++ msg.ackTx.toList else s.history.uncounted := by
    split
    · exact List.subset_append_left _ _
    · exact List.Subset.refl _
  have hmessages : ∀ msg', msg' ∈ s.messages ↔
      msg' ∈ s.queue.buffer ++ ((done ++ [(⟨msg, n, now⟩ : Counted)]).map (·.msg) ++ rest) := by
    simp [messages, hphase, Worker.messages]
  refine hI.of_frame (List.Subset.refl _) hI.running le_rfl
    (fun _ => Or.imp_right (Or.imp_left (@hgrows _)))
    (fun msg' hmem => .inl ((hmessages msg').mpr hmem))
    (fun msg' hmem => .inl ((hmessages msg').mp hmem)) (fun _ => .inl)
    (fun call hmem => (hI.returned call hmem).imp_right (Or.imp_left (@hgrows _)))
    ?_ (by simp [Worker.written])
  -- a message counted without a subscriber is recorded in the same step
  rintro done' rest' ⟨⟩ counted hmem call hack hzero
  rcases List.mem_append.mp hmem with hold | hnew
  · exact hgrows (hI.counted done _ hphase counted hold call hack hzero)
  · obtain rfl := List.mem_singleton.mp hnew
    have hnone : n = 0 := hzero
    have hcall : msg.ackTx = some call := hack
    simp [hnone, hcall]

/-- The dispatch loop fires the oneshots of messages that are settled. -/
theorem Sound.deliver {now : DateTime} (hI : s.Sound) (h : s.deliver now = some s') :
    s'.Sound := by
  obtain ⟨hphase, rfl⟩ | ⟨msg, rest, hphase, hcases⟩ := deliver_cases h
  · have hmessages : ∀ msg, msg ∈ s.messages ↔ msg ∈ s.queue.buffer ++ [] := by
      simp [messages, hphase, Worker.messages]
    exact hI.of_frame (List.Subset.refl _) hI.running le_rfl (fun _ => id)
      (fun msg hmem => .inl ((hmessages msg).mpr hmem))
      (fun msg hmem => .inl ((hmessages msg).mp hmem)) (fun _ => .inl) hI.returned (by simp)
      (by simp [Worker.written])
  · have hmessages : ∀ msg', msg' ∈ s.messages ↔ msg' = msg ∨ msg' ∈ s.queue.buffer ++ rest := by
      intro msg'
      simp only [messages, hphase, Worker.messages, List.mem_append, List.mem_cons]
      tauto
    have hwritten : ∀ msg' ∈ msg :: rest, ∀ call ∈ s.waiting, msg'.ackTx = some call →
        s.Settled call := by
      intro msg' hmem
      exact hI.written msg' (by simpa [hphase, Worker.written] using hmem)
    have hfired : ∀ call ∈ s.signalled ++ msg.ackTx.toList, call ∈ s.signalled ∨
        call < s.nextCall ∧ (call ∈ s.waiting → s.Settled call) := by
      intro call hmem
      rcases List.mem_append.mp hmem with hold | hnew
      · exact .inl hold
      · have hack : msg.ackTx = some call := by simpa using hnew
        exact .inr ⟨hI.freshMessages msg ((hmessages msg).mpr (.inl rfl)) call hack,
          fun hcall => hwritten msg (List.mem_cons_self ..) call hcall hack⟩
    have hdropped : ∀ msg' ∈ s.messages, msg' ∈ s.queue.buffer ++ rest ∨
        ∀ call ∈ s.waiting, msg'.ackTx = some call → s.Settled call := by
      intro msg' hmem
      rcases (hmessages msg').mp hmem with rfl | hrest
      · exact .inr (hwritten msg' (List.mem_cons_self ..))
      · exact .inl hrest
    -- scheduled or handed on, the message is done with
    rcases hcases with ⟨-, rfl⟩ | ⟨-, rfl⟩
    all_goals
      exact hI.of_frame (List.Subset.refl _) hI.running le_rfl (fun _ => id)
        (fun msg' hmem => .inl ((hmessages msg').mpr (.inr hmem))) hdropped hfired hI.returned
        (by simp) (fun msg' hmem => hwritten msg' (List.mem_cons_of_mem _ hmem))

/-- A step inside `dispatch` leaves the messages after the current one alone. -/
theorem Sound.dispatching {envelope : EventEnvelope} {sends : List Uuid}
    {rest : List RedbDispatcherMessage} (hI : s.Sound)
    (hphase : s.worker = .dispatching envelope sends rest) {worker : Worker}
    (hmessages : worker.messages = rest) (hwritten : worker.written = rest)
    (hcounting : ∀ done rest, worker ≠ .counting done rest)
    (manager : SubscriptionManager RedbRegistry) (closed : DashMap Uuid (List EventEnvelope)) :
    { s with worker := worker, manager := manager, closed := closed }.Sound := by
  have hsame : ∀ msg, msg ∈ s.messages ↔ msg ∈ s.queue.buffer ++ worker.messages := by
    rw [hmessages]
    simp [messages, hphase, Worker.messages]
  refine hI.of_frame (List.Subset.refl _) hI.running le_rfl (fun _ => id)
    (fun msg hmem => .inl ((hsame msg).mpr hmem)) (fun msg hmem => .inl ((hsame msg).mp hmem))
    (fun _ => .inl) hI.returned (fun done rest h => absurd h (hcounting done rest)) ?_
  intro msg hmem
  refine hI.written msg ?_
  rw [hphase]
  exact hwritten ▸ hmem

theorem Sound.workerPanic (hI : s.Sound) (hC : s.LetsNobodyDown json (.worker .panic))
    (h : s.workerPanic = some s') : s'.Sound := by
  have hlost : ∀ msg ∈ s.queue.buffer ++ s.worker.unwritten, ∀ call ∈ s.waiting,
      msg.ackTx ≠ some call := hC
  obtain ⟨⟨done, rest, hphase⟩ | ⟨envelope, sends, rest, hphase⟩, rfl⟩ := workerPanic_cases h
  · rw [hphase] at hlost
    -- a panic while the batch is counted: nothing of it has been written
    refine hI.stopWorker fun msg hmem call hcall hack => ?_
    simp only [messages, hphase, Worker.messages, List.mem_append, List.mem_map] at hmem
    rcases hmem with hqueue | ⟨counted, hdone, rfl⟩ | hrest
    · exact absurd hack (hlost msg (List.mem_append_left _ hqueue) call hcall)
    · rcases Nat.eq_zero_or_pos counted.subCount with hzero | hpos
      · exact .inr (.inl (hI.counted done rest hphase counted hdone call hack hzero))
      · have hunwritten : counted.msg ∈ Worker.unwritten (.counting done rest) :=
          List.mem_append_left _
            (List.mem_map_of_mem (List.mem_filter.mpr ⟨hdone, by simpa using hpos⟩))
        exact absurd hack (hlost _ (List.mem_append_right _ hunwritten) call hcall)
    · have hunwritten : msg ∈ Worker.unwritten (.counting done rest) :=
        List.mem_append_right _ hrest
      exact absurd hack (hlost msg (List.mem_append_right _ hunwritten) call hcall)
  · -- a panic in a filter: the rest of the batch is written, the queue is not
    refine hI.stopWorker fun msg hmem call hcall hack => ?_
    simp only [messages, hphase, Worker.messages, List.mem_append] at hmem
    rcases hmem with hqueue | hrest
    · exact absurd hack (hlost msg (List.mem_append_left _ hqueue) call hcall)
    · exact hI.written msg (by simpa [hphase, Worker.written] using hrest) call hcall hack

theorem Sound.stepWorker {a : WorkerAction} (hI : s.Sound)
    (hC : s.LetsNobodyDown json (.worker a)) (h : s.stepWorker json config a = some s') :
    s'.Sound := by
  cases a with
  | recv => exact hI.recv h
  | tryRecv => exact hI.tryRecv h
  | check reads => exact hI.check h
  | count now => exact hI.count h
  | write faults => exact hI.write hC h
  | deliver now => exact hI.deliver h
  | push id =>
    obtain ⟨envelope, sends, rest, hphase, -, rfl⟩ := push_cases h
    exact hI.dispatching hphase rfl rfl (by simp) _ _
  | dispatched =>
    obtain ⟨envelope, sends, rest, hphase, rfl⟩ := dispatched_cases h
    exact hI.dispatching hphase rfl rfl (by simp) _ _
  | panic => exact hI.workerPanic hC h

/-! ## Control -/

/-- A control step that leaves the worker and the calls alone. -/
theorem Sound.control (hI : s.Sound) (hworker : s'.worker = s.worker)
    (hqueue : s'.queue = s.queue) (hnext : s'.nextCall = s.nextCall)
    (hwaiting : s'.waiting = s.waiting) (hsignalled : s'.signalled = s.signalled)
    (hreturned : s'.returned = s.returned) (hhistory : s'.history = s.history)
    (hrunning : s.waiting ≠ [] → s'.isRunning = true ∧ s'.exclusive = false) : s'.Sound where
  running := by rwa [hwaiting]
  freshMessages := by
    rw [messages, hqueue, hworker, hnext]
    exact hI.freshMessages
  freshSignalled := by
    rw [hsignalled, hnext]
    exact hI.freshSignalled
  held := by
    simp only [hwaiting, Settled, Holds, messages, hhistory, hqueue, hworker]
    exact hI.held
  signalled := by
    simp only [hwaiting, hsignalled, Settled, hhistory]
    exact hI.signalled
  returned := by
    simp only [hreturned, Settled, hhistory]
    exact hI.returned
  counted := by
    rw [hworker, hhistory]
    exact hI.counted
  written := by
    simp only [hworker, hwaiting, Settled, hhistory]
    exact hI.written

theorem Sound.stepControl {a : ControlAction} (hI : s.Sound)
    (h : s.stepControl json config a = some s') : s'.Sound := by
  cases a with
  | start =>
    simp only [PersistentBus.stepControl, start] at h
    split at h
    · cases h
    · rename_i hexclusive
      have hrunning : s.waiting ≠ [] → true = true ∧ s.exclusive = false :=
        fun _ => ⟨rfl, by simpa using hexclusive⟩
      split at h
      · cases h
        exact hI
      · split at h
        · rename_i hphase
          cases h
          have hmessages : ∀ msg, msg ∈ s.messages ↔ msg ∈ s.queue.buffer ++ [] := by
            simp [messages, hphase, Worker.messages]
          exact hI.of_frame (List.Subset.refl _) hrunning le_rfl (fun _ => id)
            (fun msg hmem => .inl ((hmessages msg).mpr hmem))
            (fun msg hmem => .inl ((hmessages msg).mp hmem)) (fun _ => .inl) hI.returned (by simp)
            (by simp [Worker.written])
        · cases h
          exact hI.control rfl rfl rfl rfl rfl rfl rfl hrunning
  | stop =>
    simp only [PersistentBus.stepControl, stop] at h
    split at h <;> cases h
    exact hI.control rfl rfl rfl rfl rfl rfl rfl fun hne => by simp_all
  | abortScheduler =>
    simp only [PersistentBus.stepControl, abortScheduler] at h
    split at h <;> cases h
    exact hI.control rfl rfl rfl rfl rfl rfl rfl fun hne => by simp_all
  | closeSender =>
    simp only [PersistentBus.stepControl, closeSender] at h
    split at h <;> cases h
    exact hI.control rfl rfl rfl rfl rfl rfl rfl hI.running
  | joinWorker =>
    simp only [PersistentBus.stepControl, joinWorker] at h
    split at h
    · rename_i hjoin
      cases h
      refine hI.control rfl rfl rfl rfl rfl rfl rfl fun hne => ?_
      -- `shutdown_gracefully` has borrowed the dispatcher, so no call waits
      exact absurd (hI.running hne).2 (by simp_all)
    · cases h
  | crash =>
    cases h
    -- the calls die with the process
    exact hI.of_no_waiting rfl rfl (List.nil_subset _) (List.nil_subset _) rfl rfl
      (by simp [crash, boot])

/-! ## Runs -/

/-- **One step** that lets nobody down keeps the invariant. -/
theorem Sound.step {a : Action} (hwait : config.waitForPersistence = true) (hI : s.Sound)
    (hC : s.LetsNobodyDown json a) (h : step json config s a = some s') : s'.Sound := by
  cases a with
  | publisher a => exact hI.stepPublisher hwait h
  | worker a => exact hI.stepWorker hC h
  | scheduler a =>
    obtain ⟨-, hsame, hcalls⟩ := stepScheduler_frame h
    exact hI.of_sameCalls hsame.worker hsame.history hcalls
  | handler a =>
    obtain ⟨-, hworker, hhistory, hcalls⟩ := stepHandler_frame h
    exact hI.of_sameCalls hworker hhistory hcalls
  | replay a =>
    obtain ⟨-, hsame, hcalls⟩ := stepReplay_frame h
    exact hI.of_sameCalls hsame.worker hsame.history hcalls
  | control a => exact hI.stepControl h

/-- **When `Ok(())` is a promise kept.** In a run that lets nobody down, a call of
    `dispatch` that has returned `Ok(())`, whose event was no duplicate and had a counted
    subscriber, has had its row committed. -/
theorem dispatch_ok_persisted (json : SerdeJson) (config : BusConfig) (db : Db)
    (as : List Action) (s : PersistentBus) (hwait : config.waitForPersistence = true)
    (hrun : exec json config (boot json config db) as = some s)
    (hnobody : Transition.Along (PersistentBus.step json config) (LetsNobodyDown json)
      (boot json config db) as) :
    ∀ call, (call, .ok ()) ∈ s.returned → call ∉ s.history.discarded →
      call ∉ s.history.uncounted → call ∈ s.history.persisted := by
  have hsound : s.Sound :=
    Transition.invariant_along (fun _ _ _ hI hC h => hI.step hwait hC h) (sound_boot db)
      hnobody hrun
  intro call hok hdiscarded huncounted
  exact ((hsound.returned call hok).resolve_left hdiscarded).resolve_left huncounted

/-- Publishers wait for persistence. -/
def waitingConfig : BusConfig := { waitForPersistence := true }

/-- An order with one subscriber is published; its batch is written under the given
    faults, its oneshot is fired, and the call returns. -/
def publishOrder (faults : RedbCall → Option Fault) : List Action :=
  [.handler (.registry (.register 1 "OrderEvent" { id := 10 })), .control .start,
    .publisher (.dispatch waitingOrder.msg.envelope), .worker .recv,
    .worker (.check fun _ => true), .worker (.count 0), .worker (.write faults),
    .worker (.deliver 0), .publisher (.returns 0)]

/-- The bus after that. -/
def orderPublished (faults : RedbCall → Option Fault) : PersistentBus :=
  after orderJson waitingConfig (boot orderJson waitingConfig .empty) (publishOrder faults)

theorem letsNobodyDown_publishOrder :
    Transition.Along (PersistentBus.step orderJson waitingConfig) (LetsNobodyDown orderJson)
      (boot orderJson waitingConfig .empty) (publishOrder noFaults) := by
  -- up to the write, and after it, the condition asks for nothing
  iterate 6 refine Transition.along_cons rfl trivial ?_
  refine Transition.along_cons rfl ?_ ?_
  · intro done hphase counted hmem _ call _ _
    have hdone : Worker.counting done [] = .counting [waitingOrder.toCounted] [] :=
      hphase.symm.trans rfl
    cases hdone
    obtain rfl := List.mem_singleton.mp hmem
    exact ⟨⟨_, rfl⟩, fun _ _ => rfl⟩
  · exact ⟨trivial, fun _ _ => ⟨trivial, fun _ _ => trivial⟩⟩

/-- With a disk that works, `Ok(())` means that the row of the order is there. -/
theorem dispatch_ok_persisted_order : 0 ∈ (orderPublished noFaults).history.persisted :=
  dispatch_ok_persisted orderJson waitingConfig .empty (publishOrder noFaults)
    (orderPublished noFaults) rfl rfl letsNobodyDown_publishOrder 0 (by decide) (by decide)
    (by decide)

/-- With a full disk, `dispatch` returns `Ok(())` for an order of which no row has ever
    been committed. -/
theorem not_dispatch_ok_persisted :
    ¬ ∀ as s, exec orderJson waitingConfig (boot orderJson waitingConfig .empty) as = some s →
      ∀ call, (call, .ok ()) ∈ s.returned → call ∉ s.history.discarded →
        call ∉ s.history.uncounted → call ∈ s.history.persisted := by
  intro h
  have hpersisted := h (publishOrder commitFails) (orderPublished commitFails) rfl 0 (by decide)
    (by decide) (by decide)
  revert hpersisted
  decide

end PersistentBus
end TokioEvents
