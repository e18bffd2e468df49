/-
  TokioEvents.Persistence.AtMostOnce

  At most one message per idempotency key is handed to handlers, over any number of
  batches, crashes and restarts.

  A key is recorded with the row of its message, and a row is prepared for a message
  with a positive subscriber count.  A message without subscribers leaves its key
  unrecorded, which does no harm as nobody is sent it; but the count is cast to `u32`,
  so a type with `2 ^ 32` subscriptions counts as one without, and its messages are
  dispatched unrecorded.
-/

import TokioEvents.Persistence.Bus.Crowd
import TokioEvents.Persistence.Idempotency
import TokioEvents.Persistence.WriteAhead

namespace TokioEvents

/-- A key is handed to `dispatch` with at most one message that has a recipient, and
    handlers are invoked for such keys only. -/
structure OncePerKey (log : Log) : Prop where
  handed : log.keys.Nodup
  invoked : ∀ id key, (id, key) ∈ log.invoked → key ∈ log.keys

namespace DupCheck

variable {α : Type} (key : α → Option String) (recorded : String → Bool)

/-- The messages that pass the check carry different keys. -/
theorem nodup_valid (batch : List α) : ((run key recorded batch).valid.filterMap key).Nodup := by
  induction batch using List.reverseRecOn with
  | nil => simp
  | append_singleton batch msg ih =>
    rw [run_concat, step]
    split
    · exact ih
    · rename_i hdup
      rw [List.filterMap_append, List.nodup_append]
      refine ⟨ih, ?_, ?_⟩
      · cases hkey : key msg <;> simp [hkey]
      · intro k hk k' hk' heq
        obtain ⟨m, hm, hmk⟩ := List.mem_filterMap.mp hk
        have hkey : key msg = some k' := by simpa using hk'
        refine hdup ((isDuplicate_run key recorded batch msg).mpr ⟨k', hkey, .inr ⟨m, ?_, ?_⟩⟩)
        · exact (mem_valid_or_mem_duplicates key recorded).mp (.inl hm)
        · rw [hmk, heq]

end DupCheck

namespace PersistentBus

variable {json : SerdeJson} {config : BusConfig} {s s' : PersistentBus} {log : Log}

/-! ## What is on its way to the handlers -/

/-- Every value of the map has the property. -/
def Everywhere {V : Type} (Q : V → Prop) (map : DashMap Uuid V) : Prop :=
  ∀ (id : Uuid) v, map[id]? = some v → Q v

section Everywhere

variable {V : Type} {Q : V → Prop} {map : DashMap Uuid V}

theorem everywhere_empty : Everywhere Q (∅ : DashMap Uuid V) := by
  intro id v hget
  simp at hget

theorem Everywhere.insert (h : Everywhere Q map) (id : Uuid) {v : V} (hv : Q v) :
    Everywhere Q (map.insert id v) := by
  intro id' v' hget
  rw [Std.ExtTreeMap.getElem?_insert] at hget
  split at hget
  · cases hget
    exact hv
  · exact h id' v' hget

theorem Everywhere.erase (h : Everywhere Q map) (id : Uuid) : Everywhere Q (map.erase id) := by
  intro id' v' hget
  rw [Std.ExtTreeMap.getElem?_erase] at hget
  split at hget
  · cases hget
  · exact h id' v' hget

end Everywhere

/-- Every event that is being sent or waits for a handler has the property. -/
structure OnTheWay (P : EventEnvelope → Prop) (s : PersistentBus) : Prop where
  sends : ∀ envelope sends rest, s.worker = .dispatching envelope sends rest → sends ≠ [] →
    P envelope
  channel : Everywhere (fun data => ∀ envelope ∈ data.channel, P envelope) s.manager.subscriptions
  closed : Everywhere (fun channel => ∀ envelope ∈ channel, P envelope) s.closed

section OnTheWay

variable {P P' : EventEnvelope → Prop}

theorem OnTheWay.imp (h : s.OnTheWay P) (hP : ∀ envelope, P envelope → P' envelope) :
    s.OnTheWay P' where
  sends envelope sends rest hphase hne := hP envelope (h.sends envelope sends rest hphase hne)
  channel id data hget envelope hmem := hP envelope (h.channel id data hget envelope hmem)
  closed id channel hget envelope hmem := hP envelope (h.closed id channel hget envelope hmem)

/-- A step that leaves the worker and the channels alone. -/
theorem OnTheWay.of_sameHandling (h : s.OnTheWay P) (hsame : SameHandling s s') :
    s'.OnTheWay P where
  sends := by rw [hsame.worker]; exact h.sends
  channel := by rw [hsame.manager]; exact h.channel
  closed := by rw [hsame.closed]; exact h.closed

/-- What a send puts into a channel is what the worker is sending. -/
theorem OnTheWay.push {id : Uuid} (h : s.OnTheWay P) (hpush : s.push config id = some s') :
    s'.OnTheWay P := by
  obtain ⟨envelope, sends, rest, hphase, hmem, rfl⟩ := push_cases hpush
  have hP := h.sends envelope sends rest hphase (List.ne_nil_of_mem hmem)
  refine ⟨?_, ?_, fun i channel hget envelope' hmem' => ?_⟩
  · intro envelope' sends' rest' heq hne
    cases heq
    exact hP
  · unfold SubscriptionManager.push
    split
    · rename_i data hdata
      split
      · refine h.channel.insert id fun envelope' hmem' => ?_
        rcases List.mem_append.mp hmem' with hold | hnew
        · exact h.channel id data hdata envelope' hold
        · rw [List.mem_singleton.mp hnew]
          exact hP
      · exact h.channel
    · exact h.channel
  · rcases mem_pushClosed hget hmem' with ⟨before, hbefore, hold⟩ | rfl
    · exact h.closed i before hbefore envelope' hold
    · exact hP

/-- **One step of the worker** begins to send only what has the property. -/
theorem OnTheWay.stepWorker {a : WorkerAction} (hI : s.OnTheWay P)
    (h : s.stepWorker json config a = some s')
    (hdeliver : ∀ now msg rest, a = .deliver now → s.worker = .delivering (msg :: rest) →
      msg.envelope.isScheduled now = false → s.manager.senders msg.envelope ≠ [] →
      P msg.envelope) : s'.OnTheWay P := by
  cases a with
  | recv =>
    obtain ⟨-, ⟨msg, rest, -, rfl⟩ | ⟨-, rfl⟩⟩ := recv_cases h
    · exact ⟨by simp, hI.channel, hI.closed⟩
    · exact ⟨by simp [stopWorker], hI.channel, hI.closed⟩
  | tryRecv =>
    obtain ⟨batch, msg, rest, -, -, rfl⟩ := tryRecv_cases h
    exact ⟨by simp, hI.channel, hI.closed⟩
  | check reads =>
    obtain ⟨batch, checked, -, -, rfl⟩ := check_cases h
    exact ⟨by simp, hI.channel, hI.closed⟩
  | count now =>
    obtain ⟨done, msg, rest, n, -, -, rfl⟩ := count_cases h
    exact ⟨by simp, hI.channel, hI.closed⟩
  | write faults =>
    obtain ⟨done, -, ⟨-, rfl⟩ | ⟨msg, -, rfl⟩ | ⟨-, rfl⟩⟩ := write_cases h
    · exact ⟨by simp, hI.channel, hI.closed⟩
    · exact ⟨by simp, hI.channel, hI.closed⟩
    · exact ⟨by simp, hI.channel, hI.closed⟩
  | deliver now =>
    obtain ⟨-, rfl⟩ | ⟨msg, rest, hphase, ⟨-, rfl⟩ | ⟨hdue, rfl⟩⟩ := deliver_cases h
    · exact ⟨by simp, hI.channel, hI.closed⟩
    · exact ⟨by simp, hI.channel, hI.closed⟩
    · refine ⟨fun envelope sends rest' heq hne => ?_, hI.channel, hI.closed⟩
      cases heq
      exact hdeliver now msg rest rfl hphase hdue hne
  | push id => exact hI.push h
  | dispatched =>
    obtain ⟨envelope, sends, rest, -, rfl⟩ := dispatched_cases h
    exact ⟨by simp, hI.channel, hI.closed⟩
  | panic =>
    obtain ⟨-, rfl⟩ := workerPanic_cases h
    exact ⟨by simp [stopWorker], hI.channel, hI.closed⟩

theorem OnTheWay.stepHandler {a : HandlerAction} (hI : s.OnTheWay P)
    (h : s.stepHandler a = some s') : s'.OnTheWay P := by
  cases a with
  | registry op =>
    cases h
    exact ⟨hI.sends, hI.channel, hI.closed⟩
  | openChannel id =>
    obtain ⟨-, rfl⟩ := openChannel_cases h
    exact ⟨hI.sends, hI.channel.insert id (by simp), hI.closed⟩
  | removeChannel id =>
    cases h
    exact ⟨hI.sends, hI.channel.erase id, hI.closed⟩
  | closeChannel id =>
    obtain ⟨data, hdata, rfl⟩ := closeChannel_cases h
    refine ⟨hI.sends, hI.channel.erase id, ?_⟩
    dsimp only
    split
    · exact hI.closed.insert id (hI.channel id data hdata)
    · exact hI.closed
  | take id =>
    obtain ⟨-, envelope, rest, ⟨hdata, rfl⟩ | ⟨hclosed, rfl⟩⟩ := handlerTake_cases h
    · refine ⟨hI.sends, hI.channel.insert id fun envelope' hmem => ?_, hI.closed⟩
      exact hI.channel id _ hdata envelope' (List.mem_cons_of_mem _ hmem)
    · refine ⟨hI.sends, hI.channel, hI.closed.insert id fun envelope' hmem => ?_⟩
      exact hI.closed id _ hclosed envelope' (List.mem_cons_of_mem _ hmem)
  | complete id isSuccess =>
    obtain ⟨envelope, registry, -, -, -, rfl⟩ := handlerComplete_cases h
    exact ⟨hI.sends, hI.channel, hI.closed⟩
  | exit id =>
    cases h
    refine ⟨hI.sends, ?_, hI.closed.erase id⟩
    unfold handlerExit
    dsimp only
    split
    · exact hI.channel.insert id (by simp)
    · exact hI.channel
  | ack commits =>
    obtain ⟨completion, rest, -, rfl⟩ := ack_step_cases h
    exact ⟨hI.sends, hI.channel, hI.closed⟩

/-- **One step** puts on its way only what has the property. -/
theorem OnTheWay.step {a : Action} (hI : s.OnTheWay P) (h : step json config s a = some s')
    (hdeliver : ∀ now msg rest, a = .worker (.deliver now) →
      s.worker = .delivering (msg :: rest) → msg.envelope.isScheduled now = false →
      s.manager.senders msg.envelope ≠ [] → P msg.envelope) : s'.OnTheWay P := by
  cases a with
  | publisher a => exact hI.of_sameHandling (stepPublisher_frame h).2
  | worker a => exact hI.stepWorker h fun now msg rest ha => hdeliver now msg rest (ha ▸ rfl)
  | scheduler a => exact hI.of_sameHandling (stepScheduler_frame h).2.1
  | handler a => exact hI.stepHandler h
  | replay a => exact hI.of_sameHandling (stepReplay_frame h).2.1
  | control a =>
    by_cases ha : a = .crash
    · subst ha
      cases h
      exact ⟨by simp [crash, boot], everywhere_empty, everywhere_empty⟩
    · have hsame := stepControl_sameWork h ha
      refine ⟨fun envelope sends rest hphase => ?_, ?_, ?_⟩
      · rcases hsame.worker with heq | ⟨-, hreceiving⟩
        · exact hI.sends envelope sends rest (heq ▸ hphase)
        · rw [hreceiving] at hphase
          cases hphase
      · rw [hsame.manager]
        exact hI.channel
      · rw [hsame.closed]
        exact hI.closed

/-- What a handler takes was on its way. -/
theorem OnTheWay.take {id : Uuid} (hI : s.OnTheWay P) (h : s.handlerTake id = some s') :
    ∃ envelope, s'.busy[id]? = some envelope ∧ P envelope := by
  obtain ⟨-, envelope, rest, ⟨hdata, rfl⟩ | ⟨hclosed, rfl⟩⟩ := handlerTake_cases h
  · exact ⟨envelope, by simp, hI.channel id _ hdata envelope (by simp)⟩
  · exact ⟨envelope, by simp, hI.closed id _ hclosed envelope (by simp)⟩

end OnTheWay

/-! ## The conditions -/

/-- What is promised of a step: database reads succeed, the messages of a batch serialize
    and its transaction commits, and subscriptions do not change while a message is
    between its count and its dispatch. -/
def Promised (json : SerdeJson) (s : PersistentBus) : Action → Prop
  | .worker (.check reads) => ∀ key, reads key = true
  | .worker (.write faults) => ∀ done, s.worker = .counting done [] →
    (∀ counted ∈ done, counted.Serializes json) ∧ TxnSucceeds faults (rowsOf json done)
  | a => s.KeepsSubscriptions a

/-- A type with subscriptions does not count as one without. -/
def CountsSomeone (s : PersistentBus) : Action → Prop
  | .worker (.count _) => ∀ done msg rest, s.worker = .counting done (msg :: rest) →
    s.listed msg.envelope.typeId ≠ [] → ¬ 2 ^ 32 ∣ (s.listed msg.envelope.typeId).length
  | _ => True

/-- Both hold of the step. -/
def RecordsKeys (json : SerdeJson) (s : PersistentBus × Log) (a : Action) : Prop :=
  s.1.Promised json a ∧ s.1.CountsSomeone a

instance (s : PersistentBus) : (a : Action) → Decidable (s.CountsSomeone a)
  | .worker (.count _) => inferInstanceAs (Decidable (∀ _ _ _, _ → _))
  | .worker .recv | .worker .tryRecv | .worker (.check _) | .worker (.write _)
  | .worker (.deliver _) | .worker (.push _) | .worker .dispatched | .worker .panic
  | .publisher _ | .scheduler _ | .handler _ | .replay _ | .control _ => isTrue trivial

theorem Promised.keepsSubscriptions {a : Action} (h : s.Promised json a) :
    s.KeepsSubscriptions a := by
  cases a with
  | worker a => trivial
  | publisher a => trivial
  | scheduler a => trivial
  | handler a => exact h
  | replay a => trivial
  | control a => trivial

/-! ## The invariant -/

/-- What holds of keys in every state of such a run. -/
structure KeysSafe (s : PersistentBus) (log : Log) : Prop where
  once : log.keys.Nodup
  recorded : ∀ k ∈ log.keys, s.db.keyRecorded k = true
  /-- The messages that have passed the check carry different keys, none recorded. -/
  checked : ∀ done rest, s.worker = .counting done rest →
    ((done.map (·.msg) ++ rest).filterMap RedbDispatcherMessage.idempotencyKey).Nodup ∧
    ∀ msg ∈ done.map (·.msg) ++ rest, ∀ k, msg.idempotencyKey = some k →
      s.db.keyRecorded k = false
  counted : ∀ done rest, s.worker = .counting done rest → ∀ counted ∈ done,
    s.listed counted.msg.envelope.typeId ≠ [] → 0 < counted.subCount
  /-- Once written they are recorded, unless there is nobody to send them to. -/
  written : (s.worker.written.filterMap RedbDispatcherMessage.idempotencyKey).Nodup
  fresh : ∀ msg ∈ s.worker.written, ∀ k, msg.idempotencyKey = some k → k ∉ log.keys ∧
    (s.listed msg.envelope.typeId ≠ [] → s.db.keyRecorded k = true)

theorem keysSafe_boot (db : Db) : (boot json config db).KeysSafe .empty where
  once := List.nodup_nil
  recorded := by simp [Log.empty]
  checked := by simp [boot]
  counted := by simp [boot]
  written := List.nodup_nil
  fresh := by simp [boot, Worker.written]

/-- A step that leaves the batch, the recorded keys and the lists alone. -/
theorem KeysSafe.of_worker_eq (h : s.KeysSafe log) {log' : Log} (hworker : s'.worker = s.worker)
    (hrec : ∀ k, s'.db.keyRecorded k = s.db.keyRecorded k)
    (hlisted : s.worker.counted ≠ [] → ∀ t, s'.listed t = s.listed t)
    (hkeys : log'.keys = log.keys) : s'.KeysSafe log' where
  once := hkeys ▸ h.once
  recorded := by simpa only [hkeys, hrec] using h.recorded
  checked := by simpa only [hworker, hrec] using h.checked
  counted done rest hphase counted hmem := by
    rw [hworker] at hphase
    have hsome : s.worker.counted ≠ [] := by
      rw [hphase]
      exact List.ne_nil_of_mem (List.mem_map_of_mem hmem)
    rw [hlisted hsome]
    exact h.counted done rest hphase counted hmem
  written := hworker ▸ h.written
  fresh msg hmem k hkey := by
    rw [hworker] at hmem
    have hsome : s.worker.counted ≠ [] := by
      unfold Worker.counted
      split
      · rename_i hphase
        rw [hphase] at hmem
        cases hmem
      · exact List.ne_nil_of_mem hmem
    rw [hkeys, hlisted hsome, hrec]
    exact h.fresh msg hmem k hkey

/-- A step after which the worker has no batch, or one that is not checked yet. -/
theorem KeysSafe.of_idle (h : s.KeysSafe log) {log' : Log}
    (hcounting : ∀ done rest, s'.worker ≠ .counting done rest) (hwritten : s'.worker.written = [])
    (hrec : ∀ k, s'.db.keyRecorded k = s.db.keyRecorded k) (hkeys : log'.keys = log.keys) :
    s'.KeysSafe log' where
  once := hkeys ▸ h.once
  recorded := by simpa only [hkeys, hrec] using h.recorded
  checked done rest hphase := absurd hphase (hcounting done rest)
  counted done rest hphase := absurd hphase (hcounting done rest)
  written := by simp [hwritten]
  fresh := by simp [hwritten]

/-- A step of the dispatch loop that hands nothing on. -/
theorem KeysSafe.of_written (h : s.KeysSafe log) {log' : Log}
    (hcounting : ∀ done rest, s'.worker ≠ .counting done rest)
    (hwritten : s'.worker.written.Sublist s.worker.written) (hdb : s'.db = s.db)
    (hlisted : ∀ t, s'.listed t = s.listed t) (hkeys : log'.keys = log.keys) :
    s'.KeysSafe log' where
  once := hkeys ▸ h.once
  recorded := by simpa only [hkeys, hdb] using h.recorded
  checked done rest hphase := absurd hphase (hcounting done rest)
  counted done rest hphase := absurd hphase (hcounting done rest)
  written := (hwritten.filterMap _).nodup h.written
  fresh msg hmem k hkey := by
    rw [hkeys, hdb, hlisted]
    exact h.fresh msg (hwritten.subset hmem) k hkey

/-- The check passes messages with different keys, none of them recorded. -/
theorem KeysSafe.check {reads : String → Bool} (hI : s.KeysSafe log)
    (h : s.check reads = some s') (hreads : ∀ key, reads key = true) : s'.KeysSafe log := by
  obtain ⟨batch, checked, -, rfl, rfl⟩ := check_cases h
  refine ⟨hI.once, hI.recorded, fun done rest hphase => ?_, fun done rest hphase counted hmem => ?_,
    List.nodup_nil, by simp [Worker.written]⟩
  · cases hphase
    refine ⟨DupCheck.nodup_valid _ _ batch, fun msg hmem k hkey => ?_⟩
    by_contra hrec
    refine DupCheck.not_mem_valid_of_recorded _ _ hkey ?_ hmem
    simpa [hreads] using hrec
  · cases hphase
    cases hmem

/-- A message with subscribers is counted as one. -/
theorem KeysSafe.count {now : DateTime} (hI : s.KeysSafe log) (h : s.count config now = some s')
    (hC : s.CountsSomeone (.worker (.count now))) {log' : Log} (hkeys : log'.keys = log.keys) :
    s'.KeysSafe log' := by
  obtain ⟨done, msg, rest, n, hphase, hn, rfl⟩ := count_cases h
  obtain ⟨hnodup, hunrecorded⟩ := hI.checked done (msg :: rest) hphase
  refine ⟨hkeys ▸ hI.once, hkeys ▸ hI.recorded, fun done' rest' heq => ?_,
    fun done' rest' heq counted hmem hlisted => ?_, List.nodup_nil, by simp [Worker.written]⟩
  · cases heq
    have hmsgs : (done ++ [(⟨msg, n, now⟩ : Counted)]).map (·.msg) ++ rest
        = done.map (·.msg) ++ msg :: rest := by simp
    rw [hmsgs]
    exact ⟨hnodup, hunrecorded⟩
  · cases heq
    rcases List.mem_append.mp hmem with hold | hnew
    · exact hI.counted done (msg :: rest) hphase counted hold hlisted
    · obtain rfl := List.mem_singleton.mp hnew
      have hdvd := hC done msg rest hphase hlisted
      have hlength : (s.listed msg.envelope.typeId).length
          = (s.manager.registry.inner.entries msg.envelope.typeId).length := List.length_map _
      rw [hlength, Nat.dvd_iff_mod_eq_zero, ← RedbRegistry.subCount, ← hn] at hdvd
      exact Nat.pos_of_ne_zero hdvd

/-- The rows that are written record the keys of all messages with subscribers. -/
theorem KeysSafe.write {faults : RedbCall → Option Fault} (hI : s.KeysSafe log)
    (h : s.write json faults = some s') (hC : s.Promised json (.worker (.write faults)))
    {log' : Log} (hkeys : log'.keys = log.keys) : s'.KeysSafe log' := by
  obtain ⟨done, hphase, hcases⟩ := write_cases h
  obtain ⟨hserializes, hsucceeds⟩ := hC done hphase
  obtain ⟨hnodup, hunrecorded⟩ := hI.checked done [] hphase
  rw [List.append_nil] at hnodup hunrecorded
  have hresult : writeResult json faults done = .committed := by
    unfold writeResult
    split
    · rfl
    · exact writeOutcome_eq_committed.mpr hsucceeds
  obtain ⟨-, rfl⟩ | ⟨msg, hfailed, -⟩ | ⟨hpanicked, -⟩ := hcases
  · refine ⟨hkeys ▸ hI.once, fun k hk => ?_, by simp, by simp, hnodup, fun msg hmem k hkey => ?_⟩
    · rw [keyRecorded_insertRows]
      exact .inl (hI.recorded k (hkeys ▸ hk))
    · constructor
      · intro hk
        have hrec := hI.recorded k (hkeys ▸ hk)
        rw [hunrecorded msg hmem k hkey] at hrec
        cases hrec
      · intro hlisted
        obtain ⟨counted, hcounted, rfl⟩ := List.mem_map.mp hmem
        have hpos := hI.counted done [] hphase counted hcounted hlisted
        obtain ⟨row, hrow⟩ := Counted.exists_row_iff.mpr ⟨hpos, hserializes counted hcounted⟩
        rw [keyRecorded_insertRows]
        refine .inr ⟨row, List.mem_filterMap.mpr ⟨counted, hcounted, hrow⟩, ?_⟩
        obtain ⟨-, bytes, -, rfl⟩ := prepare_eq_some.mp hrow
        exact hkey
  · rw [hresult] at hfailed
    cases hfailed
  · rw [hresult] at hpanicked
    cases hpanicked

/-- Whoever has a recipient is listed. -/
theorem listed_ne_nil_of_senders {envelope : EventEnvelope}
    (h : s.manager.senders envelope ≠ []) : s.listed envelope.typeId ≠ [] := by
  obtain ⟨i, hi⟩ := List.exists_mem_of_ne_nil _ h
  have hle := senders_count_le s envelope i
  have hpos := List.count_pos_iff.mpr hi
  exact List.ne_nil_of_mem (List.count_pos_iff.mp (hpos.trans_le hle))

/-- A key that is handed on has been recorded and was not handed on before. -/
theorem KeysSafe.deliver {now : DateTime} (hI : s.KeysSafe log) (h : s.deliver now = some s') :
    s'.KeysSafe (record json s (.worker (.deliver now)) s' log) := by
  obtain ⟨hphase, rfl⟩ | ⟨msg, rest, hphase, ⟨hscheduled, rfl⟩ | ⟨hdue, rfl⟩⟩ := deliver_cases h
  · exact hI.of_idle (by simp) rfl (fun _ => rfl) (by simp [record, hphase])
  · refine hI.of_written (by simp) ?_ rfl (fun _ => rfl) (by simp [record, hphase, hscheduled])
    simp [hphase, Worker.written]
  · have hmem : ∀ msg' ∈ rest, msg' ∈ s.worker.written := by
      intro msg' hmem'
      rw [hphase]
      exact List.mem_cons_of_mem _ hmem'
    have hwritten : s.worker.written = msg :: rest := by rw [hphase]; rfl
    have hlog : (record json s (.worker (.deliver now)) { s with
          signalled := s.signalled ++ msg.ackTx.toList
          worker := .dispatching msg.envelope (s.manager.senders msg.envelope) rest
          history := { s.history with
            handed := s.history.handed ++ [msg.envelope.eventId] } } log).keys
        = if s.manager.senders msg.envelope = [] then log.keys
          else log.keys ++ msg.idempotencyKey.toList := by
      simp [record, hphase, hdue]
    by_cases hsenders : s.manager.senders msg.envelope = []
    · rw [if_pos hsenders] at hlog
      refine hI.of_written (by simp) ?_ rfl (fun _ => rfl) hlog
      rw [hwritten]
      exact List.sublist_cons_self msg rest
    · rw [if_neg hsenders] at hlog
      have hhead : ∀ k ∈ msg.idempotencyKey.toList, k ∉ log.keys ∧ s.db.keyRecorded k = true := by
        intro k hk
        obtain ⟨hfresh, hrec⟩ := hI.fresh msg (by simp [hwritten]) k (by simpa using hk)
        exact ⟨hfresh, hrec (listed_ne_nil_of_senders hsenders)⟩
      have hnodup := hI.written
      rw [hwritten] at hnodup
      refine ⟨?_, ?_, by simp, by simp, ?_, ?_⟩
      · rw [hlog, List.nodup_append]
        refine ⟨hI.once, ?_, ?_⟩
        · cases msg.idempotencyKey <;> simp
        · rintro k hk k' hk' rfl
          exact (hhead k hk').1 hk
      · intro k hk
        rw [hlog] at hk
        rcases List.mem_append.mp hk with hold | hnew
        · exact hI.recorded k hold
        · exact (hhead k hnew).2
      · exact ((List.sublist_cons_self msg rest).filterMap _).nodup hnodup
      · intro msg' hmem' k hkey'
        obtain ⟨hfresh, hrec⟩ := hI.fresh msg' (hmem msg' hmem') k hkey'
        refine ⟨?_, hrec⟩
        rw [hlog, List.mem_append, not_or]
        refine ⟨hfresh, fun hk => ?_⟩
        -- the head and a later message would carry the same key
        have hkey : msg.idempotencyKey = some k := by simpa using hk
        rw [List.filterMap_cons_some hkey, List.nodup_cons] at hnodup
        exact hnodup.1 (List.mem_filterMap.mpr ⟨msg', hmem', hkey'⟩)

theorem KeysSafe.stepWorker {a : WorkerAction} (hI : s.KeysSafe log)
    (h : s.stepWorker json config a = some s') (hC : RecordsKeys json (s, log) (.worker a)) :
    s'.KeysSafe (record json s (.worker a) s' log) := by
  cases a with
  | check reads => exact hI.check h hC.1
  | count now => exact hI.count h hC.2 (record_of_not_deliver _ _ _ _ (by simp)).2.2
  | write faults => exact hI.write h hC.1 (record_of_not_deliver _ _ _ _ (by simp)).2.2
  | deliver now => exact hI.deliver h
  | recv =>
    obtain ⟨-, ⟨msg, rest, -, rfl⟩ | ⟨-, rfl⟩⟩ := recv_cases h
    · exact hI.of_idle (by simp) rfl (fun _ => rfl) rfl
    · exact hI.of_idle (by simp [stopWorker]) rfl (fun _ => rfl) rfl
  | tryRecv =>
    obtain ⟨batch, msg, rest, -, -, rfl⟩ := tryRecv_cases h
    exact hI.of_idle (by simp) rfl (fun _ => rfl) rfl
  | push id =>
    obtain ⟨envelope, sends, rest, hphase, -, rfl⟩ := push_cases h
    refine hI.of_written (by simp) ?_ rfl (fun _ => rfl) rfl
    simp [hphase, Worker.written]
  | dispatched =>
    obtain ⟨envelope, sends, rest, hphase, rfl⟩ := dispatched_cases h
    refine hI.of_written (by simp) ?_ rfl (fun _ => rfl) rfl
    simp [hphase, Worker.written]
  | panic =>
    obtain ⟨-, rfl⟩ := workerPanic_cases h
    exact hI.of_idle (by simp [stopWorker]) rfl (fun _ => rfl) rfl

/-- **One step** that records the keys it has to. -/
theorem KeysSafe.step {a : Action} (hI : s.KeysSafe log) (h : step json config s a = some s')
    (hC : RecordsKeys json (s, log) a) : s'.KeysSafe (record json s a s' log) := by
  by_cases hworker : ∃ b, a = .worker b
  · obtain ⟨b, rfl⟩ := hworker
    exact hI.stepWorker h hC
  · have hnot : ∀ b, a ≠ .worker b := fun b hb => hworker ⟨b, hb⟩
    have hrec := keyRecorded_of_not_worker h hnot
    have hkeys : (record json s a s' log).keys = log.keys :=
      (record_of_not_deliver _ _ _ _ fun now ha => hnot _ ha).2.2
    by_cases hcrash : a = .control .crash
    · subst hcrash
      cases h
      exact hI.of_idle (by simp [crash, boot]) rfl hrec hkeys
    · rcases worker_of_not_worker h hnot with heq | hidle | hidle
      · exact hI.of_worker_eq heq hrec
          (fun hcounted => listed_step h hC.1.keepsSubscriptions hcounted hcrash) hkeys
      · exact hI.of_idle (by simp [hidle]) (by rw [hidle]; rfl) hrec hkeys
      · exact hI.of_idle (by simp [hidle]) (by rw [hidle]; rfl) hrec hkeys

/-- The key of the event, if it has one, has been handed on. -/
def KeyHanded (log : Log) (envelope : EventEnvelope) : Prop :=
  ∀ k, envelope.metadata.idempotencyKey = some k → k ∈ log.keys

/-- No step takes a key out of the log. -/
theorem keys_subset_record (json : SerdeJson) (s s' : PersistentBus) (a : Action) (log : Log) :
    log.keys ⊆ (record json s a s' log).keys := by
  by_cases ha : ∃ now, a = .worker (.deliver now)
  · obtain ⟨now, rfl⟩ := ha
    simp only [record]
    repeat' split
    all_goals first
      | exact List.Subset.refl _
      | exact List.subset_append_left _ _
  · rw [(record_of_not_deliver _ _ _ _ fun now h => ha ⟨now, h⟩).2.2]
    exact List.Subset.refl _

/-- **One step** puts on its way only events whose key it logs. -/
theorem onTheWay_keyHanded_step {a : Action} (hI : s.OnTheWay (KeyHanded log))
    (h : PersistentBus.step json config s a = some s') :
    s'.OnTheWay (KeyHanded (record json s a s' log)) := by
  refine (hI.imp fun envelope hhanded k hkey => ?_).step h ?_
  · exact keys_subset_record json s s' a log (hhanded k hkey)
  · rintro now msg rest rfl hphase hdue hsenders k hkey
    have hlog : (record json s (.worker (.deliver now)) s' log).keys
        = log.keys ++ msg.idempotencyKey.toList := by
      simp [record, hphase, hdue, hsenders]
    rw [hlog]
    exact List.mem_append_right _ (by simpa [RedbDispatcherMessage.idempotencyKey] using hkey)

/-- **One step** invokes handlers only for keys that were handed on. -/
theorem invoked_step {a : Action} (hI : s.OnTheWay (KeyHanded log))
    (hinvoked : ∀ id key, (id, key) ∈ log.invoked → key ∈ log.keys)
    (h : PersistentBus.step json config s a = some s') (id : Uuid) (key : String)
    (hmem : (id, key) ∈ (record json s a s' log).invoked) :
    key ∈ (record json s a s' log).keys := by
  by_cases htake : ∃ id', a = .handler (.take id')
  · obtain ⟨id', rfl⟩ := htake
    obtain ⟨envelope, hbusy, hhanded⟩ := hI.take h
    rcases List.mem_append.mp hmem with hold | hnew
    · exact hinvoked id key hold
    · simp only [workingKey, hbusy, Option.elim_some, Option.mem_toList, Option.map_eq_some_iff,
        Prod.mk.injEq] at hnew
      obtain ⟨k, hkey, -, rfl⟩ := hnew
      exact hhanded k hkey
  · have hsame : (record json s a s' log).invoked = log.invoked := by
      unfold record
      repeat' split
      all_goals first
        | rfl
        | exact absurd ⟨_, rfl⟩ htake
    rw [hsame] at hmem
    exact keys_subset_record json s s' a log (hinvoked id key hmem)

/-- **When a key is handed on once.** In a run, with any crashes, of which every step is
    as promised, if no counted message is of a type with a positive multiple of `2 ^ 32`
    subscriptions, every key is handed on at most once. -/
theorem oncePerKey_along {db : Db} {as : List Action} {s' : PersistentBus × Log}
    (hexec : Transition.exec (stepLogged json config) (boot json config db, .empty) as = some s')
    (hC : Transition.Along (stepLogged json config) (RecordsKeys json)
      (boot json config db, .empty) as) :
    OncePerKey s'.2 := by
  have hrun : s'.1.KeysSafe s'.2 ∧ s'.1.OnTheWay (KeyHanded s'.2) ∧
      ∀ id key, (id, key) ∈ s'.2.invoked → key ∈ s'.2.keys := by
    refine Transition.invariant_along (I := fun s => s.1.KeysSafe s.2 ∧
      s.1.OnTheWay (KeyHanded s.2) ∧ ∀ id key, (id, key) ∈ s.2.invoked → key ∈ s.2.keys)
      ?_ ⟨keysSafe_boot db, ?_, ?_⟩ hC hexec
    · rintro s a s' ⟨hsafe, hway, hinvoked⟩ hstep hs
      obtain ⟨hstep', hlog⟩ := Transition.withHistory_eq_some.mp hs
      rw [hlog]
      exact ⟨hsafe.step hstep' hstep, onTheWay_keyHanded_step hway hstep',
        invoked_step hway hinvoked hstep'⟩
    · exact ⟨by simp [boot], everywhere_empty, everywhere_empty⟩
    · simp [Log.empty]
  exact ⟨hrun.1.once, hrun.2.2⟩

/-! ## Two orders with one key -/

/-- An order with the key `k`. -/
def orderWithKey (id : Uuid) : EventEnvelope :=
  .fromSerialized 1 "OrderEvent" { eventId := id, timestamp := 0, idempotencyKey := some "k" }
    .normal []

/-- The codec that knows the orders 7 and 8. -/
def ordersJson : SerdeJson :=
  .ofList [⟨"OrderEvent", (orderWithKey 7).metadata, .normal, []⟩,
    ⟨"OrderEvent", (orderWithKey 8).metadata, .normal, []⟩]

theorem promised_crowdArrives (n : Nat) : ∀ a ∈ crowdArrives n, ∀ t : PersistentBus × Log,
    t.1.worker = .unspawned → t.1.Promised ordersJson a := by
  intro a ha t ht
  rcases List.mem_append.mp ha with hcall | hlast
  · obtain ⟨op, -, rfl⟩ := List.mem_map.mp hcall
    exact .inl (by rw [ht]; rfl)
  · rcases List.mem_pair.mp hlast with rfl | rfl
    · trivial
    · trivial

theorem promised_oneMessage {envelope : EventEnvelope} {counted : Counted}
    (hserializes : counted.Serializes ordersJson) : ∀ a ∈ oneMessage envelope 0,
    ∀ t : PersistentBus × Log, t.1.Alone counted → t.1.Promised ordersJson a := by
  intro a ha t halone
  simp only [oneMessage, List.mem_cons, List.not_mem_nil, or_false] at ha
  rcases ha with rfl | rfl | rfl | rfl | rfl | rfl | rfl | rfl | rfl | rfl | rfl
  case inr.inr.inl => exact fun _ => rfl
  case inr.inr.inr.inr.inl =>
    intro done hphase
    rcases halone done [] hphase with ⟨-, hnil⟩ | ⟨rfl, -⟩
    · cases hnil
    · exact ⟨by simpa using hserializes, fun _ _ => rfl⟩
  all_goals trivial

/-- The two orders, one after the other, for a crowd of `n`. -/
def ordersToCrowd (n : Nat) : List Action :=
  crowdArrives n ++ (oneMessage (orderWithKey 7) 0 ++ oneMessage (orderWithKey 8) 0)

/-- Nothing is written for a message that is counted without subscribers. -/
theorem rowsOf_uncounted (msg : RedbDispatcherMessage) (now : DateTime) :
    rowsOf json [⟨msg, 0, now⟩] = [] := by
  simp [rowsOf, Counted.row, prepare]

/-- A crowd of a multiple of `2 ^ 32` counts as nobody: the key of the first order is not
    recorded, and the handler is invoked for the second one too. -/
theorem exec_ordersToCrowd {n : Nat} (hpos : 0 < n) (hsmall : n ≤ 2 ^ 128) (hdvd : 2 ^ 32 ∣ n) :
    ∃ s', Transition.exec (stepLogged ordersJson {}) (boot ordersJson {} .empty, .empty)
        (ordersToCrowd n) = some s' ∧
      Transition.Along (stepLogged ordersJson {}) (fun s a => s.1.Promised ordersJson a)
        (boot ordersJson {} .empty, .empty) (ordersToCrowd n) ∧
      s'.2.keys = ["k", "k"] ∧ s'.2.invoked = [(0, "k"), (0, "k")] ∧
      s'.2.finished = [(0, 7), (0, 8)] := by
  obtain ⟨s₁, registered, hrun₁, hready₁, hcrowded₁, hdb₁, -⟩ :=
    exec_crowdArrives ordersJson n .empty (promised_crowdArrives n)
  have hcount : ∀ {t : PersistentBus}, t.Crowded n → ∀ id,
      t.manager.registry.subCount (orderWithKey id) = 0 := fun h id =>
    (h.subCount rfl).trans (Nat.mod_eq_zero_of_dvd hdvd)
  have hser₇ : (⟨⟨orderWithKey 7, none⟩, 0, 0⟩ : Counted).Serializes ordersJson :=
    ⟨[], by decide +kernel⟩
  have hser₈ : (⟨⟨orderWithKey 8, none⟩, 0, 0⟩ : Counted).Serializes ordersJson :=
    ⟨[0], by decide +kernel⟩
  obtain ⟨s₂, log₂, hexec₂, halong₂, hafter₂, hlogged₂⟩ := exec_oneMessage ordersJson
    { Log.empty with registered := registered } (orderWithKey 7)
    (C := fun s a => s.1.Promised ordersJson a) hready₁
    rfl (by rw [hdb₁]; exact fun _ _ => rfl) (hcrowded₁.senders rfl hpos hsmall)
    trivial (by
      rw [hcount hcrowded₁]
      exact fun a ha t _ => promised_oneMessage hser₇ a (List.mem_of_mem_tail ha) t)
  have hdb₂ := hafter₂.db
  rw [hcount hcrowded₁, rowsOf_uncounted, Db.insertRows_nil, hdb₁] at hdb₂
  have hcrowded₂ := hafter₂.crowded hcrowded₁
  obtain ⟨s₃, log₃, hexec₃, halong₃, -, hlogged₃⟩ := exec_oneMessage ordersJson
    log₂ (orderWithKey 8)
    (C := fun s a => s.1.Promised ordersJson a) hafter₂.ready
    rfl (by rw [hdb₂]; exact fun _ _ => rfl) (hcrowded₂.senders rfl hpos hsmall)
    trivial (by
      rw [hcount hcrowded₂]
      exact fun a ha t _ => promised_oneMessage hser₈ a (List.mem_of_mem_tail ha) t)
  have hrun := Transition.exec_along_append hrun₁
    (Transition.exec_along_append ⟨hexec₂, halong₂⟩ ⟨hexec₃, halong₃⟩)
  refine ⟨_, hrun.1, hrun.2, ?_, ?_, ?_⟩
  · rw [hlogged₃.keys, hlogged₂.keys]
    rfl
  · rw [hlogged₃.invoked, hlogged₂.invoked]
    rfl
  · rw [hlogged₃.finished, hlogged₂.finished]
    rfl

/-- With `2 ^ 32` subscriptions one handler is invoked for two orders with one key. -/
theorem not_oncePerKey_crowd :
    ∃ s', Transition.exec (stepLogged ordersJson {}) (boot ordersJson {} .empty, .empty)
        (ordersToCrowd (2 ^ 32)) = some s' ∧
      Transition.Along (stepLogged ordersJson {}) (fun s a => s.1.Promised ordersJson a)
        (boot ordersJson {} .empty, .empty) (ordersToCrowd (2 ^ 32)) ∧
      s'.2.invoked = [(0, "k"), (0, "k")] ∧ s'.2.finished = [(0, 7), (0, 8)] ∧
      ¬ OncePerKey s'.2 := by
  obtain ⟨n, hn⟩ : ∃ n, n = 2 ^ 32 := ⟨_, rfl⟩
  rw [← hn]
  obtain ⟨s', hexec, halong, hkeys, hinvoked, hfinished⟩ :=
    exec_ordersToCrowd (n := n) (by omega) (by omega) (by rw [hn])
  refine ⟨s', hexec, halong, hinvoked, hfinished, fun h => ?_⟩
  have hnodup := h.handed
  rw [hkeys] at hnodup
  simp at hnodup

/-- No call of the database fails in the step. -/
def NoFaults : Action → Prop
  | .worker (.check reads) => reads = fun _ => true
  | .worker (.write faults) => faults = noFaults
  | _ => True

/-- What is promised beside that: the counted messages serialize. -/
def Prepares (json : SerdeJson) (s : PersistentBus) : Action → Prop
  | .worker (.write _) =>
    ∀ msg ∈ s.worker.counted, (msg.envelope.persistedBytes json).isOk = true
  | a => s.KeepsSubscriptions a

instance (json : SerdeJson) (s : PersistentBus) : (a : Action) → Decidable (s.Prepares json a)
  | .worker (.write _) => inferInstanceAs (Decidable (∀ msg ∈ s.worker.counted, _))
  | .handler a => inferInstanceAs (Decidable (s.KeepsSubscriptions (.handler a)))
  | .worker .recv | .worker .tryRecv | .worker (.check _) | .worker (.count _)
  | .worker (.deliver _) | .worker (.push _) | .worker .dispatched | .worker .panic
  | .publisher _ | .scheduler _ | .replay _ | .control _ => isTrue trivial

theorem promised_of_prepares {a : Action} (hfaults : NoFaults a) (h : s.Prepares json a) :
    s.Promised json a := by
  cases a with
  | worker a =>
    cases a with
    | check reads =>
      obtain rfl : reads = fun _ => true := hfaults
      exact fun _ => rfl
    | write faults =>
      obtain rfl : faults = noFaults := hfaults
      intro done hphase
      refine ⟨fun counted hmem => ?_, fun _ _ => rfl⟩
      have hok := h counted.msg (by rw [hphase]; exact List.mem_map_of_mem hmem)
      cases hbytes : counted.msg.envelope.persistedBytes json with
      | ok bytes => exact ⟨bytes, hbytes⟩
      | error e =>
        rw [hbytes] at hok
        cases hok
    | _ => trivial
  | handler a => exact h
  | _ => trivial

/-- Order 8 comes in one batch with order 7, and once more after a crash. -/
def repeatedOrders : List Action :=
  crowdArrives 1 ++ [.publisher (.dispatch (orderWithKey 7)),
    .publisher (.dispatch (orderWithKey 8)), .worker .recv, .worker .tryRecv,
    .worker (.check fun _ => true), .worker (.count 0), .worker (.write noFaults),
    .worker (.deliver 0), .worker (.push 0), .worker .dispatched, .worker (.deliver 0),
    .handler (.take 0), .handler (.complete 0 true), .control .crash] ++
  crowdArrives 1 ++ [.publisher (.dispatch (orderWithKey 8)), .worker .recv,
    .worker (.check fun _ => true), .worker (.write noFaults), .worker (.deliver 0)]

/-- It is a duplicate of order 7 both times. -/
theorem oncePerKey_repeatedOrders :
    ∃ s', Transition.exec (stepLogged ordersJson {}) (boot ordersJson {} .empty, .empty)
        repeatedOrders = some s' ∧
      s'.2.published = [7, 8, 8] ∧ s'.2.handed = [7] ∧ s'.2.invoked = [(0, "k")] ∧
      OncePerKey s'.2 := by
  obtain ⟨s', hexec, hseen⟩ := Option.map_eq_some_iff.mp
    (by decide +kernel : (Transition.exec (stepLogged ordersJson {})
      (boot ordersJson {} .empty, .empty) repeatedOrders).map (fun s =>
        (s.2.published, s.2.handed, s.2.invoked)) = some ([7, 8, 8], [7], [(0, "k")]))
  simp only [Prod.mk.injEq] at hseen
  obtain ⟨hpublished, hhanded, hinvoked⟩ := hseen
  have hprepares : Transition.Along (stepLogged ordersJson {})
      (fun s a => s.1.Prepares ordersJson a ∧ s.1.CountsSomeone a)
      (boot ordersJson {} .empty, .empty) repeatedOrders := by
    decide +kernel
  have hfaults : ∀ a ∈ repeatedOrders, ∀ _ : PersistentBus × Log, NoFaults a := by
    simp [repeatedOrders, crowdArrives, crowd, NoFaults]
  have hrecords := (hprepares.and (Transition.along_of_forall hfaults _)).imp
    fun s a h => (⟨promised_of_prepares h.2 h.1.1, h.1.2⟩ : RecordsKeys ordersJson s a)
  exact ⟨s', hexec, hpublished, hhanded, hinvoked, oncePerKey_along hexec hrecords⟩

end PersistentBus
end TokioEvents
