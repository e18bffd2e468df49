/-
  TokioEvents.Persistence.Orphans

  What `replay_pending` enqueues.  It is meant for orphans, the events that were saved
  and not dispatched before a crash, and scans `EVENTS_TABLE` for them; but the rows of
  events on their way through the current process are in the same table, and nothing
  tells them apart.

  An event has a ticket (`Bus.Tickets`) until it is handed to `dispatch`, and a delivery
  has a place (`Bus.Log`) from then on.  As long as a replay call finds alive only
  events that have neither, and nobody else brings one of these in before the call has
  sent it, no event that a call enqueues has a place, and none gets one before it is
  handed on itself.
-/

import TokioEvents.Persistence.Bus.Crowd
import TokioEvents.Persistence.Bus.Tickets
import TokioEvents.Registry.Invariant

namespace TokioEvents

/-- What has happened since the process started. -/
structure Process where
  log : Log
  /-- Events that `replay_pending` has sent, and that were not handed to `dispatch` since. -/
  replayed : List Uuid
  /-- Events that a publisher, the scheduler or `replay_dlq` put into the queue although
      the process had them already. -/
  repeated : List Uuid

namespace PersistentBus

variable {json : SerdeJson} {config : BusConfig} {s s' : PersistentBus} {log : Log} {p : Process}

/-- The event a call of `replay_pending` is enqueuing. -/
def enqueuing : Replay → Option Uuid
  | .pendingSend envelope _ _ => some envelope.eventId
  | _ => none

/-- The event of a call of `replay_pending` whose send the step completes. -/
def replaySent (s : PersistentBus) : Action → List Uuid
  | .replay (.send index) => (s.replays[index]?.bind enqueuing).toList
  | _ => []

/-- The events a step puts into the queue although the process has them. -/
def repeats (json : SerdeJson) (s : PersistentBus) (a : Action) (s' : PersistentBus) (log : Log) :
    List Uuid :=
  match a with
  | .replay .pending => []
  | a => (injects json s a).filter fun e =>
    decide ((tickets json s e ≠ 0 ∨ e ∈ log.handed) ∧ tickets json s e < tickets json s' e)

/-- What a step adds; a crash is the end of the process. -/
def recordArrivals (json : SerdeJson) (s : PersistentBus) (a : Action) (s' : PersistentBus)
    (p : Process) : Process :=
  match a with
  | .control .crash => ⟨.empty, [], []⟩
  | a =>
    let log := record json s a s' p.log
    { log := log
      replayed := (p.replayed ++ s.replaySent a).filter fun e =>
        decide (log.handed.count e = p.log.handed.count e)
      repeated := p.repeated ++ repeats json s a s' p.log }

/-- The system with what has happened in the current process. -/
def stepArrivals (json : SerdeJson) (config : BusConfig) :
    PersistentBus × Process → Action → Option (PersistentBus × Process) :=
  Transition.withHistory (step json config) (recordArrivals json)

/-- Some delivery of the event is still to be sent, waits for its handler, is at work, or
    is not acknowledged. -/
def InFlight (s : PersistentBus) (e : Uuid) : Prop :=
  (∃ i, unsent s.worker i e + buffered s.manager.subscriptions i e + left s.closed i e
    + atWork s.busy i e ≠ 0) ∨ acksOf s e ≠ 0

/-- `replay_pending` re-injects only orphans. -/
structure OnlyOrphans (s : PersistentBus) (p : Process) : Prop where
  /-- What a replay call is enqueuing is not in flight, and no message of it is ahead. -/
  enqueued : ∀ e ∈ s.replays.filterMap enqueuing, ¬ s.InFlight e ∧ messagesOf s.messages e = 0
  /-- What it has enqueued is not in flight until it is dispatched, so the write step
      resets no refcount of an event in flight. -/
  written : ∀ e ∈ p.replayed, ¬ s.InFlight e
  /-- No handler has taken what a replay call brings in. -/
  fresh : ∀ e ∈ s.replays.filterMap enqueuing ++ p.replayed, ∀ i, (i, e) ∉ p.log.taken
  /-- No handler is invoked twice for an event, but where others brought it in again. -/
  invoked : ∀ i e, p.log.taken.count (i, e) ≤ 1 + p.repeated.count e

/-! ## The conditions -/

/-- The events `replay_pending` would find alive. -/
def alive (json : SerdeJson) (s : PersistentBus) : List Uuid :=
  s.db.pendingRows.filterMap (awaitedRow json)

/-- The process has nothing of the event: no ticket, and no delivery that is on its way to
    a handler or was taken by one. -/
def Orphaned (json : SerdeJson) (s : PersistentBus) (log : Log) (e : Uuid) : Prop :=
  tickets json s e = 0 ∧ ∀ i, load s log i e = 0

/-- Ids of subscriptions are not used twice. -/
def NewIds (log : Log) : Action → Prop
  | .handler (.registry op) => ∀ id ∈ op.registeredId, id ∉ log.registered
  | _ => True

instance (log : Log) : (a : Action) → Decidable (NewIds log a)
  | .handler (.registry op) =>
    match h : op.registeredId with
    | none => isTrue fun id hid => absurd (h.symm.trans hid) (by simp)
    | some id =>
      decidable_of_iff (id ∉ log.registered)
        ⟨fun hnew id' hid => Option.some.inj (h.symm.trans hid) ▸ hnew, fun hnew => hnew id h⟩
  | .handler (.openChannel _) | .handler (.removeChannel _) | .handler (.closeChannel _)
  | .handler (.take _) | .handler (.complete _ _) | .handler (.exit _)
  | .handler (.ack _) => isTrue trivial
  | .publisher _ | .worker _ | .scheduler _ | .replay _ | .control _ => isTrue trivial

/-- `replay_pending` is called when what it finds alive is orphaned, each event in one row;
    and nobody else brings in an event that a call has found and not sent yet. -/
def FindsOrphans (json : SerdeJson) (s : PersistentBus) (log : Log) : Action → Prop
  | .replay .pending => ∀ e ∈ s.alive json, (s.alive json).count e = 1 ∧ s.Orphaned json log e
  | a => ∀ e ∈ injects json s a, awaitedOf json s.replays e = 0

/-- Both hold of the step. -/
def ReplaysOrphans (json : SerdeJson) (s : PersistentBus × Process) (a : Action) : Prop :=
  NewIds s.2.log a ∧ s.1.FindsOrphans json s.2.log a

theorem FindsOrphans.awaited {a : Action} (h : s.FindsOrphans json log a)
    (ha : a ≠ .replay .pending) : ∀ e ∈ injects json s a, awaitedOf json s.replays e = 0 := by
  unfold FindsOrphans at h
  split at h
  · exact absurd rfl ha
  · exact h

theorem recordArrivals_of_ne_crash {a : Action} (ha : a ≠ .control .crash) :
    recordArrivals json s a s' p =
      { log := record json s a s' p.log
        replayed := (p.replayed ++ s.replaySent a).filter fun e =>
          decide ((record json s a s' p.log).handed.count e = p.log.handed.count e)
        repeated := p.repeated ++ repeats json s a s' p.log } := by
  unfold recordArrivals
  split
  · exact absurd rfl ha
  · rfl

/-! ## The lists of subscriptions -/

/-- **One step** that uses no id twice keeps the registry well-formed. -/
theorem wf_step {a : Action} (hwf : s.manager.registry.inner.Wf log.registered)
    (h : step json config s a = some s') (hC : NewIds log a) :
    s'.manager.registry.inner.Wf (recordProcess json s a s' log).registered := by
  have hsame : s'.manager.registry = s.manager.registry →
      (recordProcess json s a s' log).registered = log.registered →
      s'.manager.registry.inner.Wf (recordProcess json s a s' log).registered := by
    intro hregistry hregistered
    rw [hregistry, hregistered]
    exact hwf
  cases a with
  | publisher a =>
    have hmanager := (stepPublisher_frame h).2.manager
    cases a <;> exact hsame (by rw [hmanager]) rfl
  | worker a =>
    refine hsame (stepWorker_sameTasks h).registry ?_
    cases a <;> simp only [recordProcess, record]
    all_goals repeat' split
    all_goals rfl
  | scheduler a => exact hsame (by rw [(stepScheduler_frame h).2.1.manager]) rfl
  | replay a =>
    refine hsame (by rw [(stepReplay_frame h).2.1.manager]) ?_
    cases a <;> rfl
  | control a =>
    by_cases hcrash : a = .crash
    · subst hcrash
      cases h
      exact DashMapRegistry.wf_new
    · refine hsame (by rw [(stepControl_sameWork h hcrash).manager]) ?_
      cases a <;> first | rfl | exact absurd rfl hcrash
  | handler a =>
    cases a with
    | registry op =>
      cases h
      show ((op.apply s.manager.registry).inner).Wf (log.registered ++ op.registeredId.toList)
      rw [RedbRegistry.inner_apply]
      exact hwf.apply hC
    | openChannel id =>
      obtain ⟨-, rfl⟩ := openChannel_cases h
      exact hsame rfl rfl
    | removeChannel id =>
      cases h
      exact hsame rfl rfl
    | closeChannel id =>
      obtain ⟨data, -, rfl⟩ := closeChannel_cases h
      exact hsame rfl rfl
    | take id =>
      obtain ⟨-, envelope, rest, ⟨-, rfl⟩ | ⟨-, rfl⟩⟩ := handlerTake_cases h
      · exact hsame rfl rfl
      · exact hsame rfl rfl
    | complete id isSuccess =>
      obtain ⟨envelope, registry, -, -, hinner, rfl⟩ := handlerComplete_cases h
      show registry.inner.Wf log.registered
      rw [hinner]
      cases isSuccess with
      | false => exact hwf
      | true => exact hwf.incrementProcessed id
    | exit id =>
      cases h
      exact hsame rfl rfl
    | ack commits =>
      obtain ⟨completion, rest, -, rfl⟩ := ack_step_cases h
      exact hwf

/-- `dispatch` selects no subscription twice. -/
theorem senders_count_le_one {used : List Uuid} (hwf : s.manager.registry.inner.Wf used)
    (envelope : EventEnvelope) (i : Uuid) : (s.manager.senders envelope).count i ≤ 1 :=
  (senders_count_le s envelope i).trans
    (List.nodup_iff_count_le_one.mp (hwf.nodup envelope.typeId) i)

/-! ## What happens to an event -/

/-- **One step** hands an event to `dispatch`, which selects subscriptions for it, or
    selects nobody for it. -/
theorem handed_step (log : Log) {a : Action} (h : step json config s a = some s') (e : Uuid) :
    ((record json s a s' log).handed.count e = log.handed.count e ∧
      ∀ i, (record json s a s' log).sent.count (i, e) = log.sent.count (i, e)) ∨
    ((record json s a s' log).handed.count e = log.handed.count e + 1 ∧
      ∃ envelope, ∀ i, (record json s a s' log).sent.count (i, e)
        = log.sent.count (i, e) + (s.manager.senders envelope).count i) := by
  by_cases ha : ∃ now, a = .worker (.deliver now)
  · obtain ⟨now, rfl⟩ := ha
    obtain ⟨hphase, -⟩ | ⟨msg, rest, hphase, ⟨hscheduled, -⟩ | ⟨hdue, -⟩⟩ := deliver_cases h
    · simp [record, hphase]
    · simp [record, hphase, hscheduled]
    · simp only [record, hphase, hdue, Bool.false_eq_true, ↓reduceIte, List.count_append,
        count_withEvent, List.count_singleton, beq_iff_eq]
      by_cases he : msg.envelope.eventId = e
      · exact .inr ⟨by rw [if_pos he], msg.envelope, fun i => by rw [if_pos he]⟩
      · exact .inl ⟨by rw [if_neg he, Nat.add_zero], fun i => by rw [if_neg he, Nat.add_zero]⟩
  · obtain ⟨hhanded, hsent, -⟩ :=
      record_of_not_deliver json s s' log
        fun now h => ha ⟨now, h⟩
    exact .inl ⟨by rw [hhanded], fun i => by rw [hsent]⟩

/-- Nobody but `replay_pending` brings in two events at once. -/
theorem count_injects_le_one {a : Action} (ha : a ≠ .replay .pending) (e : Uuid) :
    (injects json s a).count e ≤ 1 := by
  have hone : ∀ e', [e'].count e ≤ 1 := fun e' => List.count_le_length
  unfold injects
  split
  · exact hone _
  · exact hone _
  · split
    · exact hone _
    · exact Nat.zero_le _
  · exact absurd rfl ha
  · split
    · exact hone _
    · exact Nat.zero_le _
  · exact Nat.zero_le _

theorem load_of_handed_eq {a : Action} (h : PersistentBus.step json config s a = some s') {e : Uuid}
    (hsame : (record json s a s' log).handed.count e = log.handed.count e) (i : Uuid) :
    load s' (record json s a s' log) i e ≤ load s log i e := by
  have := load_step log h i e
  rcases handed_step log h e with ⟨-, hsent⟩ | ⟨hone, -⟩
  · have := hsent i
    omega
  · omega

/-- A replay call that is going to send an event holds a ticket for it. -/
theorem awaitedOf_le_tickets (json : SerdeJson) (s : PersistentBus) (e : Uuid) :
    awaitedOf json s.replays e ≤ tickets json s e := by
  unfold tickets entering
  omega

theorem awaitedOf_pos_of_enqueuing {replay : Replay} {index : Nat} {e : Uuid}
    (hreplay : s.replays[index]? = some replay) (he : enqueuing replay = some e) :
    0 < awaitedOf json s.replays e := by
  have hawaited := awaitedOf_eraseIdx json hreplay e
  unfold enqueuing at he
  split at he <;> cases he
  simp only [Replay.awaited, List.count_cons_self] at hawaited
  omega

theorem mem_replaySent {a : Action} {e : Uuid} (h : e ∈ s.replaySent a) :
    0 < awaitedOf json s.replays e := by
  unfold replaySent at h
  split at h
  · obtain ⟨replay, hreplay, he⟩ := Option.bind_eq_some_iff.mp (Option.mem_toList.mp h)
    exact awaitedOf_pos_of_enqueuing hreplay he
  · cases h

/-! ## The invariant -/

/-- What holds in every state of a run in which replay calls find orphans. -/
structure OrphansSafe (json : SerdeJson) (s : PersistentBus) (p : Process) : Prop where
  registry : s.manager.registry.inner.Wf p.log.registered
  accounts : s.Accounts p.log
  /-- What a replay call is going to send has no other ticket, and no place. -/
  awaited : ∀ e, awaitedOf json s.replays e ≠ 0 →
    tickets json s e ≤ 1 ∧ ∀ i, load s p.log i e = 0
  replayed : ∀ e ∈ p.replayed, ∀ i, load s p.log i e = 0
  /-- A ticket is traded for one place at most of each subscription. -/
  once : ∀ e i, tickets json s e + load s p.log i e ≤ 1 + p.repeated.count e

theorem orphansSafe_boot (json : SerdeJson) (config : BusConfig) (db : Db) :
    (boot json config db).OrphansSafe json ⟨.empty, [], []⟩ where
  registry := DashMapRegistry.wf_new
  accounts := accounts_boot json config db
  awaited e h := absurd rfl h
  replayed e h := absurd h List.not_mem_nil
  once e i := by
    simp [tickets, entering, boot, Mpsc.Channel.new, Worker.messages, load, Log.empty, buffered,
      left, unsent]

/-- A process that starts after a crash has nothing. -/
theorem orphansSafe_crash (json : SerdeJson) (config : BusConfig) (s : PersistentBus) :
    (s.crash json config).OrphansSafe json ⟨.empty, [], []⟩ := by
  have hboot := orphansSafe_boot json config s.db
  exact ⟨hboot.registry, accounts_crash json config s, hboot.awaited, hboot.replayed, hboot.once⟩

/-- What a replay call is going to send stays without a place. -/
theorem OrphansSafe.awaited_step {a : Action} (hI : s.OrphansSafe json p)
    (h : PersistentBus.step json config s a = some s') (hC : s.FindsOrphans json p.log a) {e : Uuid}
    (hawaited : awaitedOf json s'.replays e ≠ 0) :
    tickets json s' e ≤ 1 ∧ ∀ i, load s' (record json s a s' p.log) i e = 0 := by
  have htickets := tickets_step p.log h e
  have hheld := awaitedOf_le_tickets json s' e
  -- before the step there is nothing but the ticket it has, or is going to get
  have hbefore : tickets json s e + (injects json s a).count e ≤ 1 ∧
      ∀ i, load s p.log i e = 0 := by
    by_cases hmem : e ∈ injects json s a
    · by_cases hpending : a = .replay .pending
      · subst hpending
        obtain ⟨hone, hnone, hplaces⟩ := hC e hmem
        exact ⟨by rw [hnone, Nat.zero_add]; exact hone.le, hplaces⟩
      · have := awaitedOf_step h hpending e
        have := hC.awaited hpending e hmem
        omega
    · have hzero := List.count_eq_zero.mpr hmem
      have hle : awaitedOf json s'.replays e ≤ awaitedOf json s.replays e := by
        by_cases hpending : a = .replay .pending
        · subst hpending
          rw [awaitedOf_pending h, hzero, Nat.add_zero]
        · exact awaitedOf_step h hpending e
      rw [hzero]
      exact hI.awaited e (by omega)
  obtain ⟨hone, hplaces⟩ := hbefore
  have hsame : (record json s a s' p.log).handed.count e = p.log.handed.count e := by
    rcases handed_step p.log h e with ⟨hsame, -⟩ | ⟨hhanded, -⟩
    · exact hsame
    · -- its only ticket would be gone
      omega
  refine ⟨by omega, fun i => ?_⟩
  exact Nat.le_zero.mp ((load_of_handed_eq h hsame i).trans_eq (hplaces i))

/-- What was sent stays without a place until it is handed on. -/
theorem OrphansSafe.replayed_step {a : Action} (hI : s.OrphansSafe json p)
    (h : PersistentBus.step json config s a = some s') {e : Uuid}
    (hmem : e ∈ p.replayed ++ s.replaySent a)
    (hsame : (record json s a s' p.log).handed.count e = p.log.handed.count e) (i : Uuid) :
    load s' (record json s a s' p.log) i e = 0 := by
  have hplaces : load s p.log i e = 0 := by
    rcases List.mem_append.mp hmem with hold | hnew
    · exact hI.replayed e hold i
    · exact (hI.awaited e (Nat.pos_iff_ne_zero.mp (mem_replaySent hnew))).2 i
  exact Nat.le_zero.mp ((load_of_handed_eq h hsame i).trans_eq hplaces)

/-- An event that arrives is new to the process, or a replay call has found nothing of it, or
    it is put into the queue again, unless it is refused. -/
theorem OrphansSafe.arrives {a : Action} (hI : s.OrphansSafe json p)
    (hC : s.FindsOrphans json p.log a) (s' : PersistentBus) {e : Uuid}
    (hmem : e ∈ injects json s a) :
    (injects json s a).count e ≤ 1 ∧ (s.Orphaned json p.log e ∨
      0 < (repeats json s a s' p.log).count e ∨ tickets json s' e ≤ tickets json s e) := by
  by_cases hpending : a = .replay .pending
  · subst hpending
    obtain ⟨hone, horphaned⟩ := hC e hmem
    exact ⟨hone.le, .inl horphaned⟩
  · refine ⟨count_injects_le_one hpending e, ?_⟩
    by_cases hhas : tickets json s e ≠ 0 ∨ e ∈ p.log.handed
    · right
      by_cases hrefused : tickets json s' e ≤ tickets json s e
      · exact .inr hrefused
      have hrepeats : repeats json s a s' p.log = (injects json s a).filter fun e =>
          decide ((tickets json s e ≠ 0 ∨ e ∈ p.log.handed) ∧
            tickets json s e < tickets json s' e) := by
        unfold repeats
        split
        · exact absurd rfl hpending
        · rfl
      rw [hrepeats, List.count_pos_iff]
      exact .inl (List.mem_filter.mpr
        ⟨hmem, decide_eq_true ⟨hhas, Nat.lt_of_not_le hrefused⟩⟩)
    · rw [not_or, not_not] at hhas
      exact .inl ⟨hhas.1, (hI.accounts.untouched hhas.2).load⟩

/-- A ticket is traded for one place of a subscription, and a replay call brings in one where
    there is neither. -/
theorem OrphansSafe.once_step {a : Action} (hI : s.OrphansSafe json p)
    (h : PersistentBus.step json config s a = some s') (hC : s.FindsOrphans json p.log a)
    (e i : Uuid) :
    tickets json s' e + load s' (record json s a s' p.log) i e
      ≤ 1 + (p.repeated ++ repeats json s a s' p.log).count e := by
  have htickets := tickets_step p.log h e
  have hload := load_step p.log h i e
  have honce := hI.once e i
  rw [List.count_append]
  by_cases hmem : e ∈ injects json s a
  · have hnot : ∀ b, a ≠ .worker b := by
      rintro b rfl
      cases hmem
    obtain ⟨-, -, -, hhanded, hsent⟩ := record_of_not_worker json s s' p.log hnot
    rw [hhanded] at htickets
    rw [hsent] at hload
    obtain ⟨hone, ⟨hnone, hplaces⟩ | hrepeated | hrefused⟩ := hI.arrives hC s' hmem
    · have := hplaces i
      omega
    · omega
    · omega
  · rw [List.count_eq_zero.mpr hmem] at htickets
    rcases handed_step p.log h e with ⟨hsame, hsent⟩ | ⟨hone, envelope, hsent⟩
    · have := hsent i
      omega
    · have := hsent i
      have := senders_count_le_one hI.registry envelope i
      omega

/-- **One step** in which a replay call finds orphans. -/
theorem OrphansSafe.step {a : Action} (hI : s.OrphansSafe json p)
    (h : PersistentBus.step json config s a = some s') (hC : ReplaysOrphans json (s, p) a) :
    s'.OrphansSafe json (recordArrivals json s a s' p) := by
  by_cases hcrash : a = .control .crash
  · subst hcrash
    cases h
    exact orphansSafe_crash json config s
  obtain ⟨hnew, hfinds⟩ := hC
  have hwf := wf_step hI.registry h hnew
  rw [recordProcess_of_ne_crash hcrash] at hwf
  rw [recordArrivals_of_ne_crash hcrash]
  constructor
  case registry => exact hwf
  case accounts => exact hI.accounts.step h
  case awaited => exact fun e => hI.awaited_step h hfinds
  case replayed =>
    intro e hmem
    obtain ⟨hmem, hsame⟩ := List.mem_filter.mp hmem
    exact hI.replayed_step h hmem (of_decide_eq_true hsame)
  case once => exact hI.once_step h hfinds

/-! ## Runs -/

/-- What has no place is not in flight. -/
theorem OrphansSafe.not_inFlight {e : Uuid} (h : s.OrphansSafe json p)
    (hload : ∀ i, load s p.log i e = 0) : ¬ s.InFlight e := by
  obtain ⟨hwork, -, hacks⟩ := h.accounts.resting hload
  rintro (⟨i, hplace⟩ | hunacknowledged)
  · have := hload i
    have := hwork i
    unfold load at *
    omega
  · exact hunacknowledged hacks

theorem not_mem_taken {e i : Uuid} (hload : load s log i e = 0) : (i, e) ∉ log.taken := by
  rw [← List.count_eq_zero]
  unfold load at hload
  omega

theorem OrphansSafe.onlyOrphans (h : s.OrphansSafe json p) : OnlyOrphans s p := by
  have hawaited : ∀ e ∈ s.replays.filterMap enqueuing, 0 < awaitedOf json s.replays e := by
    intro e hmem
    obtain ⟨replay, hreplay, he⟩ := List.mem_filterMap.mp hmem
    obtain ⟨index, hindex⟩ := List.mem_iff_getElem?.mp hreplay
    exact awaitedOf_pos_of_enqueuing hindex he
  constructor
  case enqueued =>
    intro e hmem
    have hpos := hawaited e hmem
    obtain ⟨hone, hload⟩ := h.awaited e (Nat.pos_iff_ne_zero.mp hpos)
    refine ⟨h.not_inFlight hload, ?_⟩
    rw [PersistentBus.messages, messagesOf_append]
    unfold tickets entering at hone
    omega
  case written => exact fun e hmem => h.not_inFlight (h.replayed e hmem)
  case fresh =>
    intro e hmem i
    rcases List.mem_append.mp hmem with henqueuing | hsent
    · exact not_mem_taken ((h.awaited e (Nat.pos_iff_ne_zero.mp (hawaited e henqueuing))).2 i)
    · exact not_mem_taken (h.replayed e hsent i)
  case invoked =>
    intro i e
    have := h.once e i
    unfold load at this
    omega

/-- Every run in which replay calls find orphans. -/
theorem orphansSafe_along {db : Db} {as : List Action} {s' : PersistentBus × Process}
    (hexec : Transition.exec (stepArrivals json config) (boot json config db, ⟨.empty, [], []⟩) as
      = some s')
    (hC : Transition.Along (stepArrivals json config) (ReplaysOrphans json)
      (boot json config db, ⟨.empty, [], []⟩) as) :
    s'.1.OrphansSafe json s'.2 := by
  refine Transition.invariant_along (I := fun s => s.1.OrphansSafe json s.2) ?_
    (orphansSafe_boot json config db) hC hexec
  rintro s a s' hI horphans hs
  obtain ⟨hstep, hlog⟩ := Transition.withHistory_eq_some.mp hs
  rw [hlog]
  exact hI.step hstep horphans

/-- **When only orphans are re-injected.** In a run, with any crashes, in which
    `replay_pending` is called only when what it finds alive is orphaned, it enqueues no
    event that is in flight, resets no refcount of one, and has no handler invoked twice. -/
theorem onlyOrphans_along {db : Db} {as : List Action} {s' : PersistentBus × Process}
    (hexec : Transition.exec (stepArrivals json config) (boot json config db, ⟨.empty, [], []⟩) as
      = some s')
    (hC : Transition.Along (stepArrivals json config) (ReplaysOrphans json)
      (boot json config db, ⟨.empty, [], []⟩) as) :
    OnlyOrphans s'.1 s'.2 :=
  (orphansSafe_along hexec hC).onlyOrphans

/-! ## An order that is running -/

/-- An order is published and dispatched, its handler takes it, and `replay_pending` is
    called before it is done. -/
def replayWhileRunning : List Action :=
  crowdArrives 1 ++
    [.publisher (.dispatch order), .worker .recv, .worker (.check fun _ => true),
      .worker (.count 0), .worker (.write noFaults), .worker (.deliver 0), .worker (.push 0),
      .handler (.take 0), .replay .pending, .replay (.visit 0)]

/-- The order is enqueued, written and dispatched again, and its handler takes it again
    when it is done with it. -/
def takenAgain : List Action :=
  [.replay (.send 0), .worker .dispatched, .worker (.deliver 0), .worker .recv,
    .worker (.check fun _ => true), .worker (.count 0), .worker (.write noFaults),
    .worker (.deliver 0), .worker (.push 0), .handler (.complete 0 true), .handler (.take 0)]

/-- An order that is running is enqueued again, and its handler is invoked twice. -/
theorem not_onlyOrphans_running :
    ∃ s₁ s₂, Transition.exec (stepArrivals orderJson {}) (boot orderJson {} .empty, ⟨.empty, [], []⟩)
        replayWhileRunning = some s₁ ∧
      Transition.exec (stepArrivals orderJson {}) s₁ takenAgain = some s₂ ∧
      Transition.Along (stepArrivals orderJson {}) (fun s => NewIds s.2.log)
        (boot orderJson {} .empty, ⟨.empty, [], []⟩) (replayWhileRunning ++ takenAgain) ∧
      ¬ OnlyOrphans s₁.1 s₁.2 ∧ s₂.2.log.taken = [(0, 7), (0, 7)] ∧ ¬ OnlyOrphans s₂.1 s₂.2 := by
  obtain ⟨s₁, h₁⟩ : ∃ s₁, Transition.exec (stepArrivals orderJson {})
      (boot orderJson {} .empty, ⟨.empty, [], []⟩) replayWhileRunning = some s₁ :=
    Option.isSome_iff_exists.mp (by decide +kernel)
  obtain ⟨s₂, h₂⟩ : ∃ s₂, Transition.exec (stepArrivals orderJson {})
      (boot orderJson {} .empty, ⟨.empty, [], []⟩) (replayWhileRunning ++ takenAgain) = some s₂ :=
    Option.isSome_iff_exists.mp (by decide +kernel)
  have henqueuing : (Transition.exec (stepArrivals orderJson {})
      (boot orderJson {} .empty, ⟨.empty, [], []⟩) replayWhileRunning).map (fun s =>
        (s.1.replays.filterMap enqueuing, atWork s.1.busy 0 7)) = some ([7], 1) := by
    decide +kernel
  have htaken : (Transition.exec (stepArrivals orderJson {})
      (boot orderJson {} .empty, ⟨.empty, [], []⟩) (replayWhileRunning ++ takenAgain)).map (fun s =>
        (s.2.log.taken, s.2.repeated)) = some ([(0, 7), (0, 7)], []) := by
    decide +kernel
  rw [h₁] at henqueuing
  rw [h₂] at htaken
  simp only [Option.map_some, Option.some.injEq, Prod.mk.injEq] at henqueuing htaken
  refine ⟨s₁, s₂, h₁, (Transition.exec_append_of_exec _ h₁).symm.trans h₂, ?_, fun h => ?_,
    htaken.1, fun h => ?_⟩
  · decide +kernel
  · refine (h.enqueued 7 ?_).1 (.inl ⟨0, ?_⟩)
    · rw [henqueuing.1]
      exact List.mem_cons_self
    · have := henqueuing.2
      omega
  · have hle := h.invoked 0 7
    rw [htaken.1, htaken.2] at hle
    revert hle
    decide

/-! ## Orphans -/

/-- The step begins a call of `replay_pending`. -/
def beginsReplay : Action → Bool
  | .replay .pending => true
  | _ => false

/-- What suffices of a step, by what the process has handed on. -/
def FindsUnhanded (json : SerdeJson) (s : PersistentBus × Process) (a : Action) : Prop :=
  NewIds s.2.log a ∧
    if beginsReplay a then
      ∀ e ∈ s.1.alive json,
        (s.1.alive json).count e = 1 ∧ tickets json s.1 e = 0 ∧ e ∉ s.2.log.handed
    else ∀ e ∈ injects json s.1 a, awaitedOf json s.1.replays e = 0

instance (json : SerdeJson) (s : PersistentBus × Process) (a : Action) :
    Decidable (FindsUnhanded json s a) :=
  -- the lists are gone through, and not all ids
  @instDecidableAnd _ _ inferInstance
    (@instDecidableIte _ _ _ inferInstance (List.decidableBAll _ _) (List.decidableBAll _ _))

theorem replaysOrphans_of_unhanded {s : PersistentBus × Process} {a : Action}
    (hI : s.1.Accounts s.2.log) (h : FindsUnhanded json s a) : ReplaysOrphans json s a := by
  obtain ⟨hnew, hfinds⟩ := h
  refine ⟨hnew, ?_⟩
  unfold beginsReplay at hfinds
  split at hfinds
  · intro e hmem
    obtain ⟨hone, hnone, hunhanded⟩ := hfinds e hmem
    exact ⟨hone, hnone, (hI.untouched hunhanded).load⟩
  · unfold FindsOrphans
    split
    · rename_i hother
      exact absurd rfl hother
    · exact hfinds

theorem accounts_stepArrivals {s s' : PersistentBus × Process} {a : Action}
    (hI : s.1.Accounts s.2.log) (h : stepArrivals json config s a = some s') :
    s'.1.Accounts s'.2.log := by
  obtain ⟨hstep, hrecord⟩ := Transition.withHistory_eq_some.mp h
  rw [hrecord]
  by_cases hcrash : a = .control .crash
  · subst hcrash
    rw [← Option.some.inj hstep]
    exact accounts_crash json config s.1
  · rw [recordArrivals_of_ne_crash hcrash]
    exact hI.step hstep

/-- An order. -/
def orderOf (id : Uuid) : EventEnvelope :=
  .fromSerialized 1 "OrderEvent" { eventId := id, timestamp := 0 } .normal []

/-- The bytes of the orders 6, 7, 8 and 9. -/
def fourOrdersJson : SerdeJson :=
  .ofList ([6, 7, 8, 9].map fun id => ⟨"OrderEvent", { eventId := id, timestamp := 0 }, .normal, []⟩)

/-- Three orders were written before a crash. -/
def orphanedOrders : Db :=
  { Db.empty with
    events := (((∅ : Table Uuid Bytes).insert 6 []).insert 7 [0]).insert 8 [0, 0]
    refcount := (((∅ : Table Uuid Nat).insert 6 1).insert 7 1).insert 8 1 }

/-- Their subscriber is there again.  After the call has begun, order 9 is published,
    dispatched and taken; 6 is enqueued, dispatched and taken after it, 7 is in the queue,
    and 8 is being enqueued. -/
def replayOrphans : List Action :=
  crowdArrives 1 ++ [.replay .pending, .replay (.visit 0), .publisher (.dispatch (orderOf 9)),
    .worker .recv, .worker (.check fun _ => true), .worker (.count 0), .worker (.write noFaults),
    .worker (.deliver 0), .worker (.push 0), .handler (.take 0), .replay (.send 0),
    .worker .dispatched, .worker (.deliver 0), .worker .recv, .worker (.check fun _ => true),
    .worker (.count 0), .worker (.write noFaults), .worker (.deliver 0), .worker (.push 0),
    .handler (.complete 0 true), .handler (.take 0), .replay (.visit 0), .replay (.send 0),
    .replay (.visit 0)]

theorem onlyOrphans_replayOrphans :
    ∃ s', Transition.exec (stepArrivals fourOrdersJson {})
        (boot fourOrdersJson {} orphanedOrders, ⟨.empty, [], []⟩) replayOrphans = some s' ∧
      s'.2.log.taken = [(0, 9), (0, 6)] ∧ s'.2.replayed = [7] ∧
      s'.1.replays.filterMap enqueuing = [8] ∧ s'.2.repeated = [] ∧ OnlyOrphans s'.1 s'.2 := by
  obtain ⟨s', hexec, hseen⟩ := Option.map_eq_some_iff.mp
    (by decide +kernel : (Transition.exec (stepArrivals fourOrdersJson {})
      (boot fourOrdersJson {} orphanedOrders, ⟨.empty, [], []⟩) replayOrphans).map (fun s =>
        (s.2.log.taken, s.2.replayed, s.1.replays.filterMap enqueuing, s.2.repeated))
      = some ([(0, 9), (0, 6)], [7], [8], []))
  simp only [Prod.mk.injEq] at hseen
  obtain ⟨htaken, hreplayed, henqueuing, hrepeated⟩ := hseen
  have halong : Transition.Along (stepArrivals fourOrdersJson {}) (FindsUnhanded fourOrdersJson)
      (boot fourOrdersJson {} orphanedOrders, ⟨.empty, [], []⟩) replayOrphans := by
    decide +kernel
  have hfinds := halong.imp_of_invariant (I := fun s => s.1.Accounts s.2.log)
    (fun _ _ _ => accounts_stepArrivals) (fun _ _ => replaysOrphans_of_unhanded)
    (accounts_boot fourOrdersJson {} orphanedOrders)
  exact ⟨s', hexec, htaken, hreplayed, henqueuing, hrepeated, onlyOrphans_along hexec hfinds⟩

end PersistentBus
end TokioEvents
