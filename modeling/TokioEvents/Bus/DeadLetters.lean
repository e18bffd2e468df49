/-
  TokioEvents.Bus.DeadLetters

  What is in the dead letter queue: events on which a handler has failed on every attempt
  that the configuration gives it, `max_retries + 1` of them, and which it has never
  acknowledged.  A panic, an abort or a dropped channel puts nothing there.
-/

import TokioEvents.Bus.Provenance

namespace TokioEvents

/-! ## One subscription -/

namespace Journal

/-- The events that were acknowledged. -/
def acked (j : Journal) : List Nat := j.events [.acked]

/-- The events that were sent to the dead letter queue. -/
def deadLettered (j : Journal) : List Nat := j.events [.deadLettered]

/-- How often the handler was called with the events it has in hand or is through with. -/
structure Tried (config : EventBusConfig) (j : Journal) : Prop where
  fresh : ∀ e, e ∉ j.started → j.attempted.count e = 0
  handling : ∀ channel event n, j.task = some (channel, .handling event n) →
    j.attempted.count event.addr = n + 1 ∧ n ≤ config.maxRetries
  backingOff : ∀ channel event n, j.task = some (channel, .backingOff event n) →
    j.attempted.count event.addr = n ∧ n ≤ config.maxRetries
  deadLettering : ∀ channel event, j.task = some (channel, .deadLettering event) →
    j.attempted.count event.addr = config.maxRetries + 1
  deadLettered : ∀ e ∈ j.deadLettered, j.attempted.count e = config.maxRetries + 1
  acked : ∀ e ∈ j.acked, 0 < j.attempted.count e ∧ j.attempted.count e ≤ config.maxRetries + 1
  failed : j.events [.failed] = j.deadLettered

section Steps

variable {config : EventBusConfig} {a : Option MemoryBus.HandlerAction} {j j' : Journal}

theorem mem_handled {e : Nat} : e ∈ j.handled ↔ e ∈ j.acked ∨ e ∈ j.events [.failed] := by
  simp only [handled, acked, events, List.mem_map, List.mem_filter, List.mem_cons,
    List.not_mem_nil, or_false, decide_eq_true_eq]
  constructor
  · rintro ⟨entry, ⟨hentry, hmark | hmark⟩, rfl⟩
    · exact .inl ⟨entry, ⟨hentry, hmark⟩, rfl⟩
    · exact .inr ⟨entry, ⟨hentry, hmark⟩, rfl⟩
  · rintro (⟨entry, ⟨hentry, hmark⟩, rfl⟩ | ⟨entry, ⟨hentry, hmark⟩, rfl⟩)
    · exact ⟨entry, ⟨hentry, .inl hmark⟩, rfl⟩
    · exact ⟨entry, ⟨hentry, .inr hmark⟩, rfl⟩

/-- A step without an attempt: the counts stay, so only what is new has to be looked at. -/
theorem Tried.quiet (h : j.Tried config) {channel : Mpsc.Channel ArcEnvelope}
    {phase : HandlerPhase} {entries : List (Mark × Nat)}
    (hmarks : ∀ entry ∈ entries, entry.1 ≠ .started ∧ entry.1 ≠ .attempted)
    (hhandling : ∀ event n, phase = .handling event n →
      j.attempted.count event.addr = n + 1 ∧ n ≤ config.maxRetries)
    (hbackingOff : ∀ event n, phase = .backingOff event n →
      j.attempted.count event.addr = n ∧ n ≤ config.maxRetries)
    (hdeadLettering : ∀ event, phase = .deadLettering event →
      j.attempted.count event.addr = config.maxRetries + 1)
    (hdead : ∀ e, (.deadLettered, e) ∈ entries → j.attempted.count e = config.maxRetries + 1)
    (hacked : ∀ e, (.acked, e) ∈ entries →
      0 < j.attempted.count e ∧ j.attempted.count e ≤ config.maxRetries + 1)
    (hfailed : (entries.filter fun entry => entry.1 ∈ [.failed]).map (·.2)
      = (entries.filter fun entry => entry.1 ∈ [.deadLettered]).map (·.2)) :
    (j.write (channel, phase) entries).Tried config := by
  have hnone : ∀ mark, (∀ entry ∈ entries, entry.1 ≠ mark) →
      (j.write (channel, phase) entries).events [mark] = j.events [mark] := by
    intro mark hmark
    rw [events_write, List.filter_eq_nil_iff.mpr fun entry hentry => by
      simpa using hmark entry hentry, List.map_nil, List.append_nil]
  have hstarted : (j.write (channel, phase) entries).started = j.started :=
    hnone _ fun entry hentry => (hmarks entry hentry).1
  have hattempted : (j.write (channel, phase) entries).attempted = j.attempted :=
    hnone _ fun entry hentry => (hmarks entry hentry).2
  have hnew : ∀ mark e, e ∈ (j.write (channel, phase) entries).events [mark] →
      e ∈ j.events [mark] ∨ (mark, e) ∈ entries := by
    intro mark e he
    rw [events_write] at he
    rcases List.mem_append.mp he with hold | hnew
    · exact .inl hold
    · obtain ⟨⟨m, e'⟩, hentry, rfl⟩ := List.mem_map.mp hnew
      obtain ⟨hmem, hmark⟩ := List.mem_filter.mp hentry
      obtain rfl : m = mark := by simpa using hmark
      exact .inr hmem
  refine ⟨?_, fun c event n htask => ?_, fun c event n htask => ?_, fun c event htask => ?_,
    fun e he => ?_, fun e he => ?_, ?_⟩
  · rw [hattempted, hstarted]
    exact h.fresh
  · rw [hattempted]
    exact hhandling event n (Prod.mk.inj (Option.some.inj htask)).2
  · rw [hattempted]
    exact hbackingOff event n (Prod.mk.inj (Option.some.inj htask)).2
  · rw [hattempted]
    exact hdeadLettering event (Prod.mk.inj (Option.some.inj htask)).2
  · rw [hattempted]
    rcases hnew _ e he with hold | hentry
    · exact h.deadLettered e hold
    · exact hdead e hentry
  · rw [hattempted]
    rcases hnew _ e he with hold | hentry
    · exact h.acked e hold
    · exact hacked e hentry
  · rw [Journal.deadLettered, events_write, events_write, hfailed, h.failed, Journal.deadLettered]

/-- The task ends, and no entry is made. -/
theorem Tried.end (h : j.Tried config) (channel : Mpsc.Channel ArcEnvelope) :
    (j.write (channel, .ended) []).Tried config :=
  h.quiet (by simp) (by simp) (by simp) (by simp) (by simp) (by simp) rfl

/-- One more attempt on an event that the task is not through with. -/
theorem Tried.attempt (h : j.Tried config) {channel : Mpsc.Channel ArcEnvelope}
    {event : ArcEnvelope} {n : Nat} {entries : List (Mark × Nat)}
    (hcount : j.attempted.count event.addr = n) (hn : n ≤ config.maxRetries)
    (hopen : event.addr ∉ j.handled) (hmem : event.addr ∈ j.started ∨
      (.started, event.addr) ∈ entries)
    (hentries : ∀ entry ∈ entries, entry = (.started, event.addr) ∨
      entry = (.attempted, event.addr))
    (hone : (entries.filter fun entry => entry.1 ∈ [.attempted]).map (·.2) = [event.addr]) :
    (j.write (channel, .handling event n) entries).Tried config := by
  have hattempted : (j.write (channel, .handling event n) entries).attempted
      = j.attempted ++ [event.addr] := by
    rw [attempted_write, hone]
  have hnone : ∀ mark, mark ≠ .started → mark ≠ .attempted →
      (j.write (channel, .handling event n) entries).events [mark] = j.events [mark] := by
    intro mark hstarted hattempted
    rw [events_write, List.filter_eq_nil_iff.mpr, List.map_nil, List.append_nil]
    intro entry hentry hmark
    obtain rfl : entry.1 = mark := by simpa using hmark
    rcases hentries entry hentry with rfl | rfl
    · exact hstarted rfl
    · exact hattempted rfl
  have hself : (j.write (channel, .handling event n) entries).attempted.count event.addr
      = n + 1 := by
    rw [hattempted, List.count_append, hcount, List.count_singleton_self]
  have hother : ∀ e, e ≠ event.addr →
      (j.write (channel, .handling event n) entries).attempted.count e = j.attempted.count e := by
    intro e he
    rw [hattempted, List.count_append, List.count_singleton,
      if_neg (by simpa using fun heq => he heq.symm), Nat.add_zero]
  refine ⟨fun e he => ?_, fun c event' m htask => ?_, ?_, ?_, fun e he => ?_, fun e he => ?_, ?_⟩
  · have hne : e ≠ event.addr := by
      rintro rfl
      refine he ?_
      rw [started_write, List.mem_append]
      refine hmem.imp id fun hnew => ?_
      exact List.mem_map.mpr ⟨_, List.mem_filter.mpr ⟨hnew, by simp⟩, rfl⟩
    rw [hother e hne]
    exact h.fresh e fun hold => he (by rw [started_write]; exact List.mem_append_left _ hold)
  · cases htask
    exact ⟨hself, hn⟩
  · exact fun c event' m htask => by cases htask
  · exact fun c event' htask => by cases htask
  · rw [Journal.deadLettered, hnone _ (by simp) (by simp)] at he
    rw [hother e (by rintro rfl; exact hopen (mem_handled.mpr (.inr (h.failed ▸ he))))]
    exact h.deadLettered e he
  · rw [Journal.acked, hnone _ (by simp) (by simp)] at he
    rw [hother e (by rintro rfl; exact hopen (mem_handled.mpr (.inl he)))]
    exact h.acked e he
  · rw [Journal.deadLettered, hnone _ (by simp) (by simp), hnone _ (by simp) (by simp)]
    exact h.failed

/-- The event in hand is not one that the task is through with. -/
theorem Sound.not_mem_handled (hsound : j.Sound) (hnodup : j.pushed.Nodup)
    {channel : Mpsc.Channel ArcEnvelope} {phase : HandlerPhase} {event : ArcEnvelope}
    (htask : j.task = some (channel, phase)) (hevent : phase.event = some event) :
    event.addr ∉ j.handled := by
  have hphase : phase ≠ .ended := by
    rintro rfl
    cases hevent
  have hstarted : j.started.Nodup := hsound.taken.sublist.nodup hnodup
  rw [hsound.busy _ _ htask hphase, hevent] at hstarted
  exact fun hmem => (List.nodup_append.mp hstarted).2.2 _ hmem event.addr (by simp) rfl

/-- **One step of the retry loop**, whatever ends it. -/
theorem Tried.step (hretries : config.maxRetries + 1 < 2 ^ 32) (h : j.Tried config)
    (hsound : j.Sound) (hnodup : j.pushed.Nodup) (hstep : j.Step config true a j') :
    j'.Tried config := by
  cases hstep with
  | idle => exact h
  | opened => exact h.quiet (by simp) (by simp) (by simp) (by simp) (by simp) (by simp) rfl
  | @push channel phase event htask =>
    refine h.quiet (by simp) ?_ ?_ ?_ (by simp) (by simp) rfl
    · rintro e n rfl
      exact h.handling _ e n htask
    · rintro e n rfl
      exact h.backingOff _ e n htask
    · rintro e rfl
      exact h.deadLettering _ e htask
  | @recv channel event rest htask hbuffer =>
    have hnew : event.addr ∉ j.started := by
      intro hold
      rw [hsound.buffered _ _ htask (by simp), hbuffer] at hnodup
      exact (List.nodup_append.mp hnodup).2.2 _ hold event.addr (by simp) rfl
    exact h.attempt (h.fresh _ hnew) (Nat.zero_le _)
      (fun hold => hnew (hsound.settled.sublist.subset hold)) (.inr (by simp)) (by simp) rfl
  | closed => exact h.end _
  | interrupt => exact h.end _
  | @ack channel event n htask =>
    obtain ⟨hcount, hn⟩ := h.handling _ _ _ htask
    refine h.quiet (by simp) (by simp) (by simp) (by simp) (by simp) (fun e he => ?_) rfl
    obtain rfl : e = event.addr := by simpa using he
    omega
  | @giveUp channel event n htask hafter =>
    obtain ⟨hcount, hn⟩ := h.handling _ _ _ htask
    have hlast : config.maxRetries < n + 1 := by
      rw [EventBusConfig.afterError, EventBusConfig.nextAttempt_eq (by omega)] at hafter
      dsimp only at hafter
      split at hafter
      · assumption
      · split at hafter <;> cases hafter
    refine h.quiet (by simp) (by simp) (by simp) (fun e he => ?_) (by simp) (by simp) rfl
    cases he
    omega
  | fail htask hafter hdlq => cases hdlq
  | @backOff channel event n m backoff htask hafter =>
    obtain ⟨hcount, hn⟩ := h.handling _ _ _ htask
    obtain ⟨rfl, hm⟩ := EventBusConfig.retry_attempt (by omega) hafter
    refine h.quiet (by simp) (by simp) (fun e k he => ?_) (by simp) (by simp) (by simp) rfl
    cases he
    exact ⟨hcount, hm⟩
  | overflow => exact h.end _
  | panic => exact h.end _
  | @deadLetter channel event htask =>
    have hcount := h.deadLettering _ _ htask
    refine h.quiet (by simp) (by simp) (by simp) (by simp) (fun e he => ?_) (by simp) rfl
    obtain rfl : e = event.addr := by simpa using he
    exact hcount
  | @retry channel event n htask =>
    obtain ⟨hcount, hn⟩ := h.backingOff _ _ _ htask
    have hmem : event.addr ∈ j.started := by
      rw [hsound.busy _ _ htask (by simp)]
      simp [HandlerPhase.event]
    exact h.attempt hcount hn (hsound.not_mem_handled hnodup htask rfl) (.inl hmem) (by simp) rfl
  | cancelled => exact h.end _

/-- No event is both acknowledged and given up. -/
theorem Sound.not_acked (hsound : j.Sound) (hnodup : j.pushed.Nodup) {e : Nat}
    (hfailed : e ∈ j.events [.failed]) : e ∉ j.acked := by
  intro hacked
  have hhandled : j.handled.Nodup :=
    (hsound.settled.sublist.trans hsound.taken.sublist).nodup hnodup
  have hmem : ∀ mark, mark ∈ [Mark.acked, .failed] → e ∈ j.events [mark] →
      (mark, e) ∈ j.entries.filter fun entry => entry.1 ∈ [Mark.acked, .failed] := by
    intro mark hmark he
    obtain ⟨⟨m, e'⟩, hentry, rfl⟩ := List.mem_map.mp he
    obtain ⟨hmem, heq⟩ := List.mem_filter.mp hentry
    obtain rfl : m = mark := by simpa using heq
    exact List.mem_filter.mpr ⟨hmem, by simpa using hmark⟩
  have heq := List.inj_on_of_nodup_map hhandled (hmem .acked (by simp) hacked)
    (hmem .failed (by simp) hfailed) rfl
  cases heq

end Steps

end Journal

/-! ## Every run -/

namespace MemoryBus

/-- What the dead letter queue says about a subscription. -/
structure Exhausted (config : EventBusConfig) (s : MemoryBus) (id : Uuid) : Prop where
  attempts : ∀ e ∈ (s.journal id).deadLettered,
    (s.journal id).attempted.count e = config.maxRetries + 1
  acked : ∀ e ∈ (s.journal id).acked, e ∉ (s.journal id).deadLettered ∧
    0 < (s.journal id).attempted.count e ∧
    (s.journal id).attempted.count e ≤ config.maxRetries + 1
  failed : (s.journal id).events [.failed] = (s.journal id).deadLettered

/-- Some subscription has given the event up. -/
def GivenUp (s : MemoryBus) (event : ArcEnvelope) : Prop :=
  ∃ id, event.addr ∈ (s.journal id).deadLettered

/-- What the dead letter queue rests on. -/
structure Retries (config : EventBusConfig) (s : MemoryBus) : Prop where
  orderly : s.Orderly
  sound : ∀ id, (s.journal id).Sound
  dlq : s.dlq.isSome = true
  tried : ∀ id, (s.journal id).Tried config
  givenUp : s.DeadLetters s.GivenUp

variable {config : EventBusConfig} {s s' : MemoryBus}

theorem retries_build : (build config).Retries config where
  orderly := orderly_build
  sound := sound_build
  dlq := rfl
  tried id := by
    rw [journal_build]
    constructor <;> simp [Journal.started, Journal.attempted, Journal.deadLettered, Journal.acked,
      Journal.events]
  givenUp := by
    rintro dlq hdlq event hevent
    cases hdlq
    cases hevent

/-- What a subscription has given up stays given up. -/
theorem mem_deadLettered {id : Uuid} {e : Nat} :
    e ∈ (s.journal id).deadLettered ↔ .marked .deadLettered id e ∈ s.log := by
  rw [Journal.deadLettered, mem_events]
  simp

theorem HandlerStep.deadLettered {id : Uuid} {task : HandlerTask} {event : ArcEnvelope}
    (h : HandlerStep config s id task .deadLetter s') (hphase : task.phase = .deadLettering event) :
    event.addr ∈ (s'.journal id).deadLettered := by
  rw [mem_deadLettered]
  cases h with
  | deadLetter hphase' =>
    cases hphase.symm.trans hphase'
    simp [leaveDeadLetter, markFailed, observe, setPhase, setTask]

theorem Retries.step (hretries : config.maxRetries + 1 < 2 ^ 32) {a : Action}
    (hs : s.Retries config) (h : MemoryBus.step config s a = some s') : s'.Retries config where
  orderly := hs.orderly.step h
  sound id := (hs.sound id).step (journal_step h id)
  dlq := isSome_dlq_step h hs.dlq
  tried id := by
    have hjournal := journal_step h id
    rw [hs.dlq] at hjournal
    exact (hs.tried id).step hretries (hs.sound id) (hs.orderly.nodup_pushed id) hjournal
  givenUp := by
    refine DeadLetters.step (fun dlq hdlq event hevent => ?_)
      (fun id task event htask hphase ha => ?_) h
    · obtain ⟨id, hid⟩ := hs.givenUp dlq hdlq event hevent
      exact ⟨id, mem_deadLettered.mpr (mem_log_step h (mem_deadLettered.mp hid))⟩
    · subst ha
      replace h : s.stepHandler config id .deadLetter = some s' := h
      obtain ⟨task', htask', hstep⟩ := stepHandler_cases h
      cases htask.symm.trans htask'
      exact ⟨id, hstep.deadLettered hphase⟩

/-- **The dead letter queue holds exhausted events.** In every run, panics and aborts
    included, what a subscription has sent there it was called with exactly `max_retries + 1`
    times and has never acknowledged, and nothing else is in the queue. -/
theorem exhausted_exec {as : List Action} (hretries : config.maxRetries + 1 < 2 ^ 32)
    (hexec : exec config (build config) as = some s) :
    (∀ id, s.Exhausted config id) ∧ s.DeadLetters s.GivenUp := by
  have hs : s.Retries config := Transition.invariant (fun _ _ _ hs h => hs.step hretries h)
    retries_build hexec
  refine ⟨fun id => ⟨(hs.tried id).deadLettered, fun e he => ?_, (hs.tried id).failed⟩, hs.givenUp⟩
  refine ⟨fun hdead => ?_, (hs.tried id).acked e he⟩
  exact (hs.sound id).not_acked (hs.orderly.nodup_pushed id) ((hs.tried id).failed ▸ hdead) he

theorem exhausted_failedOrder :
    ∃ s, exec { maxRetries := 1 } (build { maxRetries := 1 }) failedOrder = some s ∧
      s.Exhausted { maxRetries := 1 } 10 ∧ s.DeadLetters s.GivenUp ∧
      (s.dlq.map fun dlq => dlq.buffer.map (·.addr)) = some [0] ∧
      (s.journal 10).attempted.count 0 = 2 := by
  obtain ⟨s, hs⟩ := Option.isSome_iff_exists.mp
    (by decide +kernel :
      (exec { maxRetries := 1 } (build { maxRetries := 1 }) failedOrder).isSome = true)
  have hseen : (exec { maxRetries := 1 } (build { maxRetries := 1 }) failedOrder).map
      (fun s => (s.dlq.map fun dlq => dlq.buffer.map (·.addr), (s.journal 10).attempted.count 0))
      = some (some [0], 2) := by decide +kernel
  rw [hs] at hseen
  obtain ⟨hdlq, hcount⟩ := Prod.mk.inj (Option.some.inj hseen)
  obtain ⟨hexhausted, hgivenUp⟩ := exhausted_exec (by decide) hs
  exact ⟨s, hs, hexhausted 10, hgivenUp, hdlq, hcount⟩

end MemoryBus
end TokioEvents
