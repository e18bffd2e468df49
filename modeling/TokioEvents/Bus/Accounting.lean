/-
  TokioEvents.Bus.Accounting

  Every event a handler task takes from its channel ends in an acknowledgement, or after
  its retries in a send to the dead letter queue with `mark_failed`, and the task goes on;
  but not if the handler panics: a panic unwinds the task, with the event and with its
  channel, and so does an overflow in the arithmetic of the retry loop.
-/

import TokioEvents.Bus.UnsubscribeDrain

namespace TokioEvents

namespace EventBusConfig

/-- A step of a handler task that cannot lose the event in its hands: no panic, no overflow
    in the counter of the attempts or in the backoff, and no abort while there is one. -/
def keepsEvent (config : EventBusConfig) (phase : HandlerPhase) : MemoryBus.HandlerAction → Bool
  | .outcome .panic => false
  | .outcome .error =>
    match phase with
    | .handling _ n => decide (n + 1 < 2 ^ 32) && config.afterError n != .panics
    | _ => true
  | .cancelled => phase.event.isNone
  | _ => true

theorem nextAttempt_eq {config : EventBusConfig} {n : Nat} (h : n + 1 < 2 ^ 32) :
    config.nextAttempt n = some (n + 1) :=
  if_pos h

/-- The attempt after an error is the next one, and within the retries. -/
theorem retry_attempt {config : EventBusConfig} {n m backoff : Nat} (hn : n + 1 < 2 ^ 32)
    (h : config.afterError n = .retry m backoff) : m = n + 1 ∧ m ≤ config.maxRetries := by
  rw [afterError, nextAttempt_eq hn] at h
  dsimp only at h
  split at h
  · cases h
  · rename_i hretries
    split at h
    · cases h
      exact ⟨rfl, Nat.le_of_not_lt hretries⟩
    · cases h

end EventBusConfig

/-! ## One subscription -/

namespace Journal

/-- The events in the hands of the task. -/
def inHand (j : Journal) : List Nat :=
  j.task.elim [] fun (_, phase) => (phase.event.map (·.addr)).toList

/-- The attempts of the retry loop, and the two marks of a failed event. -/
structure Retried (config : EventBusConfig) (j : Journal) : Prop where
  taken : j.started = j.handled ++ j.inHand
  captured : j.events [.failed] = j.events [.deadLettered]
  bound : ∀ event, j.attempted.count event ≤ config.maxRetries + 1
  fresh : ∀ event, event ∉ j.started → j.attempted.count event = 0
  handling : ∀ channel event n, j.task = some (channel, .handling event n) →
    j.attempted.count event.addr = n + 1 ∧ n ≤ config.maxRetries
  backingOff : ∀ channel event n, j.task = some (channel, .backingOff event n) →
    j.attempted.count event.addr = n ∧ n ≤ config.maxRetries

section Steps

variable {config : EventBusConfig} {j j' : Journal} {a : Option MemoryBus.HandlerAction}

/-- A step without an attempt. -/
theorem Retried.quiet (h : Retried config j) {channel : Mpsc.Channel ArcEnvelope}
    {phase : HandlerPhase} {entries : List (Mark × Nat)}
    (hmarks : ∀ entry ∈ entries, entry.1 ≠ .started ∧ entry.1 ≠ .attempted)
    (htaken : j.started = (j.write (channel, phase) entries).handled
      ++ (phase.event.map (·.addr)).toList)
    (hcaptured : (j.write (channel, phase) entries).events [.failed]
      = (j.write (channel, phase) entries).events [.deadLettered])
    (hhandling : ∀ event n, phase = .handling event n →
      j.attempted.count event.addr = n + 1 ∧ n ≤ config.maxRetries)
    (hbackingOff : ∀ event n, phase = .backingOff event n →
      j.attempted.count event.addr = n ∧ n ≤ config.maxRetries) :
    Retried config (j.write (channel, phase) entries) := by
  have hnone : ∀ mark, (∀ entry ∈ entries, entry.1 ≠ mark) →
      (j.write (channel, phase) entries).events [mark] = j.events [mark] := by
    intro mark hmark
    rw [events_write, List.filter_eq_nil_iff.mpr fun entry hentry => by
      simpa using hmark entry hentry, List.map_nil, List.append_nil]
  have hstarted : (j.write (channel, phase) entries).started = j.started :=
    hnone _ fun entry hentry => (hmarks entry hentry).1
  have hattempted : (j.write (channel, phase) entries).attempted = j.attempted :=
    hnone _ fun entry hentry => (hmarks entry hentry).2
  refine ⟨by rw [hstarted]; exact htaken, hcaptured, ?_, ?_, fun c event n htask => ?_,
    fun c event n htask => ?_⟩
  · rw [hattempted]
    exact h.bound
  · rw [hattempted, hstarted]
    exact h.fresh
  · rw [hattempted]
    exact hhandling event n (Prod.mk.inj (Option.some.inj htask)).2
  · rw [hattempted]
    exact hbackingOff event n (Prod.mk.inj (Option.some.inj htask)).2

/-- A step that makes no entry. -/
theorem Retried.silent (h : Retried config j) {channel : Mpsc.Channel ArcEnvelope}
    {phase : HandlerPhase} (hinHand : (phase.event.map (·.addr)).toList = j.inHand)
    (hhandling : ∀ event n, phase = .handling event n →
      j.attempted.count event.addr = n + 1 ∧ n ≤ config.maxRetries)
    (hbackingOff : ∀ event n, phase = .backingOff event n →
      j.attempted.count event.addr = n ∧ n ≤ config.maxRetries) :
    Retried config (j.write (channel, phase) []) := by
  refine h.quiet (by simp) ?_ ?_ hhandling hbackingOff
  · rw [hinHand]
    simpa using h.taken
  · simpa [events_write] using h.captured

theorem inHand_of_task {channel : Mpsc.Channel ArcEnvelope} {phase : HandlerPhase}
    (htask : j.task = some (channel, phase)) :
    j.inHand = (phase.event.map (·.addr)).toList := by
  rw [inHand, htask]
  rfl

/-- The next attempt on the event in hand, the `n + 1`st. -/
theorem Retried.attempt (h : Retried config j) {channel : Mpsc.Channel ArcEnvelope}
    {event : ArcEnvelope} {n : Nat} {entries : List (Mark × Nat)}
    (hcount : j.attempted.count event.addr = n) (hn : n ≤ config.maxRetries)
    (hattempted : (j.write (channel, .handling event n) entries).attempted
      = j.attempted ++ [event.addr])
    (hstarted : ∀ e, e ∈ (j.write (channel, .handling event n) entries).started ↔
      e ∈ j.started ∨ e = event.addr)
    (htaken : (j.write (channel, .handling event n) entries).started
      = (j.write (channel, .handling event n) entries).handled ++ [event.addr])
    (hcaptured : (j.write (channel, .handling event n) entries).events [.failed]
      = (j.write (channel, .handling event n) entries).events [.deadLettered]) :
    Retried config (j.write (channel, .handling event n) entries) := by
  have hone : (j.write (channel, .handling event n) entries).attempted.count event.addr
      = n + 1 := by
    rw [hattempted, List.count_append, hcount, List.count_singleton_self]
  have hother : ∀ e, e ≠ event.addr →
      (j.write (channel, .handling event n) entries).attempted.count e = j.attempted.count e := by
    intro e he
    rw [hattempted, List.count_append, List.count_singleton,
      if_neg (by simpa using fun h => he (Eq.symm h)), Nat.add_zero]
  refine ⟨htaken, hcaptured, fun e => ?_, fun e he => ?_, fun c e m htask => ?_,
    fun c e m htask => ?_⟩
  · by_cases heq : e = event.addr
    · rw [heq, hone]
      exact Nat.succ_le_succ hn
    · rw [hother e heq]
      exact h.bound e
  · have hnot := fun h => he ((hstarted e).mpr h)
    rw [hother e fun heq => hnot (.inr heq)]
    exact h.fresh e fun hmem => hnot (.inl hmem)
  · cases htask
    exact ⟨hone, hn⟩
  · cases htask

/-- **One step of the retry loop.** -/
theorem Retried.step (h : Retried config j) (hsound : j.Sound) (hnodup : j.pushed.Nodup)
    (hstep : j.Step config true a j')
    (hkeeps : ∀ b channel phase, a = some b → j.task = some (channel, phase) →
      config.keepsEvent phase b = true) : Retried config j' := by
  have hcap := h.captured
  cases hstep with
  | idle => exact h
  | opened htask =>
    refine h.silent ?_ (by simp) (by simp)
    simp [HandlerPhase.event, inHand, htask]
  | @push channel phase event htask haccepts =>
    refine h.quiet (by simp) ?_ (by simpa [events_write] using hcap) ?_ ?_
    · rw [← inHand_of_task htask]
      simpa using h.taken
    · rintro e n rfl
      exact h.handling _ e n htask
    · rintro e n rfl
      exact h.backingOff _ e n htask
  | @recv channel event rest htask hbuffer =>
    have hnew : event.addr ∉ j.started := by
      intro hold
      rw [hsound.buffered _ _ htask (by simp), hbuffer] at hnodup
      exact (List.nodup_append.mp hnodup).2.2 _ hold event.addr (by simp) rfl
    have htaken := h.taken
    rw [inHand_of_task htask] at htaken
    refine h.attempt (h.fresh _ hnew) (Nat.zero_le _) (by simp) (by simp) ?_
      (by simpa [events_write] using hcap)
    simpa [HandlerPhase.event] using htaken
  | closed htask =>
    refine h.silent ?_ (by simp) (by simp)
    simp [inHand_of_task htask, HandlerPhase.event]
  | interrupt htask =>
    refine h.silent ?_ (by simp) (by simp)
    simp [inHand_of_task htask, HandlerPhase.event]
  | ack htask =>
    refine h.quiet (by simp) ?_ (by simpa [events_write] using hcap) (by simp) (by simp)
    simpa [inHand_of_task htask, HandlerPhase.event] using h.taken
  | giveUp htask =>
    refine h.silent ?_ (by simp) (by simp)
    simp [inHand_of_task htask, HandlerPhase.event]
  | fail htask hafter hdlq => cases hdlq
  | @backOff channel event n m backoff htask hafter =>
    have hkept := hkeeps _ _ _ rfl htask
    simp only [EventBusConfig.keepsEvent, Bool.and_eq_true, decide_eq_true_eq] at hkept
    obtain ⟨rfl, hm⟩ := EventBusConfig.retry_attempt hkept.1 hafter
    refine h.silent ?_ (by simp) fun e k heq => ?_
    · simp [inHand_of_task htask, HandlerPhase.event]
    · cases heq
      exact ⟨(h.handling _ _ _ htask).1, hm⟩
  | overflow htask hafter =>
    have hkept := hkeeps _ _ _ rfl htask
    simp [EventBusConfig.keepsEvent, hafter] at hkept
  | panic htask => cases hkeeps _ _ _ rfl htask
  | deadLetter htask =>
    refine h.quiet (by simp) ?_ (by simpa [events_write] using hcap) (by simp) (by simp)
    simpa [inHand_of_task htask, HandlerPhase.event] using h.taken
  | @retry channel event n htask =>
    obtain ⟨hcount, hn⟩ := h.backingOff _ _ _ htask
    have htaken := h.taken
    rw [inHand_of_task htask] at htaken
    refine h.attempt hcount hn (by simp) ?_ ?_ (by simpa [events_write] using hcap)
    · intro e
      have hmem : event.addr ∈ j.started := by
        rw [htaken]
        simp [HandlerPhase.event]
      simp only [started_write]
      constructor
      · simpa using Or.inl
      · rintro (hold | rfl)
        · simpa using hold
        · simpa using hmem
    · simpa [HandlerPhase.event] using htaken
  | cancelled htask hphase =>
    have hkept := hkeeps _ _ _ rfl htask
    refine h.silent ?_ (by simp) (by simp)
    rw [inHand_of_task htask, Option.isNone_iff_eq_none.mp hkept]
    rfl

/-- The step that ends a task, when none can lose an event. -/
theorem Step.over_action {dlq : Bool} (h : j.Step config dlq a j') (hover : ¬ j.Over)
    (hover' : j'.Over) (hkeeps : ∀ b channel phase, a = some b →
      j.task = some (channel, phase) → config.keepsEvent phase b = true) :
    a = some .closed ∨ a = some .interrupt ∨ a = some .cancelled := by
  obtain ⟨-, -, ⟨rfl, -⟩ | ⟨b, channel, phase, rfl, htask, hearly⟩⟩ := h.over_cases hover hover'
  · exact .inl rfl
  · -- an early end that keeps the event is no panic
    have hkept := hkeeps b channel phase rfl htask
    cases b with
    | interrupt => exact .inr (.inl rfl)
    | cancelled => exact .inr (.inr rfl)
    | outcome outcome =>
      cases outcome with
      | ok => cases hearly
      | panic => cases hkept
      | error =>
        cases phase with
        | handling event n =>
          have hpanics : config.afterError n = .panics := by
            simpa [EventBusConfig.endsEarly] using hearly
          simp [EventBusConfig.keepsEvent, hpanics] at hkept
        | _ => cases hearly
    | _ => cases hearly

end Steps
end Journal

namespace MemoryBus

/-! ## Every event accounted for over whole runs -/

/-- The handler task of the subscription has ended. -/
def isOver (s : MemoryBus) (id : Uuid) : Bool := s.tasks[id]?.any fun task => task.phase.isOver

/-- The actions that ended handler tasks. -/
abbrev Ends := List (Uuid × HandlerAction)

/-- A step that ends its task is recorded. -/
def recordEnd (s : MemoryBus) (a : Action) (s' : MemoryBus) (ends : Ends) : Ends :=
  match a with
  | .handler id b => if s'.isOver id && !s.isOver id then ends ++ [(id, b)] else ends
  | _ => ends

/-- The system with the ends of its tasks. -/
def stepWithEnds (config : EventBusConfig) :
    MemoryBus × Ends → Action → Option (MemoryBus × Ends) :=
  Transition.withHistory (step config) recordEnd

/-- The accounts of a subscription. -/
structure Accounted (config : EventBusConfig) (s : MemoryBus × Ends) (id : Uuid) : Prop where
  /-- Each event taken from the channel is acknowledged or marked failed, or in hand. -/
  taken : (s.1.journal id).started = (s.1.journal id).handled ++ (s.1.journal id).inHand
  /-- Once, and one of the two. -/
  once : (s.1.journal id).handled.Nodup
  /-- A failed event goes to the dead letter queue. -/
  captured : (s.1.journal id).events [.failed] = (s.1.journal id).events [.deadLettered]
  /-- There are at most `max_retries` retries. -/
  retries : ∀ event, (s.1.journal id).attempted.count event ≤ config.maxRetries + 1
  /-- The task has a step as long as an event is in hand, unless it waits for room in the
      dead letter queue. -/
  advances : ∀ task, s.1.tasks[id]? = some task → task.phase.event.isSome →
    (∃ a, a ≠ .cancelled ∧ (step config s.1 (.handler id a)).isSome) ∨
      ∃ dlq, s.1.dlq = some dlq ∧ dlq.receiver = true ∧ dlq.capacity ≤ dlq.buffer.length
  /-- No outcome of an attempt ends the task. -/
  goesOn : ∀ a, (id, a) ∈ s.2 → a = .closed ∨ a = .interrupt ∨ a = .cancelled

/-- A step of a handler task keeps the event in its hands. -/
def KeepsEvents (config : EventBusConfig) (s : MemoryBus × Ends) : Action → Prop
  | .handler id a => ∀ task ∈ s.1.tasks[id]?, config.keepsEvent task.phase a = true
  | _ => True

instance (config : EventBusConfig) (s : MemoryBus × Ends) :
    (a : Action) → Decidable (KeepsEvents config s a)
  | .handler id a => inferInstanceAs
      (Decidable (∀ task ∈ s.1.tasks[id]?, config.keepsEvent task.phase a = true))
  | .publisher _ => isTrue trivial
  | .worker _ => isTrue trivial
  | .subscriber _ => isTrue trivial
  | .shutdown _ => isTrue trivial

/-- What the accounts rest on. -/
structure Accounts (config : EventBusConfig) (s : MemoryBus × Ends) : Prop where
  orderly : s.1.Orderly
  sound : ∀ id, (s.1.journal id).Sound
  dlq : s.1.dlq.isSome = true
  retried : ∀ id, (s.1.journal id).Retried config
  ends : ∀ id a, (id, a) ∈ s.2 → a = .closed ∨ a = .interrupt ∨ a = .cancelled

section Runs

variable {config : EventBusConfig}

theorem accounts_build : Accounts config (build config, []) := by
  refine ⟨orderly_build, sound_build, rfl, fun id => ?_, by simp⟩
  rw [journal_build]
  constructor <;> simp [Journal.started, Journal.handled, Journal.attempted, Journal.events,
    Journal.inHand]

/-- The dead letter queue stays. -/
theorem isSome_dlq_step {s s' : MemoryBus} {a : Action} (h : step config s a = some s')
    (hdlq : s.dlq.isSome = true) : s'.dlq.isSome = true := by
  cases a with
  | publisher b =>
    obtain ⟨_, _, _, _, rfl⟩ := (stepPublisher_cases h).frame
    exact hdlq
  | worker b =>
    obtain ⟨_, _, _, _, rfl⟩ := (stepWorker_cases h).frame
    exact hdlq
  | handler id b =>
    obtain ⟨task, -, hstep⟩ := stepHandler_cases h
    cases hstep with
    | deadLetter => rfl
    | _ => exact hdlq
  | subscriber b =>
    cases stepSubscriber_cases h with
    | unsubscribe =>
      rw [dlq_abort]
      exact hdlq
    | autoUnsubscribe =>
      rw [dlq_abort]
      exact hdlq
    | takeDlq => rfl
    | dropDlq =>
      rw [dropDlq, Option.isSome_map]
      exact hdlq
    | _ => exact hdlq
  | shutdown b =>
    obtain ⟨_, _, _, _, _, _, _, _, _, rfl⟩ := (stepShutdown_cases h).frame
    exact hdlq

theorem over_eq_true {s : MemoryBus} {id : Uuid} : s.isOver id = true ↔ (s.journal id).Over := by
  rw [over_journal, isOver, Option.any_eq_true]

theorem KeepsEvents.keeps {s : MemoryBus × Ends} {a : Action} (h : KeepsEvents config s a)
    (id : Uuid) : ∀ b channel phase, a.ofTask id = some b →
      (s.1.journal id).task = some (channel, phase) → config.keepsEvent phase b = true := by
  intro b channel phase hb hjournal
  cases a with
  | handler i b' =>
    obtain ⟨rfl, rfl⟩ : i = id ∧ b' = b := by simpa [Action.ofTask] using hb
    obtain ⟨task, htask, heq⟩ := Option.map_eq_some_iff.mp hjournal
    cases heq
    exact h task htask
  | _ => cases hb

theorem Accounts.step {s s' : MemoryBus × Ends} {a : Action} (hs : Accounts config s)
    (hC : KeepsEvents config s a) (h : stepWithEnds config s a = some s') :
    Accounts config s' := by
  obtain ⟨hstep, hrecord⟩ := Transition.withHistory_eq_some.mp h
  refine ⟨hs.orderly.step hstep, fun id => (hs.sound id).step (journal_step hstep id),
    isSome_dlq_step hstep hs.dlq, fun id => ?_, fun id b hend => ?_⟩
  · have hjournal := journal_step hstep id
    rw [hs.dlq] at hjournal
    exact (hs.retried id).step (hs.sound id) (hs.orderly.nodup_pushed id) hjournal (hC.keeps id)
  · have hquiet : s'.2 = s.2 → b = .closed ∨ b = .interrupt ∨ b = .cancelled :=
      fun hsame => hs.ends id b (hsame ▸ hend)
    cases a with
    | handler i b' =>
      have hends :
          s'.2 = if s'.1.isOver i && !s.1.isOver i then s.2 ++ [(i, b')] else s.2 := hrecord
      split at hends
      · rename_i hover
        rw [hends] at hend
        rcases List.mem_append.mp hend with hold | hnew
        · exact hs.ends id b hold
        · cases List.mem_singleton.mp hnew
          simp only [Bool.and_eq_true, Bool.not_eq_true', ← Bool.not_eq_true, over_eq_true]
            at hover
          have := (journal_step hstep id).over_action hover.2 hover.1 (hC.keeps id)
          simpa [Action.ofTask] using this
      · exact hquiet hends
    | _ => exact hquiet hrecord

/-- A busy task has a step. -/
theorem advances_of_dlq {s : MemoryBus} (hdlq : s.dlq.isSome = true) {id : Uuid}
    {task : HandlerTask} (htask : s.tasks[id]? = some task) (hbusy : task.phase.event.isSome) :
    (∃ a, a ≠ .cancelled ∧ (step config s (.handler id a)).isSome) ∨
      ∃ dlq, s.dlq = some dlq ∧ dlq.receiver = true ∧ dlq.capacity ≤ dlq.buffer.length := by
  obtain ⟨dlq, hdlq⟩ := Option.isSome_iff_exists.mp hdlq
  cases hphase : task.phase with
  | handling event n =>
    refine .inl ⟨.outcome .ok, by simp, ?_⟩
    simp [step, stepHandler, htask, handlerOutcome, hphase]
  | backingOff event n =>
    refine .inl ⟨.retry, by simp, ?_⟩
    simp [step, stepHandler, htask, handlerRetry, hphase]
  | deadLettering event =>
    cases hsend : dlq.trySend event with
    | ok dlq' =>
      refine .inl ⟨.deadLetter, by simp, ?_⟩
      simp [step, stepHandler, htask, handlerDeadLetter, hphase, hdlq, hsend]
    | error e =>
      cases e with
      | closed =>
        refine .inl ⟨.deadLetter, by simp, ?_⟩
        simp [step, stepHandler, htask, handlerDeadLetter, hphase, hdlq, hsend]
      | full =>
        have hfull : dlq.receiver = true ∧ dlq.capacity ≤ dlq.buffer.length := by
          unfold Mpsc.Channel.trySend at hsend
          split at hsend
          · cases hsend
          · rename_i hreceiver
            split at hsend
            · cases hsend
            · rename_i hroom
              exact ⟨by simpa using hreceiver, Nat.le_of_not_lt hroom⟩
        exact .inr ⟨dlq, hdlq, hfull⟩
  | selecting => simp [hphase, HandlerPhase.event] at hbusy
  | ended => simp [hphase, HandlerPhase.event] at hbusy

/-- **Accounting.** In every run in which no attempt panics, the retry loop does not overflow
    and no abort takes effect on an event in hand, for every subscription. -/
theorem accounted_exec {s : MemoryBus × Ends} {as : List Action}
    (hC : Transition.Along (stepWithEnds config) (KeepsEvents config) (build config, []) as)
    (hexec : Transition.exec (stepWithEnds config) (build config, []) as = some s) (id : Uuid) :
    Accounted config s id := by
  have hs := Transition.invariant_along (fun _ _ _ hs hC hstep => Accounts.step hs hC hstep)
    accounts_build hC hexec
  have hhandled : (s.1.journal id).handled.Sublist (s.1.journal id).pushed :=
    (hs.sound id).settled.sublist.trans (hs.sound id).taken.sublist
  exact ⟨(hs.retried id).taken, hhandled.nodup (hs.orderly.nodup_pushed id),
    (hs.retried id).captured, (hs.retried id).bound,
    fun task htask hbusy => advances_of_dlq hs.dlq htask hbusy, hs.ends id⟩

/-- Two orders for subscription 10; it fails on the first one for good. -/
def failedOrder : List Action :=
  [.subscriber (.subscribe 1 "OrderEvent" { id := 10 })] ++ publishSteps 0 (order 7)
    ++ publishSteps 1 (order 8) ++ dispatchSteps [10] ++ [.worker .finish]
    ++ dispatchSteps [10] ++ [.worker .finish]
    ++ [.handler 10 .recv, .handler 10 (.outcome .error), .handler 10 .retry,
      .handler 10 (.outcome .error), .handler 10 .deadLetter,
      .handler 10 .recv, .handler 10 (.outcome .ok)]

theorem accounted_failedOrder :
    ∃ s, Transition.exec (stepWithEnds { maxRetries := 1 }) (build { maxRetries := 1 }, [])
        failedOrder = some s ∧ Accounted { maxRetries := 1 } s 10 ∧
      (s.1.journal 10).handled = [0, 1] := by
  obtain ⟨s, hs⟩ := Option.isSome_iff_exists.mp
    (by decide +kernel : (Transition.exec (stepWithEnds { maxRetries := 1 })
      (build { maxRetries := 1 }, []) failedOrder).isSome = true)
  refine ⟨s, hs, accounted_exec (of_decide_eq_true (by decide +kernel)) hs 10, ?_⟩
  have hhandled : (Transition.exec (stepWithEnds { maxRetries := 1 })
      (build { maxRetries := 1 }, []) failedOrder).map (fun s => (s.1.journal 10).handled)
      = some [0, 1] := by decide +kernel
  rw [hs] at hhandled
  exact Option.some.inj hhandled

/-- The handler of subscription 10 panics on the first of two orders. -/
def panickingHandler : List Action :=
  [.subscriber (.subscribe 1 "OrderEvent" { id := 10 })] ++ publishSteps 0 (order 7)
    ++ publishSteps 1 (order 8) ++ dispatchSteps [10] ++ [.worker .finish]
    ++ dispatchSteps [10] ++ [.worker .finish]
    ++ [.handler 10 .recv, .handler 10 (.outcome .panic)]

theorem not_accounted_panickingHandler :
    ¬ ∀ (config : EventBusConfig) (as : List Action) (s : MemoryBus × Ends),
      Transition.exec (stepWithEnds config) (build config, []) as = some s →
        ∀ id, Accounted config s id := by
  intro h
  obtain ⟨s, hs⟩ := Option.isSome_iff_exists.mp
    (by decide +kernel : (Transition.exec (stepWithEnds {}) (build {}, [])
      panickingHandler).isSome = true)
  have hseen : (Transition.exec (stepWithEnds {}) (build {}, []) panickingHandler).map
      (fun s => ((s.1.journal 10).started, (s.1.journal 10).handled, (s.1.journal 10).inHand))
      = some ([0], [], []) := by decide +kernel
  rw [hs] at hseen
  simp only [Option.map_some, Option.some.injEq, Prod.mk.injEq] at hseen
  obtain ⟨hstarted, hhandled, hinHand⟩ := hseen
  have := (h {} _ s hs 10).taken
  rw [hstarted, hhandled, hinHand] at this
  cases this

end Runs
end MemoryBus
end TokioEvents
