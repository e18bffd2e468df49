/-
  TokioEvents.Bus.UnsubscribeDrain

  `SubscriptionHandle::unsubscribe`: what is already buffered in the channel will still be
  processed.  The `select!` of the handler task does not keep this: it takes the signal
  while the channel is not empty.  The events are processed exactly when the task does not
  end, by the signal, a panic or an abort, while one of them is left.
-/

import TokioEvents.Bus.CompleteDispatch

namespace TokioEvents

/-- The events in the hands of the task and in its channel. -/
def HandlerTask.remaining (task : HandlerTask) : List Nat :=
  (task.phase.event.map (·.addr)).toList ++ task.channel.buffer.map (·.addr)

/-- The task has ended. -/
def HandlerPhase.isOver : HandlerPhase → Bool
  | .ended => true
  | _ => false

namespace EventBusConfig

/-- The step ends the task, although there may be events left. -/
def endsEarly (config : EventBusConfig) (phase : HandlerPhase) : MemoryBus.HandlerAction → Bool
  | .interrupt => true
  | .outcome .panic => true
  | .outcome .error =>
    match phase with
    | .handling _ n => config.afterError n == .panics
    | _ => false
  | .cancelled => true
  | _ => false

end EventBusConfig

namespace MemoryBus

/-- The subscriptions that were signalled, with what was in their channels then. -/
abbrev Signals := List (Uuid × List Nat)

/-- A signal records the channel of its subscription. -/
def recordSignal (s : MemoryBus) (a : Action) (_ : MemoryBus) (signals : Signals) : Signals :=
  match a with
  | .subscriber (.signal id) =>
    signals ++ [(id, s.tasks[id]?.elim [] fun task => task.channel.buffer.map (·.addr))]
  | _ => signals

/-- The system with its signals. -/
def stepWithSignals (config : EventBusConfig) :
    MemoryBus × Signals → Action → Option (MemoryBus × Signals) :=
  Transition.withHistory (step config) recordSignal

/-- A signalled task that has ended has processed what was in its channel. -/
def DrainsSignals (s : MemoryBus × Signals) : Prop :=
  ∀ id buffered, (id, buffered) ∈ s.2 → ∀ task, s.1.tasks[id]? = some task →
    task.phase.isOver = true → ∀ event ∈ buffered, event ∈ (s.1.journal id).handled

/-- A task ends early only when it has none of the events left that were in its channel
    at a signal. -/
def EndsDrained (config : EventBusConfig) (s : MemoryBus × Signals) : Action → Prop
  | .handler id a =>
    ∀ task ∈ s.1.tasks[id]?, config.endsEarly task.phase a = true →
      ∀ signal ∈ s.2, signal.1 = id → ∀ event ∈ signal.2, event ∉ task.remaining
  | _ => True

instance (config : EventBusConfig) (s : MemoryBus × Signals) :
    (a : Action) → Decidable (EndsDrained config s a)
  | .handler id a => inferInstanceAs (Decidable (∀ task ∈ s.1.tasks[id]?,
      config.endsEarly task.phase a = true →
        ∀ signal ∈ s.2, signal.1 = id → ∀ event ∈ signal.2, event ∉ task.remaining))
  | .publisher _ => isTrue trivial
  | .worker _ => isTrue trivial
  | .subscriber _ => isTrue trivial
  | .shutdown _ => isTrue trivial

end MemoryBus

/-! ## One subscription -/

namespace Journal

section Steps

variable {config : EventBusConfig} {dlq : Bool} {j j' : Journal}
  {a : Option MemoryBus.HandlerAction}

/-- The events in the hands of the task and in its channel. -/
def remaining (j : Journal) : List Nat :=
  j.task.elim [] fun (channel, phase) =>
    (phase.event.map (·.addr)).toList ++ channel.buffer.map (·.addr)

/-- The task has ended. -/
def Over (j : Journal) : Prop := ∃ channel, j.task = some (channel, .ended)

theorem Sound.pushed_eq (h : j.Sound) (hover : ¬ j.Over) : j.pushed = j.handled ++ j.remaining := by
  cases htask : j.task with
  | none =>
    have hnil : ∀ marks, j.events marks = [] := by
      intro marks
      rw [events, h.fresh htask, List.filter_nil, List.map_nil]
    simp [pushed, handled, remaining, htask, hnil]
  | some task =>
    obtain ⟨channel, phase⟩ := task
    have hphase : phase ≠ .ended := by
      rintro rfl
      exact hover ⟨channel, htask⟩
    rw [h.buffered _ _ htask hphase, h.busy _ _ htask hphase, List.append_assoc, remaining, htask]
    rfl

theorem Step.pushed_prefix (h : j.Step config dlq a j') : j.pushed <+: j'.pushed := by
  cases h with
  | idle => exact List.prefix_refl _
  | _ => exact ⟨_, pushed_write.symm⟩

/-- A task that has ended has no steps. -/
theorem Step.of_over (h : j.Step config dlq a j') (hsound : j.Sound) (hover : j.Over) :
    j' = j := by
  obtain ⟨channel, htask⟩ := hover
  cases h with
  | idle => rfl
  | opened hnone => cases hnone.symm.trans htask
  | push heq haccepts =>
    cases heq.symm.trans htask
    exact absurd haccepts.1 (by simp [(hsound.closed _ htask).1])
  | cancelled heq hphase =>
    cases heq.symm.trans htask
    exact absurd rfl hphase
  | recv heq => cases heq.symm.trans htask
  | closed heq => cases heq.symm.trans htask
  | interrupt heq => cases heq.symm.trans htask
  | ack heq => cases heq.symm.trans htask
  | giveUp heq => cases heq.symm.trans htask
  | fail heq => cases heq.symm.trans htask
  | backOff heq => cases heq.symm.trans htask
  | overflow heq => cases heq.symm.trans htask
  | panic heq => cases heq.symm.trans htask
  | deadLetter heq => cases heq.symm.trans htask
  | retry heq => cases heq.symm.trans htask

/-- The ways a task ends: its channel is closed and empty, or it ends early. -/
theorem Step.over_cases (h : j.Step config dlq a j') (hover : ¬ j.Over) (hover' : j'.Over) :
    j'.handled = j.handled ∧ j'.pushed = j.pushed ∧ (a = some .closed ∧ j.remaining = [] ∨
      ∃ b channel phase, a = some b ∧ j.task = some (channel, phase) ∧
        config.endsEarly phase b = true) := by
  have hopen : ∀ {channel phase entries}, phase ≠ HandlerPhase.ended →
      (j.write (channel, phase) entries).Over → False := by
    rintro channel phase entries hphase ⟨c, hc⟩
    exact hphase (Prod.mk.inj (Option.some.inj hc)).2
  cases h with
  | idle => exact absurd hover' hover
  | opened => exact (hopen (by simp) hover').elim
  | @push channel phase event htask =>
    refine (hopen ?_ hover').elim
    rintro rfl
    exact hover ⟨channel, htask⟩
  | recv => exact (hopen (by simp) hover').elim
  | closed htask hbuffer =>
    refine ⟨by simp, by simp, .inl ⟨rfl, ?_⟩⟩
    simp [remaining, htask, hbuffer, HandlerPhase.event]
  | interrupt htask => exact ⟨by simp, by simp, .inr ⟨_, _, _, rfl, htask, rfl⟩⟩
  | ack => exact (hopen (by simp) hover').elim
  | giveUp => exact (hopen (by simp) hover').elim
  | fail => exact (hopen (by simp) hover').elim
  | backOff => exact (hopen (by simp) hover').elim
  | overflow htask hafter =>
    refine ⟨by simp, by simp, .inr ⟨_, _, _, rfl, htask, ?_⟩⟩
    simp [EventBusConfig.endsEarly, hafter]
  | panic htask => exact ⟨by simp, by simp, .inr ⟨_, _, _, rfl, htask, rfl⟩⟩
  | deadLetter => exact (hopen (by simp) hover').elim
  | retry => exact (hopen (by simp) hover').elim
  | cancelled htask => exact ⟨by simp, by simp, .inr ⟨_, _, _, rfl, htask, rfl⟩⟩

/-- A step that ends the task early ends it. -/
theorem Step.over_of_endsEarly {b : MemoryBus.HandlerAction} (h : j.Step config dlq (some b) j')
    {channel : Mpsc.Channel ArcEnvelope} {phase : HandlerPhase}
    (htask : j.task = some (channel, phase)) (hends : config.endsEarly phase b = true) :
    j'.Over := by
  cases h with
  | interrupt => exact ⟨_, rfl⟩
  | overflow => exact ⟨_, rfl⟩
  | panic => exact ⟨_, rfl⟩
  | cancelled => exact ⟨_, rfl⟩
  | giveUp heq hafter =>
    cases heq.symm.trans htask
    simp [EventBusConfig.endsEarly, hafter] at hends
  | fail heq hafter =>
    cases heq.symm.trans htask
    simp [EventBusConfig.endsEarly, hafter] at hends
  | backOff heq hafter =>
    cases heq.symm.trans htask
    simp [EventBusConfig.endsEarly, hafter] at hends
  | recv => cases hends
  | closed => cases hends
  | ack => cases hends
  | deadLetter => cases hends
  | retry => cases hends

/-- A task that has ended has nothing left. -/
theorem Sound.remaining_of_over (h : j.Sound) (hover : j.Over) : j.remaining = [] := by
  obtain ⟨channel, htask⟩ := hover
  simp [remaining, htask, (h.closed channel htask).2, HandlerPhase.event]

/-- A step keeps `some events are processed when the task ends` exactly when it does not end
    the task early while one of them is left. -/
theorem Step.drained_iff (h : j.Step config dlq a j') (hsound : j.Sound)
    (hnodup : j.pushed.Nodup) {events : List Nat} (hpushed : ∀ event ∈ events, event ∈ j.pushed)
    (hdrained : j.Over → ∀ event ∈ events, event ∈ j.handled) :
    (j'.Over → ∀ event ∈ events, event ∈ j'.handled) ↔
      ∀ b channel phase, a = some b → j.task = some (channel, phase) →
        config.endsEarly phase b = true → ∀ event ∈ events, event ∉ j.remaining := by
  by_cases hover : j.Over
  · -- nothing is left, and nothing happens
    rw [h.of_over hsound hover, hsound.remaining_of_over hover]
    exact iff_of_true hdrained fun _ _ _ _ _ _ _ _ => List.not_mem_nil
  rw [hsound.pushed_eq hover] at hnodup hpushed
  constructor
  · rintro hkept b channel phase rfl htask hends event hevent hleft
    have hover' := h.over_of_endsEarly htask hends
    have hhandled := hkept hover' event hevent
    rw [(h.over_cases hover hover').1] at hhandled
    exact (List.nodup_append.mp hnodup).2.2 event hhandled event hleft rfl
  · intro hC hover' event hevent
    obtain ⟨hhandled, -, hleft⟩ := h.over_cases hover hover'
    rw [hhandled]
    have hnot : event ∉ j.remaining := by
      rcases hleft with ⟨-, hnil⟩ | ⟨b, channel, phase, hb, htask, hends⟩
      · rw [hnil]
        exact List.not_mem_nil
      · exact hC b channel phase hb htask hends event hevent
    exact (List.mem_append.mp (hpushed event hevent)).resolve_right hnot

end Steps
end Journal

namespace MemoryBus

/-! ## Every run -/

section Runs

variable {config : EventBusConfig}

theorem journal_task {s : MemoryBus} {id : Uuid} {task : HandlerTask}
    (htask : s.tasks[id]? = some task) :
    (s.journal id).task = some (task.channel, task.phase) := by
  simp [journal, htask]

theorem remaining_journal {s : MemoryBus} {id : Uuid} {task : HandlerTask}
    (htask : s.tasks[id]? = some task) : (s.journal id).remaining = task.remaining := by
  rw [Journal.remaining, journal_task htask]
  rfl

theorem over_journal {s : MemoryBus} {id : Uuid} :
    (s.journal id).Over ↔ ∃ task, s.tasks[id]? = some task ∧ task.phase.isOver = true := by
  constructor
  · rintro ⟨channel, hover⟩
    obtain ⟨task, htask, heq⟩ := Option.map_eq_some_iff.mp hover
    exact ⟨task, htask, by rw [(Prod.mk.inj heq).2]; rfl⟩
  · rintro ⟨task, htask, hover⟩
    refine ⟨task.channel, ?_⟩
    rw [journal_task htask]
    cases hphase : task.phase with
    | ended => rfl
    | _ => simp [hphase, HandlerPhase.isOver] at hover

theorem drainsSignals_iff {s : MemoryBus × Signals} :
    DrainsSignals s ↔ ∀ id buffered, (id, buffered) ∈ s.2 → (s.1.journal id).Over →
      ∀ event ∈ buffered, event ∈ (s.1.journal id).handled := by
  constructor
  · intro h id buffered hsignal hover
    obtain ⟨task, htask, hphase⟩ := over_journal.mp hover
    exact h id buffered hsignal task htask hphase
  · intro h id buffered hsignal task htask hphase
    exact h id buffered hsignal (over_journal.mpr ⟨task, htask, hphase⟩)

theorem endsDrained_iff {s : MemoryBus × Signals} {a : Action} :
    EndsDrained config s a ↔ ∀ id buffered, (id, buffered) ∈ s.2 →
      ∀ b channel phase, a.ofTask id = some b → (s.1.journal id).task = some (channel, phase) →
        config.endsEarly phase b = true →
          ∀ event ∈ buffered, event ∉ (s.1.journal id).remaining := by
  cases a with
  | handler i b =>
    constructor
    · intro h id buffered hsignal b' channel phase hb hjournal hends
      obtain ⟨rfl, rfl⟩ : i = id ∧ b = b' := by simpa [Action.ofTask] using hb
      obtain ⟨task, htask, heq⟩ := Option.map_eq_some_iff.mp hjournal
      cases heq
      rw [remaining_journal htask]
      exact h task htask hends (i, buffered) hsignal rfl
    · rintro h task htask hends ⟨id, buffered⟩ hsignal rfl
      have := h id buffered hsignal b task.channel task.phase (by simp [Action.ofTask])
        (journal_task htask) hends
      rwa [remaining_journal htask] at this
  | _ => exact iff_of_true trivial (by simp [Action.ofTask])

/-- What draining rests on: the events recorded at a signal were pushed. -/
structure Signalled (s : MemoryBus × Signals) : Prop where
  orderly : s.1.Orderly
  sound : ∀ id, (s.1.journal id).Sound
  pushed : ∀ id buffered, (id, buffered) ∈ s.2 →
    ∀ event ∈ buffered, event ∈ (s.1.journal id).pushed

theorem signalled_build : Signalled (build config, []) :=
  ⟨orderly_build, sound_build, by simp⟩

theorem Orderly.nodup_pushed {s : MemoryBus} (h : s.Orderly) (id : Uuid) :
    (s.journal id).pushed.Nodup :=
  ((h.inOrder.sublist id).nodup h.named.nodup.of_append_left).of_append_left

/-- The signals of a step: those before it, and the channel of the signalled task. -/
theorem signal_cases {s s' : MemoryBus × Signals} {a : Action}
    (h : stepWithSignals config s a = some s') {id : Uuid} {buffered : List Nat}
    (hsignal : (id, buffered) ∈ s'.2) :
    (id, buffered) ∈ s.2 ∨ (a.ofTask id = none ∧ s'.1.journal id = s.1.journal id ∧
      ∀ event ∈ buffered, event ∈ (s.1.journal id).remaining) := by
  obtain ⟨hstep, hrecord⟩ := Transition.withHistory_eq_some.mp h
  have hquiet : s'.2 = s.2 → (id, buffered) ∈ s.2 := fun hsame => hsame ▸ hsignal
  cases a with
  | subscriber b =>
    cases b with
    | signal i =>
      rw [hrecord] at hsignal
      rcases List.mem_append.mp hsignal with hold | hnew
      · exact .inl hold
      · cases List.mem_singleton.mp hnew
        have hjournal : s'.1.journal id = s.1.journal id := by
          obtain ⟨task, htask, heq⟩ :=
            Option.map_eq_some_iff.mp (show s.1.signal id = some s'.1 from hstep)
          rw [← heq]
          exact journal_setTask_of_same htask rfl rfl
        refine .inr ⟨rfl, hjournal, fun event hevent => ?_⟩
        cases htask : s.1.tasks[id]? with
        | none => simp [htask] at hevent
        | some task =>
          rw [remaining_journal htask]
          exact List.mem_append_right _ (by simpa [htask] using hevent)
    | _ => exact .inl (hquiet hrecord)
  | _ => exact .inl (hquiet hrecord)

theorem Signalled.step {s s' : MemoryBus × Signals} {a : Action} (hs : Signalled s)
    (h : stepWithSignals config s a = some s') : Signalled s' := by
  obtain ⟨hstep, -⟩ := Transition.withHistory_eq_some.mp h
  refine ⟨hs.orderly.step hstep, fun id => (hs.sound id).step (journal_step hstep id),
    fun id buffered hsignal event hevent => ?_⟩
  have hgrows : (s.1.journal id).pushed <+: (s'.1.journal id).pushed :=
    Journal.Step.pushed_prefix (journal_step hstep id)
  have hpushed := hgrows.subset
  rcases signal_cases h hsignal with hold | ⟨-, -, hleft⟩
  · exact hpushed (hs.pushed id buffered hold event hevent)
  · refine hpushed ?_
    by_cases hover : (s.1.journal id).Over
    · have := hleft event hevent
      rw [(hs.sound id).remaining_of_over hover] at this
      cases this
    · rw [(hs.sound id).pushed_eq hover]
      exact List.mem_append_right _ (hleft event hevent)

/-- **One step.** -/
theorem Signalled.drains_iff {s s' : MemoryBus × Signals} {a : Action} (hs : Signalled s)
    (hdrains : DrainsSignals s) (h : stepWithSignals config s a = some s') :
    DrainsSignals s' ↔ EndsDrained config s a := by
  obtain ⟨hstep, hrecord⟩ := Transition.withHistory_eq_some.mp h
  rw [drainsSignals_iff] at hdrains ⊢
  rw [endsDrained_iff]
  have hone := fun id buffered hsignal => (journal_step hstep id).drained_iff (hs.sound id)
    (hs.orderly.nodup_pushed id) (hs.pushed id buffered hsignal) (hdrains id buffered hsignal)
  have hgrows : ∀ signal ∈ s.2, signal ∈ s'.2 := by
    intro signal hsignal
    rw [hrecord]
    unfold recordSignal
    split
    · exact List.mem_append_left _ hsignal
    · exact hsignal
  constructor
  · intro h' id buffered hsignal
    exact (hone id buffered hsignal).mp (h' id buffered (hgrows _ hsignal))
  · intro hC id buffered hsignal hover event hevent
    rcases signal_cases h hsignal with hold | ⟨-, hjournal, hleft⟩
    · exact (hone id buffered hold).mpr (hC id buffered hold) hover event hevent
    · have hnil := hleft event hevent
      rw [hjournal] at hover
      rw [(hs.sound id).remaining_of_over hover] at hnil
      cases hnil

/-- **A signalled subscription drains its channel**, throughout a run, exactly when no task
    ends early while an event is left that was in its channel at a signal. -/
theorem throughout_drainsSignals_iff {s : MemoryBus × Signals} {as : List Action}
    (hexec : Transition.exec (stepWithSignals config) (build config, []) as = some s) :
    Transition.Throughout (stepWithSignals config) DrainsSignals (build config, []) as
      ↔ Transition.Along (stepWithSignals config) (EndsDrained config) (build config, []) as :=
  Transition.throughout_iff_along (fun _ _ _ hs hstep => hs.step hstep)
    (fun _ _ _ hs hdrains hstep => hs.drains_iff hdrains hstep) signalled_build
    (by simp [DrainsSignals]) hexec

/-- One event is in the channel when the subscription is signalled. -/
def signalledOrder : List Action :=
  [.subscriber (.subscribe 1 "OrderEvent" { id := 10 })] ++ publishSteps 0 (order 7)
    ++ dispatchSteps [10] ++ [.worker .finish, .subscriber (.signal 10)]

theorem throughout_drainsSignals_signalledOrder :
    (Transition.exec (stepWithSignals {}) (build {}, [])
        (signalledOrder ++ [.handler 10 .recv, .handler 10 (.outcome .ok),
          .handler 10 .interrupt])).isSome = true ∧
      Transition.Throughout (stepWithSignals {}) DrainsSignals (build {}, [])
        (signalledOrder ++ [.handler 10 .recv, .handler 10 (.outcome .ok),
          .handler 10 .interrupt]) := by
  have hsome : (Transition.exec (stepWithSignals {}) (build {}, [])
      (signalledOrder ++ [.handler 10 .recv, .handler 10 (.outcome .ok),
        .handler 10 .interrupt])).isSome = true := by decide +kernel
  obtain ⟨s, hs⟩ := Option.isSome_iff_exists.mp hsome
  exact ⟨hsome,
    (throughout_drainsSignals_iff hs).mpr (of_decide_eq_true (by decide +kernel))⟩

/-- The task takes the signal, and the event is lost. -/
theorem not_drainsSignals_signalledOrder :
    ¬ ∀ (config : EventBusConfig) (as : List Action) (s : MemoryBus × Signals),
      Transition.exec (stepWithSignals config) (build config, []) as = some s →
        DrainsSignals s := by
  intro h
  obtain ⟨s, hs⟩ := Option.isSome_iff_exists.mp
    (by decide +kernel : (Transition.exec (stepWithSignals {}) (build {}, [])
      (signalledOrder ++ [.handler 10 .interrupt])).isSome = true)
  have hseen : (Transition.exec (stepWithSignals {}) (build {}, [])
      (signalledOrder ++ [.handler 10 .interrupt])).map
      (fun s => (s.2, s.1.tasks[(10 : Uuid)]?.any fun task => task.phase.isOver,
        (s.1.journal 10).handled)) = some ([(10, [0])], true, []) := by decide +kernel
  rw [hs] at hseen
  simp only [Option.map_some, Option.some.injEq, Prod.mk.injEq] at hseen
  obtain ⟨hsignals, hover, hhandled⟩ := hseen
  obtain ⟨task, htask, hphase⟩ := (Option.any_eq_true _ _).mp hover
  have := h {} _ s hs 10 [0] (by simp [hsignals]) task htask hphase 0 (List.mem_singleton_self 0)
  rw [hhandled] at this
  cases this

end Runs
end MemoryBus
end TokioEvents
