/-
  TokioEvents.Bus.GracefulShutdown

  `shutdown_gracefully` loses no accepted event.  The worker stops only when the queue and
  the tasks of scheduled events are empty, since each of these holds a sender; a handler
  task ends only when its channel is empty and neither the subscription nor a send holds a
  sender; and the call waits for the worker and then for every task.
-/

import TokioEvents.Bus.Accounting
import TokioEvents.Bus.Stopped

namespace TokioEvents
namespace MemoryBus

/-- The publish calls that began when the state was not `Running`. -/
def recordLate (s : MemoryBus) (a : Action) (_ : MemoryBus) (late : List Nat) : List Nat :=
  match a with
  | .publisher (.publish _ _) =>
    if s.shutdownState = .running then late else late ++ [s.calls.length]
  | _ => late

/-- The system with its late publish calls. -/
def stepWithLate (config : EventBusConfig) :
    MemoryBus × List Nat → Action → Option (MemoryBus × List Nat) :=
  Transition.withHistory (step config) recordLate

/-- Subscriptions are made before the shutdown and kept, handlers do not panic, their retry
    loop does not overflow, and there is one call, of `shutdown_gracefully`. -/
def OneGraceful (config : EventBusConfig) (s : MemoryBus × List Nat) : Action → Prop
  | .handler _ (.outcome .panic) => False
  | .handler id (.outcome .error) =>
    ∀ task ∈ s.1.tasks[id]?, config.endsEarly task.phase (.outcome .error) = false
  | .subscriber (.subscribe _ _ _) => s.1.shutdowns = []
  | .subscriber (.signal _) => False
  | .subscriber (.unsubscribe _) => False
  | .shutdown (.begin graceful) => graceful = true ∧ s.1.shutdowns = []
  | _ => True

instance (config : EventBusConfig) (s : MemoryBus × List Nat) :
    (a : Action) → Decidable (OneGraceful config s a)
  | .handler _ (.outcome .panic) => isFalse id
  | .handler id (.outcome .error) => inferInstanceAs (Decidable
      (∀ task ∈ s.1.tasks[id]?, config.endsEarly task.phase (.outcome .error) = false))
  | .handler _ (.outcome .ok) => isTrue trivial
  | .handler _ .recv => isTrue trivial
  | .handler _ .closed => isTrue trivial
  | .handler _ .interrupt => isTrue trivial
  | .handler _ .deadLetter => isTrue trivial
  | .handler _ .retry => isTrue trivial
  | .handler _ .cancelled => isTrue trivial
  | .subscriber (.subscribe _ _ _) => inferInstanceAs (Decidable (s.1.shutdowns = []))
  | .subscriber (.signal _) => isFalse id
  | .subscriber (.unsubscribe _) => isFalse id
  | .subscriber .autoUnsubscribe => isTrue trivial
  | .subscriber .takeDlq => isTrue trivial
  | .subscriber .dropDlq => isTrue trivial
  | .shutdown (.begin _) => inferInstanceAs (Decidable (_ ∧ _))
  | .shutdown .registerHook => isTrue trivial
  | .shutdown (.advance _) => isTrue trivial
  | .shutdown (.timeout _) => isTrue trivial
  | .shutdown (.drop _) => isTrue trivial
  | .publisher _ => isTrue trivial
  | .worker _ => isTrue trivial

/-- The publish call has returned `Ok`. -/
def accepted (s : MemoryBus) (n : Nat) : Prop :=
  ∃ call eventId, s.calls[n]? = some call ∧ call.phase = .returned (.ok eventId)

/-- The late calls were refused, and left no event. -/
def Refused (s : MemoryBus × List Nat) : Prop :=
  ∀ n ∈ s.2, (∃ call, s.1.calls[n]? = some call ∧
    call.phase = .returned (shuttingDown call.nonBlocking)) ∧
    n ∉ s.1.entered ++ s.1.sleepers.map (·.addr)

/-- When the call has returned, every accepted event is handled by every subscription that
    was selected for it, and every late publish call was refused. -/
structure LosesNothing (s : MemoryBus × List Nat) : Prop where
  handled : (∃ call ∈ s.1.shutdowns, call.phase = .returned) → ∀ n, s.1.accepted n →
    ∀ ids, .selected n ids ∈ s.1.log → ∀ id ∈ ids,
      .marked .acked id n ∈ s.1.log ∨ .marked .failed id n ∈ s.1.log
  refused : Refused s

/-! ## The flags of the handler tasks -/

/-- No handler task is signalled or aborted. -/
def Quiet (s : MemoryBus) : Prop :=
  ∀ (id : Uuid) task, s.tasks[id]? = some task → task.signalled = false ∧ task.aborted = false

/-- A task ends only when its subscription and the sends to it are over and its channel is
    empty. -/
structure Held (s : MemoryBus) : Prop where
  quiet : s.Quiet
  settled : ∀ id, (s.journal id).Over →
    id ∉ s.subscriptions ∧ id ∉ s.worker.sends ∧ (s.journal id).pushed = (s.journal id).handled
  left : ∀ id ∈ s.unsubs, (s.journal id).Over

section Steps

variable {config : EventBusConfig} {s s' : MemoryBus}

theorem Quiet.insert (h : s.Quiet) {id : Uuid} {task : HandlerTask}
    (htasks : s'.tasks = s.tasks.insert id task)
    (htask : task.signalled = false ∧ task.aborted = false) : s'.Quiet := by
  intro i other hother
  rw [htasks] at hother
  by_cases hi : id = i
  · subst hi
    cases (by simpa using hother : task = other)
    exact htask
  · exact h i other (by simpa [Std.ExtTreeMap.getElem?_insert, hi] using hother)

theorem HandlerStep.quiet {id : Uuid} {task : HandlerTask} {a : HandlerAction}
    (h : HandlerStep config s id task a s') (htask : s.tasks[id]? = some task) (hs : s.Quiet) :
    s'.Quiet := by
  have hflags := hs id task htask
  cases h with
  | recv => exact hs.insert rfl hflags
  | closed => exact hs.insert rfl hflags
  | interrupt => exact hs.insert rfl hflags
  | ack => exact hs.insert rfl hflags
  | giveUp => exact hs.insert rfl hflags
  | fail => exact hs.insert rfl hflags
  | backOff => exact hs.insert rfl hflags
  | overflow => exact hs.insert rfl hflags
  | panic => exact hs.insert rfl hflags
  | deadLetter => exact hs.insert rfl hflags
  | retry => exact hs.insert rfl hflags
  | cancelled => exact hs.insert rfl hflags

/-- A send in progress is to a subscription, or was in progress before. -/
theorem mem_sends_step {a : Action} (h : step config s a = some s') {id : Uuid}
    (hid : id ∈ s'.worker.sends) : id ∈ s.worker.sends ∨ id ∈ s.subscriptions := by
  by_cases hworker : ∃ b, a = .worker b
  · obtain ⟨b, rfl⟩ := hworker
    cases stepWorker_cases h with
    | select => exact .inr (subscribed_of_mem_senders hid)
    | push hw =>
      rw [hw]
      exact .inl (List.mem_of_mem_erase hid)
    | miss hw =>
      rw [hw]
      exact .inl (List.mem_of_mem_erase hid)
    | _ => cases hid
  · rw [worker_of_not_worker h fun b hb => hworker ⟨b, hb⟩] at hid
    exact .inl hid

/-- A task reports to the auto-unsubscribe worker when it ends. -/
theorem mem_unsubs_step {a : Action} (h : step config s a = some s') {id : Uuid}
    (hid : id ∈ s'.unsubs) : id ∈ s.unsubs ∨ (s'.journal id).Over := by
  cases a with
  | publisher b =>
    obtain ⟨_, _, _, _, rfl⟩ := (stepPublisher_cases h).frame
    exact .inl hid
  | worker b =>
    obtain ⟨_, _, _, _, rfl⟩ := (stepWorker_cases h).frame
    exact .inl hid
  | handler i b =>
    obtain ⟨task, htask, hstep⟩ := stepHandler_cases h
    have hleave : s' = s.leaveLoop i task → id ∈ s.unsubs ∨ (s'.journal id).Over := by
      rintro rfl
      rcases List.mem_append.mp hid with hold | hnew
      · exact .inl hold
      · obtain rfl := List.mem_singleton.mp hnew
        exact .inr (over_journal.mpr
          ⟨{ task with phase := .ended, channel := task.channel.dropReceiver },
            by simp [leaveLoop, endTask, setTask], rfl⟩)
    cases hstep with
    | closed => exact hleave rfl
    | interrupt => exact hleave rfl
    | _ => exact .inl hid
  | subscriber b =>
    cases stepSubscriber_cases h with
    | unsubscribe =>
      rw [unsubs_abort] at hid
      exact .inl hid
    | autoUnsubscribe hunsubs =>
      rw [unsubs_abort] at hid
      exact .inl (hunsubs ▸ List.mem_cons_of_mem _ hid)
    | ignore hunsubs => exact .inl (hunsubs ▸ List.mem_cons_of_mem _ hid)
    | _ => exact .inl hid
  | shutdown b =>
    obtain ⟨_, _, _, _, _, _, _, _, _, rfl⟩ := (stepShutdown_cases h).frame
    exact .inl hid

theorem Quiet.step {late : List Nat} {a : Action} (hs : s.Held)
    (hC : OneGraceful config (s, late) a) (hgraceful : ∀ call ∈ s.shutdowns, call.graceful = true)
    (h : step config s a = some s') : s'.Quiet := by
  have hsame : s'.tasks = s.tasks → s'.Quiet := by
    intro htasks id task htask
    exact hs.quiet id task (htasks ▸ htask)
  cases a with
  | publisher b =>
    obtain ⟨_, _, _, _, rfl⟩ := (stepPublisher_cases h).frame
    exact hsame rfl
  | worker b =>
    cases stepWorker_cases h with
    | push hworker hid htask =>
      have hflags := hs.quiet _ _ htask
      exact hs.quiet.insert rfl hflags
    | _ => exact hsame rfl
  | handler id b =>
    obtain ⟨task, htask, hstep⟩ := stepHandler_cases h
    exact hstep.quiet htask hs.quiet
  | subscriber b =>
    cases stepSubscriber_cases h with
    | subscribe => exact hs.quiet.insert rfl ⟨rfl, rfl⟩
    | signal => exact hC.elim
    | unsubscribe => exact hC.elim
    | autoUnsubscribe hunsubs hid =>
      exact absurd hid (hs.settled _ (hs.left _ (hunsubs ▸ List.mem_cons_self))).1
    | _ => exact hsame rfl
  | shutdown b =>
    cases stepShutdown_cases h with
    | abortAll hcall hphase habrupt =>
      rw [hgraceful _ (List.mem_of_getElem? hcall)] at habrupt
      cases habrupt
    | _ => exact hsame rfl

/-- The step that ends a task: its channel is closed and empty. -/
theorem closed_of_ends {late : List Nat} {a : Action} (hs : s.Quiet)
    (hC : OneGraceful config (s, late) a) (h : step config s a = some s') {id : Uuid}
    (hbefore : ¬ (s.journal id).Over) (hover : (s'.journal id).Over) :
    id ∉ s'.subscriptions ∧ id ∉ s'.worker.sends ∧ (s.journal id).remaining = [] := by
  obtain ⟨-, -, hcase⟩ := (journal_step h id).over_cases hbefore hover
  cases a with
  | handler i b =>
    obtain ⟨task, htask, hstep⟩ := stepHandler_cases h
    rcases hcase with ⟨hclosed, hnil⟩ | ⟨b', channel, phase, hb, hjournal, hends⟩
    · obtain ⟨rfl, rfl⟩ : i = id ∧ b = .closed := by simpa [Action.ofTask] using hclosed
      cases hstep with
      | closed hphase hbuffer hsubscribed hsends => exact ⟨hsubscribed, hsends, hnil⟩
    · obtain ⟨rfl, rfl⟩ : i = id ∧ b = b' := by simpa [Action.ofTask] using hb
      rw [journal_task htask] at hjournal
      cases hjournal
      obtain ⟨hsignalled, haborted⟩ := hs i task htask
      cases hstep with
      | interrupt hphase hready => cases hsignalled.symm.trans hready
      | cancelled hphase hready => cases haborted.symm.trans hready
      | panic => exact hC.elim
      | giveUp => cases (hC task htask).symm.trans hends
      | fail => cases (hC task htask).symm.trans hends
      | backOff => cases (hC task htask).symm.trans hends
      | overflow => cases (hC task htask).symm.trans hends
      | _ => cases hends
  | _ => rcases hcase with ⟨h, -⟩ | ⟨_, _, _, h, -⟩ <;> cases h

theorem Held.step {late : List Nat} {a : Action} (hs : s.Held)
    (hsound : ∀ id, (s.journal id).Sound) (hC : OneGraceful config (s, late) a)
    (hgraceful : ∀ call ∈ s.shutdowns, call.graceful = true) (h : step config s a = some s') :
    s'.Held := by
  have hstays : ∀ id, (s.journal id).Over → s'.journal id = s.journal id :=
    fun id hover => (journal_step h id).of_over (hsound id) hover
  refine ⟨Quiet.step hs hC hgraceful h, fun id hover => ?_, fun id hid => ?_⟩
  · by_cases hbefore : (s.journal id).Over
    · obtain ⟨hsub, hsends, hall⟩ := hs.settled id hbefore
      obtain ⟨task, htask, -⟩ := over_journal.mp hbefore
      refine ⟨fun hmem => ?_, fun hmem => ?_, by rw [hstays id hbefore]; exact hall⟩
      · rcases mem_subscriptions_step h hmem with hold | ⟨_, _, _, -, -, hfresh⟩
        · exact hsub hold
        · cases htask.symm.trans hfresh
      · exact (mem_sends_step h hmem).elim hsends hsub
    · obtain ⟨hsub, hsends, hnil⟩ := closed_of_ends hs.quiet hC h hbefore hover
      obtain ⟨hhandled, hpushed, -⟩ := (journal_step h id).over_cases hbefore hover
      refine ⟨hsub, hsends, ?_⟩
      rw [hhandled, hpushed, (hsound id).pushed_eq hbefore, hnil, List.append_nil]
  · rcases mem_unsubs_step h hid with hold | hover
    · have hover := hs.left id hold
      rw [hstays id hover]
      exact hover
    · exact hover

end Steps

/-! ## The sends -/

/-- A selected subscription has the event in its channel, or the worker still has to send
    it. -/
def PushedAll (s : MemoryBus) : Prop :=
  ∀ n ids, .selected n ids ∈ s.log → ∀ id ∈ ids, .marked .pushed id n ∈ s.log ∨
    ∃ e sends, s.worker = .dispatching e sends ∧ e.addr = n ∧ id ∈ sends

section Sends

variable {config : EventBusConfig} {s s' : MemoryBus}

/-- A send in progress is to a task with a receiver. -/
theorem Held.live_of_send (hs : s.Held) (hsound : ∀ id, (s.journal id).Sound)
    (horderly : s.Orderly) {e : ArcEnvelope} {sends : List Uuid}
    (hworker : s.worker = .dispatching e sends) {id : Uuid} (hid : id ∈ sends) :
    ∃ task, s.tasks[id]? = some task ∧ task.channel.receiver = true := by
  obtain ⟨ids, hselected, hmem⟩ := horderly.dispatching.chosen e sends hworker id hid
  obtain ⟨task, htask⟩ :=
    Option.isSome_iff_exists.mp (horderly.dispatching.tasks _ ids hselected id hmem)
  refine ⟨task, htask, (hsound id).receiver _ _ (journal_task htask) fun hover => ?_⟩
  have hjournal : (s.journal id).Over := ⟨_, hover ▸ journal_task htask⟩
  exact (hs.settled id hjournal).2.1 (by rwa [hworker])

theorem WorkerStep.pushedAll {a : WorkerAction} (hstep : WorkerStep config s a s')
    (h : step config s (.worker a) = some s') (hpushed : s.PushedAll) (hs : s.Held)
    (hsound : ∀ id, (s.journal id).Sound) (horderly : s.Orderly)
    (htimeout : config.processingTimeoutMs = 0) : s'.PushedAll := by
  -- the worker has no event in dispatch, and no selection is recorded
  have hidle : a ≠ .select → (∀ e sends, s.worker = .dispatching e sends → sends = []) →
      s'.PushedAll := by
    intro ha hworker n ids hmem id hid
    rcases hpushed n ids (hstep.selected_of_ne ha hmem) id hid with hold | ⟨e, sends, hw, -, hsend⟩
    · exact .inl (mem_log_step h hold)
    · rw [hworker e sends hw] at hsend
      cases hsend
  cases hstep with
  | recv hworker => exact hidle (by simp) (by simp [hworker])
  | drained hworker => exact hidle (by simp) (by simp [hworker])
  | panic hworker => exact hidle (by simp) (by simp [hworker])
  | finish hworker => exact hidle (by simp) (by simp [hworker])
  | halt hworker =>
    intro n ids hmem id hid
    rcases hpushed n ids hmem id hid with hold | ⟨e, sends, hw, -⟩
    · exact .inl hold
    · cases hworker.symm.trans hw
  | timeout hworker hpositive =>
    rw [htimeout] at hpositive
    cases hpositive
  | @select event hworker hrunning =>
    intro n ids hmem id hid
    rcases List.mem_append.mp hmem with hold | hnew
    · rcases hpushed n ids hold id hid with hpushed | ⟨e, sends, hw, -⟩
      · exact .inl (List.mem_append_left _ hpushed)
      · cases hworker.symm.trans hw
    · cases List.mem_singleton.mp hnew
      exact .inr ⟨event, _, rfl, rfl, hid⟩
  | @push event sends i task hworker hi htask haccepts =>
    intro n ids hmem id hid
    have hold : .selected n ids ∈ s.log := by
      rcases List.mem_append.mp hmem with hold | hnew
      · exact hold
      · cases List.mem_singleton.mp hnew
    rcases hpushed n ids hold id hid with hpushed | ⟨e, sends', hw, rfl, hsend⟩
    · exact .inl (List.mem_append_left _ hpushed)
    · cases hworker.symm.trans hw
      by_cases heq : id = i
      · subst heq
        exact .inl (List.mem_append_right _ (List.mem_singleton_self _))
      · exact .inr ⟨event, _, rfl, rfl, (List.mem_erase_of_ne heq).mpr hsend⟩
  | @miss event sends i hworker hi hgone =>
    obtain ⟨task, htask, hreceiver⟩ := hs.live_of_send hsound horderly hworker hi
    cases (hgone task htask).symm.trans hreceiver

theorem PushedAll.step {a : Action} (hpushed : s.PushedAll) (hs : s.Held)
    (hsound : ∀ id, (s.journal id).Sound) (horderly : s.Orderly)
    (htimeout : config.processingTimeoutMs = 0) (h : step config s a = some s') :
    s'.PushedAll := by
  by_cases hworker : ∃ b, a = .worker b
  · obtain ⟨b, rfl⟩ := hworker
    exact (stepWorker_cases h).pushedAll h hpushed hs hsound horderly htimeout
  · have hother : ∀ b, a ≠ .worker b := fun b hb => hworker ⟨b, hb⟩
    intro n ids hmem id hid
    rw [worker_of_not_worker h hother]
    exact (hpushed n ids (selected_of_not_worker h hother hmem) id hid).imp_left (mem_log_step h)

end Sends

/-! ## The call -/

/-- The handler task of the subscription has not ended. -/
def TaskRuns (s : MemoryBus) (id : Uuid) : Prop :=
  (s.tasks[id]?).isSome ∧ ¬ (s.journal id).Over

/-- What has been done when the call is in a phase. -/
def Stage (s : MemoryBus) : ShutdownPhase → Prop
  | .lockingHooks | .runningHooks _ | .lockingDispatcher =>
    s.dispatcher.isSome ∧ ∀ id, s.TaskRuns id → id ∈ s.subscriptions
  | .joining => s.dispatcher = none ∧ ∀ id, s.TaskRuns id → id ∈ s.subscriptions
  | .closing => s.worker.ended = true ∧ ∀ id, s.TaskRuns id → id ∈ s.subscriptions
  | .removing ids handles => s.worker.ended = true ∧
    ∀ id, s.TaskRuns id → id ∈ handles ∨ id ∈ s.subscriptions ∧ id ∈ ids
  | .awaiting handles => s.worker.ended = true ∧ ∀ id, s.TaskRuns id → id ∈ handles
  | .storing | .returned => s.worker.ended = true ∧ ∀ id, ¬ s.TaskRuns id
  | .dropped => True

/-- There is at most one call, a graceful one, and it has done what its phase says. -/
structure Staged (s : MemoryBus) : Prop where
  slot : ∀ dispatcher, s.dispatcher = some dispatcher →
    dispatcher.sender = true ∧ dispatcher.workerHandle = true ∧ s.isRunning = true
  running : s.isRunning = true ∨ s.worker.ended = true
  graceful : ∀ call ∈ s.shutdowns, call.graceful = true
  one : s.shutdowns.length ≤ 1
  before : s.shutdowns = [] →
    s.dispatcher.isSome ∧ ∀ id, s.TaskRuns id → id ∈ s.subscriptions
  stage : ∀ call ∈ s.shutdowns, s.Stage call.phase

section Call

variable {config : EventBusConfig} {s s' : MemoryBus} {late : List Nat}

theorem staged_build : (build config).Staged := by
  constructor <;> simp [build, TaskRuns]

/-- Only `subscribe` starts a task. -/
theorem none_task_step {a : Action} (h : step config s a = some s') {id : Uuid}
    (htask : s.tasks[id]? = none) (ha : ∀ eventType typeName entry,
      a = .subscriber (.subscribe eventType typeName entry) → entry.id ≠ id) :
    s'.tasks[id]? = none := by
  have hinsert : ∀ {i : Uuid} {task : HandlerTask}, (s.tasks[i]?).isSome →
      (s.tasks.insert i task)[id]? = none := by
    intro i task hi
    have hne : i ≠ id := by
      rintro rfl
      simp [htask] at hi
    simpa [Std.ExtTreeMap.getElem?_insert, hne] using htask
  cases a with
  | publisher b =>
    obtain ⟨_, _, _, _, rfl⟩ := (stepPublisher_cases h).frame
    exact htask
  | worker b =>
    cases stepWorker_cases h with
    | push hworker hid hi => exact hinsert (Option.isSome_of_eq_some hi)
    | _ => exact htask
  | handler i b =>
    obtain ⟨task, hi, hstep⟩ := stepHandler_cases h
    have hi := Option.isSome_of_eq_some hi
    cases hstep <;> exact hinsert hi
  | subscriber b =>
    have habort : ∀ (s : MemoryBus) i, s.tasks[id]? = none → (s.abort i).tasks[id]? = none := by
      intro s i hnone
      unfold abort
      split
      · rename_i task hi
        have hne : i ≠ id := by
          rintro rfl
          cases hi.symm.trans hnone
        simpa [setTask, Std.ExtTreeMap.getElem?_insert, hne] using hnone
      · exact hnone
    cases stepSubscriber_cases h with
    | @subscribe eventType typeName entry hfresh =>
      have hne := ha eventType typeName entry rfl
      simpa [setTask, Std.ExtTreeMap.getElem?_insert, hne] using htask
    | signal hi => exact hinsert (Option.isSome_of_eq_some hi)
    | unsubscribe => exact habort _ _ htask
    | autoUnsubscribe => exact habort _ _ htask
    | _ => exact htask
  | shutdown b =>
    cases stepShutdown_cases h with
    | abortAll => simp [setShutdown, shutdownManager, htask]
    | _ => exact htask

theorem taskRuns_step {a : Action} (hsound : ∀ id, (s.journal id).Sound)
    (h : step config s a = some s') {id : Uuid} (hruns : s'.TaskRuns id) :
    s.TaskRuns id ∨ ∃ eventType typeName entry,
      a = .subscriber (.subscribe eventType typeName entry) ∧ entry.id = id := by
  by_cases hsubscribe : ∃ eventType typeName entry,
      a = .subscriber (.subscribe eventType typeName entry) ∧ entry.id = id
  · exact .inr hsubscribe
  · refine .inl ⟨?_, fun hover => hruns.2 ?_⟩
    · by_contra hnone
      have := none_task_step h (Option.not_isSome_iff_eq_none.mp hnone)
        fun eventType typeName entry ha hid => hsubscribe ⟨eventType, typeName, entry, ha, hid⟩
      simp [TaskRuns, this] at hruns
    · rwa [(journal_step h id).of_over (hsound id) hover]

/-- The subscriptions of running tasks stay, until the call removes them. -/
theorem Held.subscription_stays (hs : s.Held) {a : Action} (hC : OneGraceful config (s, late) a)
    (h : MemoryBus.step config s a = some s') (ha : ∀ b, a ≠ .shutdown b) {id : Uuid}
    (hid : id ∈ s.subscriptions) : id ∈ s'.subscriptions := by
  cases a with
  | publisher b =>
    obtain ⟨_, _, _, _, rfl⟩ := (stepPublisher_cases h).frame
    exact hid
  | worker b =>
    obtain ⟨_, _, _, _, rfl⟩ := (stepWorker_cases h).frame
    exact hid
  | handler i b =>
    obtain ⟨task, -, hstep⟩ := stepHandler_cases h
    obtain ⟨_, _, _, _, _, rfl⟩ := hstep.frame
    exact hid
  | subscriber b =>
    cases stepSubscriber_cases h with
    | subscribe => exact List.mem_append_left _ hid
    | unsubscribe => exact hC.elim
    | autoUnsubscribe hunsubs hmem =>
      exact absurd hmem (hs.settled _ (hs.left _ (hunsubs ▸ List.mem_cons_self))).1
    | _ => exact hid
  | shutdown b => exact absurd rfl (ha b)

/-- What was done stays done, while the call does not move. -/
theorem Stage.mono {phase : ShutdownPhase} (h : s.Stage phase)
    (hdispatcher : s'.dispatcher = s.dispatcher)
    (hended : s.worker.ended = true → s'.worker.ended = true)
    (hruns : ∀ id, s'.TaskRuns id → s.TaskRuns id)
    (hsub : ∀ id ∈ s.subscriptions, id ∈ s'.subscriptions) : s'.Stage phase := by
  have hall : (∀ id, s.TaskRuns id → id ∈ s.subscriptions) →
      ∀ id, s'.TaskRuns id → id ∈ s'.subscriptions :=
    fun h id hid => hsub id (h id (hruns id hid))
  cases phase with
  | lockingHooks => exact ⟨hdispatcher ▸ h.1, hall h.2⟩
  | runningHooks next => exact ⟨hdispatcher ▸ h.1, hall h.2⟩
  | lockingDispatcher => exact ⟨hdispatcher ▸ h.1, hall h.2⟩
  | joining => exact ⟨hdispatcher.trans h.1, hall h.2⟩
  | closing => exact ⟨hended h.1, hall h.2⟩
  | removing ids handles =>
    refine ⟨hended h.1, fun id hid => ?_⟩
    exact (h.2 id (hruns id hid)).imp_right fun ⟨hold, hmem⟩ => ⟨hsub id hold, hmem⟩
  | awaiting handles => exact ⟨hended h.1, fun id hid => h.2 id (hruns id hid)⟩
  | storing => exact ⟨hended h.1, fun id hid => h.2 id (hruns id hid)⟩
  | returned => exact ⟨hended h.1, fun id hid => h.2 id (hruns id hid)⟩
  | dropped => trivial

/-- A step of the only call. -/
theorem Staged.go (hs : s.Staged) {n : Nat} {call : ShutdownCall} {phase : ShutdownPhase}
    (hcall : s.shutdowns[n]? = some call)
    (hshutdowns : s'.shutdowns = s.shutdowns.set n { call with phase := phase })
    (hslot : s'.dispatcher = none ∨ s'.dispatcher = s.dispatcher ∧ s'.isRunning = s.isRunning)
    (hrunning : s'.isRunning = true ∨ s'.worker.ended = true) (hstage : s'.Stage phase) :
    s'.Staged := by
  have hone : s'.shutdowns = [{ call with phase := phase }] := by
    obtain ⟨hlt, heq⟩ := List.getElem?_eq_some_iff.mp hcall
    obtain ⟨other, hother⟩ : ∃ other, s.shutdowns = [other] :=
      List.length_eq_one_iff.mp (Nat.le_antisymm hs.one (Nat.succ_le_of_lt (Nat.zero_lt_of_lt hlt)))
    rw [hshutdowns, hother]
    rw [hother] at hlt
    obtain rfl : n = 0 := by simpa using hlt
    rfl
  refine ⟨fun d hd => ?_, hrunning, ?_, ?_, ?_, ?_⟩
  · rcases hslot with hnone | ⟨hsame, hrun⟩
    · cases hnone.symm.trans hd
    · rw [hrun]
      exact hs.slot d (hsame ▸ hd)
  · simpa [hone] using hs.graceful call (List.mem_of_getElem? hcall)
  · simp [hone]
  · simp [hone]
  · simpa [hone] using hstage

theorem Staged.of_shutdown {b : ShutdownAction} (hs : s.Staged)
    (hC : OneGraceful config (s, late) (.shutdown b)) (h : ShutdownStep s b s')
    (hruns : ∀ id, s'.TaskRuns id → s.TaskRuns id) : s'.Staged := by
  have hstage : ∀ {n : Nat} {call : ShutdownCall} {phase : ShutdownPhase},
      s.shutdowns[n]? = some call → call.phase = phase → s.Stage phase := by
    rintro n call phase hcall rfl
    exact hs.stage call (List.mem_of_getElem? hcall)
  have hgraceful : ∀ {n : Nat} {call : ShutdownCall}, s.shutdowns[n]? = some call →
      call.graceful ≠ false :=
    fun hcall habrupt => by simp [hs.graceful _ (List.mem_of_getElem? hcall)] at habrupt
  have hall : (∀ id, s.TaskRuns id → id ∈ s.subscriptions) → s'.subscriptions = s.subscriptions →
      ∀ id, s'.TaskRuns id → id ∈ s'.subscriptions :=
    fun h hsub id hid => hsub ▸ h id (hruns id hid)
  cases h with
  | registerHook =>
    exact ⟨hs.slot, hs.running, hs.graceful, hs.one, hs.before, hs.stage⟩
  | begin graceful =>
    obtain ⟨rfl, hC⟩ := hC
    have hnone : s.shutdowns = [] := hC
    have hone : (s.beginShutdown true).shutdowns = [⟨true, .lockingHooks⟩] := by
      simp [beginShutdown, hnone]
    refine ⟨hs.slot, hs.running, by simp [hone], by simp [hone], by simp [hone], ?_⟩
    intro call hcall
    rw [hone] at hcall
    obtain rfl := List.mem_singleton.mp hcall
    exact hs.before hnone
  | lockHooks hcall hphase =>
    have hst := hstage hcall hphase
    exact hs.go hcall rfl (.inr ⟨rfl, rfl⟩) hs.running ⟨hst.1, hall hst.2 rfl⟩
  | runHook hcall hphase =>
    have hst := hstage hcall hphase
    exact hs.go hcall rfl (.inr ⟨rfl, rfl⟩) hs.running ⟨hst.1, hall hst.2 rfl⟩
  | releaseHooks hcall hphase =>
    have hst := hstage hcall hphase
    exact hs.go hcall rfl (.inr ⟨rfl, rfl⟩) hs.running ⟨hst.1, hall hst.2 rfl⟩
  | noDispatcher hcall hphase hread hwrite hnone =>
    have hst := hstage hcall hphase
    simp [Stage, hnone] at hst
  | @takeDispatcher n call dispatcher isRunning hcall hphase hread hwrite hsome hhandle hrunning =>
    have hst := hstage hcall hphase
    refine hs.go hcall rfl (.inl rfl) (.inl ?_) ⟨rfl, hall hst.2 rfl⟩
    rw [hs.graceful call (List.mem_of_getElem? hcall), if_pos rfl] at hrunning
    exact hrunning.trans (hs.slot _ hsome).2.2
  | skipJoin hcall hphase hread hwrite hsome hskip =>
    obtain ⟨-, hhandle, hrunning⟩ := hs.slot _ hsome
    simp [hhandle, hrunning] at hskip
  | join hcall hphase hended =>
    have hst := hstage hcall hphase
    exact hs.go hcall rfl (.inl hst.1) (.inr hended) ⟨hended, hall hst.2 rfl⟩
  | collect hcall hphase =>
    have hst := hstage hcall hphase
    refine hs.go hcall rfl (.inr ⟨rfl, rfl⟩) hs.running ⟨hst.1, fun id hid => ?_⟩
    exact .inr ⟨hst.2 id (hruns id hid), hst.2 id (hruns id hid)⟩
  | abortAll hcall hphase habrupt => exact absurd habrupt (hgraceful hcall)
  | @remove n call id ids handles hcall hphase hid =>
    have hst := hstage hcall hphase
    refine hs.go hcall rfl (.inr ⟨rfl, rfl⟩) hs.running ⟨hst.1, fun i hi => ?_⟩
    rcases hst.2 i (hruns i hi) with hold | ⟨hsub, hmem⟩
    · exact .inl (List.mem_append_left _ hold)
    · by_cases heq : i = id
      · subst heq
        exact .inl (List.mem_append_right _ (List.mem_singleton_self i))
      · exact .inr ⟨List.mem_filter.mpr ⟨hsub, by simpa using heq⟩,
          List.mem_of_ne_of_mem heq hmem⟩
  | @skip n call id ids handles hcall hphase hid =>
    have hst := hstage hcall hphase
    refine hs.go hcall rfl (.inr ⟨rfl, rfl⟩) hs.running ⟨hst.1, fun i hi => ?_⟩
    refine (hst.2 i (hruns i hi)).imp_right fun ⟨hsub, hmem⟩ => ⟨hsub, ?_⟩
    refine List.mem_of_ne_of_mem ?_ hmem
    rintro rfl
    exact hid hsub
  | await hcall hphase =>
    have hst := hstage hcall hphase
    refine hs.go hcall rfl (.inr ⟨rfl, rfl⟩) hs.running ⟨hst.1, fun i hi => ?_⟩
    exact (hst.2 i (hruns i hi)).resolve_right fun ⟨_, hmem⟩ => List.not_mem_nil hmem
  | @joinTask n call id handles hcall hphase hended =>
    have hst := hstage hcall hphase
    refine hs.go hcall rfl (.inr ⟨rfl, rfl⟩) hs.running ⟨hst.1, fun i hi => ?_⟩
    refine List.mem_of_ne_of_mem ?_ (hst.2 i (hruns i hi))
    rintro rfl
    obtain ⟨hsome, hnot⟩ := hruns i hi
    obtain ⟨task, htask⟩ := Option.isSome_iff_exists.mp hsome
    exact hnot (over_journal.mpr ⟨task, htask, by rw [hended task htask]; rfl⟩)
  | joinedAll hcall hphase =>
    have hst := hstage hcall hphase
    refine hs.go hcall rfl (.inr ⟨rfl, rfl⟩) hs.running ⟨hst.1, fun i hi => ?_⟩
    exact List.not_mem_nil (hst.2 i (hruns i hi))
  | store hcall hphase =>
    have hst := hstage hcall hphase
    exact hs.go hcall rfl (.inr ⟨rfl, rfl⟩) hs.running
      ⟨hst.1, fun i hi => hst.2 i (hruns i hi)⟩
  | timeout hcall habrupt => exact absurd habrupt (hgraceful hcall)
  | drop hcall hphase => exact hs.go hcall rfl (.inr ⟨rfl, rfl⟩) hs.running trivial

theorem Staged.step {a : Action} (hs : s.Staged) (hheld : s.Held)
    (hsound : ∀ id, (s.journal id).Sound) (hC : OneGraceful config (s, late) a)
    (h : MemoryBus.step config s a = some s') : s'.Staged := by
  by_cases hshutdown : ∃ b, a = .shutdown b
  · obtain ⟨b, rfl⟩ := hshutdown
    refine hs.of_shutdown hC (stepShutdown_cases h) fun id hid => ?_
    rcases taskRuns_step hsound h hid with hold | ⟨_, _, _, ha, -⟩
    · exact hold
    · cases ha
  · have hother : ∀ b, a ≠ .shutdown b := fun b hb => hshutdown ⟨b, hb⟩
    obtain ⟨hshutdowns, -, -, hdispatcher, hrunning⟩ := of_not_shutdown h hother
    have hsub : ∀ id ∈ s.subscriptions, id ∈ s'.subscriptions :=
      fun id hid => hheld.subscription_stays hC h hother hid
    refine ⟨fun d hd => ?_, ?_, by rw [hshutdowns]; exact hs.graceful,
      by rw [hshutdowns]; exact hs.one, fun hnone => ?_, fun call hcall => ?_⟩
    · rw [hrunning]
      exact hs.slot d (hdispatcher ▸ hd)
    · rw [hrunning]
      exact hs.running.imp_right (ended_step h)
    · rw [hshutdowns] at hnone
      obtain ⟨hsome, hall⟩ := hs.before hnone
      refine ⟨hdispatcher ▸ hsome, fun id hid => ?_⟩
      rcases taskRuns_step hsound h hid with hold | ⟨eventType, typeName, entry, rfl, rfl⟩
      · exact hsub id (hall id hold)
      · cases stepSubscriber_cases (a := .subscribe eventType typeName entry) h with
        | subscribe => exact List.mem_append_right _ (List.mem_singleton_self _)
    · rw [hshutdowns] at hcall
      refine (hs.stage call hcall).mono hdispatcher (ended_step h) (fun id hid => ?_) hsub
      rcases taskRuns_step hsound h hid with hold | ⟨eventType, typeName, entry, rfl, -⟩
      · exact hold
      · -- no subscription is made once there is a call
        have hnone : s.shutdowns = [] := hC
        rw [hnone] at hcall
        cases hcall

end Call

/-! ## The events -/

/-- As long as no filter panics, an accepted event stays on its way to a selection. -/
structure Retained (s : MemoryBus) : Prop where
  accepted : ∀ n, s.accepted n → n ∈ s.entered ++ s.sleepers.map (·.addr)
  drained : s.worker.ended = true →
    s.dispatcher = none ∧ s.sleepers = [] ∧ s.entered = s.through
  recorded : ∀ n, (n ∈ s.through ∨ ∃ e sends, s.worker = .dispatching e sends ∧ e.addr = n) →
    ∃ ids, .selected n ids ∈ s.log

section Events

variable {config : EventBusConfig} {s s' : MemoryBus}

theorem retained_build : (build config).Retained := by
  constructor <;> simp [build, MemoryBus.accepted, through, DispatchWorker.ended]

theorem accepted_setCall {n : Nat} {call : PublishCall} {phase : PublishPhase}
    (hcalls : s'.calls = s.calls.set n { call with phase := phase }) {m : Nat}
    (h : s'.accepted m) :
    s.accepted m ∨ m = n ∧ ∃ eventId, phase = .returned (.ok eventId) := by
  obtain ⟨other, eventId, hother, hphase⟩ := h
  rw [hcalls] at hother
  by_cases hne : n = m
  · subst hne
    obtain ⟨hlt, hself⟩ := List.getElem?_eq_some_iff.mp hother
    rw [List.getElem_set_self] at hself
    exact .inr ⟨rfl, eventId, by rw [← hphase, ← hself]⟩
  · rw [List.getElem?_set_ne hne] at hother
    exact .inl ⟨other, eventId, hother, hphase⟩

/-- An event leaves its publish call while the call is pending. -/
theorem PublisherStep.left (h : PublisherStep config s s') {n : Nat}
    (hn : n ∈ s'.entered ++ s'.sleepers.map (·.addr)) :
    n ∈ s.entered ++ s.sleepers.map (·.addr) ∨
      ∃ call, s.calls[n]? = some call ∧ call.pending = true := by
  cases h with
  | @schedule m call dispatcher hcall hphase hdispatcher sleepers hsleepers =>
    have hpending := pending_of_guarded (guarded_of_checking hphase)
    have hmem : n ∈ s.entered ++ sleepers.map (·.addr) := hn
    rw [hsleepers] at hmem
    split at hmem
    · rw [List.map_append, ← List.append_assoc] at hmem
      rcases List.mem_append.mp hmem with hold | hnew
      · exact .inl hold
      · obtain rfl := List.mem_singleton.mp hnew
        exact .inr ⟨call, hcall, hpending⟩
    · exact .inl hmem
  | @enter m call hcall hguarded haccepts =>
    have hentered : ((s.enqueue m (s.queue.push ⟨m, call.envelope⟩)).finish m call
        (.ok call.envelope.eventId)).entered = s.entered ++ [m] :=
      entered_observe_entered (s := s) m
    rcases List.mem_append.mp hn with hold | hold
    · rw [hentered] at hold
      rcases List.mem_append.mp hold with hold | hnew
      · exact .inl (List.mem_append_left _ hold)
      · obtain rfl := List.mem_singleton.mp hnew
        exact .inr ⟨call, hcall, pending_of_guarded hguarded⟩
    · exact .inl (List.mem_append_right _ hold)
  | @wake index event hevent haccepts =>
    refine .inl ?_
    rw [enqueue, entered_observe_entered] at hn
    obtain ⟨hlt, rfl⟩ := List.getElem?_eq_some_iff.mp hevent
    have hperm := (List.getElem_cons_eraseIdx_perm hlt).map (·.addr)
    rw [List.append_assoc] at hn
    exact ((hperm.append_left s.entered).mem_iff).mp hn
  | @lose index event hevent hclosed =>
    refine .inl ?_
    have hsub : ((s.sleepers.eraseIdx index).map (·.addr)).Sublist (s.sleepers.map (·.addr)) :=
      (List.eraseIdx_sublist _ _).map _
    exact (hsub.append_left s.entered).subset hn
  | _ => exact .inl hn

/-- A call that has returned stays as it is. -/
theorem PublisherStep.returned (h : PublisherStep config s s') {n : Nat} {call : PublishCall}
    (hcall : s.calls[n]? = some call) (hpending : call.pending = false) :
    s'.calls[n]? = some call := by
  have hset : ∀ {m : Nat} {other : PublishCall} {phase : PublishPhase},
      s.calls[m]? = some other → other.pending = true →
      (s.setCall m other phase).calls[n]? = some call := by
    intro m other phase hother hpending'
    have hne : m ≠ n := by
      rintro rfl
      cases hcall.symm.trans hother
      exact Bool.false_ne_true (hpending.symm.trans hpending')
    exact (List.getElem?_set_ne hne).trans hcall
  cases h with
  | publish =>
    obtain ⟨hlt, -⟩ := List.getElem?_eq_some_iff.mp hcall
    exact (List.getElem?_append_left hlt).trans hcall
  | acquire hother hphase => exact hset hother (by simp [PublishCall.pending, hphase])
  | refuse hother hguarded => exact hset hother (pending_of_guarded hguarded)
  | discard hother hguarded => exact hset hother (pending_of_guarded hguarded)
  | schedule hother hphase =>
    exact hset hother (pending_of_guarded (guarded_of_checking hphase))
  | await hother hphase => exact hset hother (pending_of_guarded (guarded_of_checking hphase))
  | enter hother hguarded => exact hset hother (pending_of_guarded hguarded)
  | cancel hother hphase =>
    exact hset hother (by rcases hphase with h | h <;> simp [PublishCall.pending, h])
  | wake => exact hcall
  | lose => exact hcall

/-- A call that begins has not returned `Ok`. -/
theorem accepted_publish {envelope : EventEnvelope} {nonBlocking : Bool} {m : Nat}
    (h : (s.publish envelope nonBlocking).accepted m) : s.accepted m := by
  obtain ⟨call, eventId, hcall, hphase⟩ := h
  by_cases hlt : m < s.calls.length
  · exact ⟨call, eventId, (List.getElem?_append_left hlt).symm.trans hcall, hphase⟩
  · rw [publish, List.getElem?_append_right (Nat.le_of_not_lt hlt)] at hcall
    obtain rfl := List.mem_singleton.mp (List.mem_of_getElem? hcall)
    dsimp only at hphase
    split at hphase
    · cases hphase
    · exact absurd (PublishPhase.returned.inj hphase) (shuttingDown_ne_ok nonBlocking eventId)

theorem PublisherStep.retained (h : PublisherStep config s s') (hs : s.Retained)
    (hstaged : s.Staged) (hqueued : s.Queued) (hdrop : config.dropOnFull = false) :
    s'.Retained := by
  -- a call goes on without leaving an event
  have hset : ∀ {n : Nat} {call : PublishCall} {phase : PublishPhase},
      s' = s.setCall n call phase → (∀ eventId, phase ≠ .returned (.ok eventId)) →
      s'.Retained := by
    rintro n call phase rfl hphase
    refine ⟨fun m hm => ?_, hs.drained, hs.recorded⟩
    rcases accepted_setCall rfl hm with hold | ⟨-, eventId, heq⟩
    · exact hs.accepted m hold
    · exact absurd heq (hphase eventId)
  -- as long as the queue is open, the worker has not ended
  have hopen : s.queue.receiver = true → s.worker.ended ≠ true := by
    intro hreceiver hended
    cases hreceiver.symm.trans (hqueued.ended hended).1
  have hrecorded : ∀ event : Nat, s'.worker = s.worker → s'.log = s.log ++ [.entered event] →
      ∀ n, (n ∈ s'.through ∨ ∃ e sends, s'.worker = .dispatching e sends ∧ e.addr = n) →
        ∃ ids, .selected n ids ∈ s'.log := by
    intro event hworker hlog n hn
    rw [through_of_log hlog (by simp [Observation.leaves]), hworker] at hn
    obtain ⟨ids, hmem⟩ := hs.recorded n hn
    exact ⟨ids, hlog ▸ List.mem_append_left _ hmem⟩
  cases h with
  | publish envelope nonBlocking =>
    exact ⟨fun m hm => hs.accepted m (accepted_publish hm), hs.drained, hs.recorded⟩
  | acquire => exact hset rfl (by simp)
  | refuse hcall hguarded hresult => exact hset rfl (by simpa using hresult)
  | discard hcall hguarded hdropped => cases hdrop.symm.trans hdropped
  | @schedule n call dispatcher hcall hphase hdispatcher sleepers hsleepers =>
    rw [(hstaged.slot dispatcher hdispatcher).1, if_pos rfl] at hsleepers
    subst hsleepers
    refine ⟨fun m hm => ?_, fun hended => ?_, hs.recorded⟩
    · show m ∈ s.entered ++ (s.sleepers ++ [(⟨n, call.envelope⟩ : ArcEnvelope)]).map (·.addr)
      rw [List.map_append, ← List.append_assoc]
      rcases accepted_setCall (s := s) rfl hm with hold | ⟨rfl, -⟩
      · exact List.mem_append_left _ (hs.accepted m hold)
      · exact List.mem_append_right _ (List.mem_singleton_self _)
    · cases hdispatcher.symm.trans (hs.drained hended).1
  | await => exact hset rfl (by simp)
  | @enter n call hcall hguarded haccepts =>
    have hentered : ((s.enqueue n (s.queue.push ⟨n, call.envelope⟩)).finish n call
        (.ok call.envelope.eventId)).entered = s.entered ++ [n] :=
      entered_observe_entered (s := s) n
    refine ⟨fun m hm => ?_, fun hended => absurd hended (hopen haccepts.1),
      hrecorded n rfl rfl⟩
    rw [hentered]
    rcases accepted_setCall (s := s) rfl hm with hold | ⟨rfl, -⟩
    · rcases List.mem_append.mp (hs.accepted m hold) with hmem | hmem
      · exact List.mem_append_left _ (List.mem_append_left _ hmem)
      · exact List.mem_append_right _ hmem
    · exact List.mem_append_left _ (List.mem_append_right _ (List.mem_singleton_self _))
  | cancel => exact hset rfl (by simp)
  | @wake index event hevent haccepts =>
    refine ⟨fun m hm => ?_, fun hended => absurd hended (hopen haccepts.1),
      hrecorded event.addr rfl rfl⟩
    obtain ⟨hlt, rfl⟩ := List.getElem?_eq_some_iff.mp hevent
    have hperm := (List.getElem_cons_eraseIdx_perm hlt).map (·.addr)
    rw [enqueue, entered_observe_entered, List.append_assoc]
    exact ((hperm.append_left s.entered).mem_iff).mpr (hs.accepted m hm)
  | @lose index event hevent hclosed =>
    -- the receiver is gone only when no event sleeps
    have hended : s.worker.ended = true := by
      cases hended : s.worker.ended with
      | true => rfl
      | false => cases hclosed.symm.trans (hqueued.working hended).1
    rw [(hs.drained hended).2.1] at hevent
    cases hevent

theorem WorkerStep.retained {a : WorkerAction} (h : WorkerStep config s a s') (hs : s.Retained)
    (hstaged : s.Staged) (hqueued : s.Queued) (ha : a ≠ .panic)
    (hlog : ∀ o ∈ s.log, o ∈ s'.log) : s'.Retained := by
  have haccepted : s'.calls = s.calls → s'.sleepers = s.sleepers → ∀ n, s'.accepted n →
      n ∈ s'.entered ++ s'.sleepers.map (·.addr) := by
    intro hcalls hsleepers n hn
    rw [h.entered_eq, hsleepers]
    obtain ⟨call, eventId, hcall, hphase⟩ := hn
    exact hs.accepted n ⟨call, eventId, hcalls ▸ hcall, hphase⟩
  have hold : ∀ n, (n ∈ s.through ∨ ∃ e sends, s.worker = .dispatching e sends ∧ e.addr = n) →
      ∃ ids, .selected n ids ∈ s'.log := by
    intro n hn
    obtain ⟨ids, hmem⟩ := hs.recorded n hn
    exact ⟨ids, hlog _ hmem⟩
  -- the worker is not dispatching afterwards
  have hidle : (∀ e sends, s'.worker ≠ .dispatching e sends) → ∀ n,
      (n ∈ s'.through ∨ ∃ e sends, s'.worker = .dispatching e sends ∧ e.addr = n) →
        ∃ ids, .selected n ids ∈ s'.log := by
    rintro hworker n (hn | ⟨e, sends, hw, -⟩)
    · rcases h.through_cases with hsame | ⟨e, sends, hw, hnew, -⟩
      · exact hold n (.inl (hsame ▸ hn))
      · rw [hnew] at hn
        rcases List.mem_append.mp hn with hn | hn
        · exact hold n (.inl hn)
        · exact hold n (.inr ⟨e, sends, hw, (List.mem_singleton.mp hn).symm⟩)
    · exact absurd hw (hworker e sends)
  cases h with
  | recv hworker =>
    exact ⟨haccepted rfl rfl, (fun h => absurd h Bool.false_ne_true), hidle (by simp)⟩
  | drained hworker hbuffer hsender =>
    refine ⟨haccepted rfl rfl, fun _ => ?_, hidle (by simp [stopWorker])⟩
    rw [noSender, Bool.and_eq_true, List.isEmpty_iff] at hsender
    refine ⟨?_, hsender.2, ?_⟩
    · cases hdispatcher : s.dispatcher with
      | none => exact hdispatcher
      | some dispatcher =>
        have := hsender.1
        rw [hdispatcher] at this
        simp [(hstaged.slot dispatcher hdispatcher).1] at this
    · have hall := (hqueued.working (by simp [hworker, DispatchWorker.ended])).2
      rw [hworker, hbuffer] at hall
      show s.entered = s.through
      simpa [DispatchWorker.hand] using hall
  | @select event hworker hrunning =>
    refine ⟨haccepted rfl rfl, (fun h => absurd h Bool.false_ne_true), ?_⟩
    rintro n (hn | ⟨e, sends, hw, rfl⟩)
    · rw [through_of_log rfl (by simp [Observation.leaves])] at hn
      exact hold n (.inl hn)
    · cases hw
      exact ⟨_, List.mem_append_right _ (List.mem_singleton_self _)⟩
  | halt hworker hrunning =>
    rcases hstaged.running with h | h
    · cases hrunning.symm.trans h
    · simp [hworker, DispatchWorker.ended] at h
  | @push event sends id task hworker hid htask haccepts =>
    refine ⟨haccepted rfl rfl, (fun h => absurd h Bool.false_ne_true), ?_⟩
    rintro n (hn | ⟨e, sends', hw, rfl⟩)
    · rw [through_of_log rfl (by simp [Observation.leaves])] at hn
      exact hold n (.inl hn)
    · cases hw
      exact hold _ (.inr ⟨event, sends, hworker, rfl⟩)
  | @miss event sends id hworker hid htask =>
    refine ⟨haccepted rfl rfl, (fun h => absurd h Bool.false_ne_true), ?_⟩
    rintro n (hn | ⟨e, sends', hw, rfl⟩)
    · exact hold n (.inl hn)
    · cases hw
      exact hold _ (.inr ⟨event, sends, hworker, rfl⟩)
  | finish hworker =>
    exact ⟨haccepted rfl rfl, (fun h => absurd h Bool.false_ne_true),
      hidle (by simp [leaveDispatch, observe])⟩
  | timeout hworker =>
    exact ⟨haccepted rfl rfl, (fun h => absurd h Bool.false_ne_true),
      hidle (by simp [leaveDispatch, observe])⟩
  | panic => exact absurd rfl ha

theorem Retained.step {a : Action} (hs : s.Retained) (hstaged : s.Staged) (hqueued : s.Queued)
    (hdrop : config.dropOnFull = false) (ha : a ≠ .worker .panic)
    (h : MemoryBus.step config s a = some s') : s'.Retained := by
  have hother : (∀ b, a ≠ .publisher b) → (∀ b, a ≠ .worker b) →
      (s.dispatcher = none → s'.dispatcher = none) → s'.Retained := by
    intro hpublisher hworker hdispatcher
    obtain ⟨hentered, hsleepers, hcalls⟩ := of_not_publisher h hpublisher
    have hw := worker_of_not_worker h hworker
    have hthrough := through_of_not_worker h hworker
    refine ⟨fun n hn => ?_, fun hended => ?_, fun n hn => ?_⟩
    · rw [hentered, hsleepers]
      obtain ⟨call, eventId, hcall, hphase⟩ := hn
      exact hs.accepted n ⟨call, eventId, hcalls ▸ hcall, hphase⟩
    · rw [hsleepers, hentered, hthrough]
      obtain ⟨hnone, hrest⟩ := hs.drained (hw ▸ hended)
      exact ⟨hdispatcher hnone, hrest⟩
    · rw [hthrough, hw] at hn
      obtain ⟨ids, hmem⟩ := hs.recorded n hn
      exact ⟨ids, mem_log_step h hmem⟩
  cases a with
  | publisher b => exact (stepPublisher_cases h).retained hs hstaged hqueued hdrop
  | worker b =>
    refine (stepWorker_cases h).retained hs hstaged hqueued ?_ fun o ho => mem_log_step h ho
    rintro rfl
    exact ha rfl
  | handler id b =>
    exact hother (by simp) (by simp) fun hnone => (of_not_shutdown h (by simp)).2.2.2.1.trans hnone
  | subscriber b =>
    exact hother (by simp) (by simp) fun hnone => (of_not_shutdown h (by simp)).2.2.2.1.trans hnone
  | shutdown b =>
    refine hother (by simp) (by simp) fun hnone => ?_
    cases stepShutdown_cases h <;> first | rfl | exact hnone

end Events

/-! ## Late publish calls -/

section Runs

variable {config : EventBusConfig}

theorem Refused.step {s s' : MemoryBus × List Nat} {a : Action} (hs : Refused s)
    (hnamed : s.1.Named) (h : stepWithLate config s a = some s') : Refused s' := by
  obtain ⟨hstep, hrecord⟩ := Transition.withHistory_eq_some.mp h
  -- the calls that were late before
  have hold : ∀ n ∈ s.2, (∃ call, s'.1.calls[n]? = some call ∧
      call.phase = .returned (shuttingDown call.nonBlocking)) ∧
      n ∉ s'.1.entered ++ s'.1.sleepers.map (·.addr) := by
    intro n hn
    obtain ⟨⟨call, hcall, hphase⟩, hnot⟩ := hs n hn
    have hpending : call.pending = false := by simp [PublishCall.pending, hphase]
    by_cases hpublisher : ∃ b, a = .publisher b
    · obtain ⟨b, rfl⟩ := hpublisher
      have hcase := stepPublisher_cases hstep
      refine ⟨⟨call, hcase.returned hcall hpending, hphase⟩, fun hmem => ?_⟩
      rcases hcase.left hmem with hmem | ⟨other, hother, hpending'⟩
      · exact hnot hmem
      · cases hcall.symm.trans hother
        exact Bool.false_ne_true (hpending.symm.trans hpending')
    · obtain ⟨hentered, hsleepers, hcalls⟩ :=
        of_not_publisher hstep fun b hb => hpublisher ⟨b, hb⟩
      rw [hentered, hsleepers, hcalls]
      exact ⟨⟨call, hcall, hphase⟩, hnot⟩
  intro n hn
  by_cases hlate : n ∈ s.2
  · exact hold n hlate
  -- the call that is late begins in this step
  obtain ⟨envelope, nonBlocking, rfl, hstate, rfl⟩ : ∃ envelope nonBlocking,
      a = .publisher (.publish envelope nonBlocking) ∧ s.1.shutdownState ≠ .running ∧
        n = s.1.calls.length := by
    rw [hrecord] at hn
    unfold recordLate at hn
    split at hn
    · rename_i envelope nonBlocking
      split at hn
      · exact absurd hn hlate
      · rename_i hstate
        exact ⟨envelope, nonBlocking, rfl, hstate,
          List.mem_singleton.mp ((List.mem_append.mp hn).resolve_left hlate)⟩
    · exact absurd hn hlate
  have hbus : s'.1 = s.1.publish envelope nonBlocking := (Option.some.inj hstep).symm
  rw [hbus]
  refine ⟨⟨⟨envelope, nonBlocking, .returned (shuttingDown nonBlocking)⟩, ?_, rfl⟩, fun hmem => ?_⟩
  · simp [publish, hstate]
  · obtain ⟨call, hcall, -⟩ := hnamed.returned _ hmem
    obtain ⟨hlt, -⟩ := List.getElem?_eq_some_iff.mp hcall
    exact absurd hlt (Nat.lt_irrefl _)

/-! ## Every run -/

/-- What a graceful shutdown rests on. -/
structure Gracefully (s : MemoryBus × List Nat) : Prop where
  orderly : s.1.Orderly
  sound : ∀ id, (s.1.journal id).Sound
  held : s.1.Held
  pushed : s.1.PushedAll
  staged : s.1.Staged
  refused : Refused s

theorem gracefully_build : Gracefully (build config, []) where
  orderly := orderly_build
  sound := sound_build
  held := by
    refine ⟨by simp [Quiet, build], fun id hover => ?_, by simp [build]⟩
    rw [journal_build] at hover
    simp [Journal.Over] at hover
  pushed := by simp [PushedAll, build]
  staged := staged_build
  refused := by simp [Refused]

theorem Gracefully.step {s s' : MemoryBus × List Nat} {a : Action} (hs : Gracefully s)
    (htimeout : config.processingTimeoutMs = 0) (hC : OneGraceful config s a)
    (h : stepWithLate config s a = some s') : Gracefully s' := by
  obtain ⟨hstep, -⟩ := Transition.withHistory_eq_some.mp h
  exact ⟨hs.orderly.step hstep, fun id => (hs.sound id).step (journal_step hstep id),
    hs.held.step hs.sound hC hs.staged.graceful hstep,
    hs.pushed.step hs.held hs.sound hs.orderly htimeout hstep,
    hs.staged.step hs.held hs.sound hC hstep, hs.refused.step hs.orderly.named h⟩

/-- When the call has returned, a selected subscription has handled the event. -/
theorem Gracefully.handled {s : MemoryBus × List Nat} (hs : Gracefully s)
    (hreturned : ∃ call ∈ s.1.shutdowns, call.phase = .returned) {n : Nat} {ids : List Uuid}
    (hselected : .selected n ids ∈ s.1.log) {id : Uuid} (hid : id ∈ ids) :
    .marked .acked id n ∈ s.1.log ∨ .marked .failed id n ∈ s.1.log := by
  obtain ⟨call, hcall, hphase⟩ := hreturned
  have hstage := hs.staged.stage call hcall
  rw [hphase] at hstage
  obtain ⟨hended, hover⟩ := hstage
  have hpushed : .marked .pushed id n ∈ s.1.log := by
    rcases hs.pushed n ids hselected id hid with hpushed | ⟨e, sends, hw, -⟩
    · exact hpushed
    · simp [hw, DispatchWorker.ended] at hended
  have htask := hs.orderly.dispatching.tasks n ids hselected id hid
  have hjournal : (s.1.journal id).Over := by
    by_contra hnot
    exact hover id ⟨htask, hnot⟩
  have hmem := mem_pushed.mpr hpushed
  rw [(hs.held.settled id hjournal).2.2] at hmem
  obtain ⟨mark, hmark, hlog⟩ := mem_events.mp hmem
  rcases List.mem_cons.mp hmark with rfl | hmark
  · exact .inl hlog
  · rw [List.mem_singleton.mp hmark] at hlog
    exact .inr hlog

/-- The events of accepted calls have been selected for when the call has returned. -/
theorem Retained.selected {s : MemoryBus × List Nat} (hs : s.1.Retained) (hstaged : s.1.Staged)
    (hreturned : ∃ call ∈ s.1.shutdowns, call.phase = .returned) {n : Nat}
    (haccepted : s.1.accepted n) : ∃ ids, .selected n ids ∈ s.1.log := by
  obtain ⟨call, hcall, hphase⟩ := hreturned
  have hstage := hstaged.stage call hcall
  rw [hphase] at hstage
  obtain ⟨-, hsleepers, hthrough⟩ := hs.drained hstage.1
  have hmem := hs.accepted n haccepted
  rw [hsleepers, hthrough] at hmem
  exact hs.recorded n (.inl (by simpa using hmem))

/-- **Graceful shutdown loses no accepted event.** In every run with one graceful shutdown,
    and every accepted event has been selected for by then unless a filter panicked. -/
theorem losesNothing_exec (hdrop : config.dropOnFull = false)
    (htimeout : config.processingTimeoutMs = 0) {s : MemoryBus × List Nat} {as : List Action}
    (hC : Transition.Along (stepWithLate config) (OneGraceful config) (build config, []) as)
    (hexec : Transition.exec (stepWithLate config) (build config, []) as = some s) :
    LosesNothing s ∧ ((∀ a ∈ as, a ≠ .worker .panic) →
      (∃ call ∈ s.1.shutdowns, call.phase = .returned) → ∀ n, s.1.accepted n →
        ∃ ids, .selected n ids ∈ s.1.log) := by
  have hs := Transition.invariant_along (fun _ _ _ hs hC hstep => hs.step htimeout hC hstep)
    gracefully_build hC hexec
  refine ⟨⟨fun hreturned n _ ids hselected id hid => hs.handled hreturned hselected hid,
    hs.refused⟩, fun hpanic hreturned n haccepted => ?_⟩
  have hboth : Transition.Along (stepWithLate config)
      (fun s a => OneGraceful config s a ∧ a ≠ .worker .panic) (build config, []) as :=
    hC.and (Transition.along_of_forall (fun a ha _ => hpanic a ha) _)
  have hretained := (Transition.invariant_along
    (I := fun s : MemoryBus × List Nat => Gracefully s ∧ s.1.Retained)
    (fun _ _ _ hs hC hstep => ⟨hs.1.step htimeout hC.1 hstep,
      hs.2.step hs.1.staged hs.1.orderly.queued hdrop hC.2
        (Transition.withHistory_eq_some.mp hstep).1⟩)
    ⟨gracefully_build, retained_build⟩ hboth hexec).2
  exact hretained.selected hs.staged hreturned haccepted

/-- An order of type 1 for a later time. -/
def scheduledOrder (eventId : Uuid) (deliverAt : DateTime) : EventEnvelope :=
  .withMetadata 1 "OrderEvent" .ok [] { eventId, timestamp := 0, deliverAt := some deliverAt }

/-- An order, a scheduled order that is due during the shutdown, and one that is late. -/
def drainedOrders : List Action :=
  [.subscriber (.subscribe 1 "OrderEvent" { id := 10 })] ++ publishSteps 0 (order 7)
    ++ [.publisher (.publish (scheduledOrder 8 50) false), .publisher (.acquire 1),
      .publisher (.dispatch 1 0)]
    ++ [.shutdown (.begin true), .publisher (.publish (order 9) true)]
    ++ .replicate 3 (.shutdown (.advance 0))
    ++ dispatchSteps [10] ++ [.worker .finish, .publisher (.wake 0)]
    ++ dispatchSteps [10] ++ [.worker .finish, .worker .recv]
    ++ .replicate 4 (.shutdown (.advance 0))
    ++ [.handler 10 .recv, .handler 10 (.outcome .ok), .handler 10 .recv,
      .handler 10 (.outcome .ok), .handler 10 .closed]
    ++ .replicate 3 (.shutdown (.advance 0))

theorem losesNothing_drainedOrders :
    ∃ s, Transition.exec (stepWithLate { processingTimeoutMs := 0 })
        (build { processingTimeoutMs := 0 }, []) drainedOrders = some s ∧ LosesNothing s ∧
      (∃ ids, .selected 1 ids ∈ s.1.log) ∧ s.1.shutdownState = .stopped ∧ s.2 = [2] ∧
      (s.1.journal 10).handled = [0, 1] := by
  obtain ⟨s, hs⟩ := Option.isSome_iff_exists.mp
    (by decide +kernel : (Transition.exec (stepWithLate { processingTimeoutMs := 0 })
      (build { processingTimeoutMs := 0 }, []) drainedOrders).isSome = true)
  have hseen : (Transition.exec (stepWithLate { processingTimeoutMs := 0 })
      (build { processingTimeoutMs := 0 }, []) drainedOrders).map
      (fun s => (s.1.shutdownState, s.2, (s.1.journal 10).handled)) = some (.stopped, [2], [0, 1])
      := by decide +kernel
  have hcalls : (Transition.exec (stepWithLate { processingTimeoutMs := 0 })
      (build { processingTimeoutMs := 0 }, []) drainedOrders).map
      (fun s => (s.1.shutdowns, s.1.calls[1]?.map (·.phase)))
      = some ([⟨true, .returned⟩], some (.returned (.ok 8))) := by decide +kernel
  rw [hs] at hseen hcalls
  obtain ⟨hstate, hrest⟩ := Prod.mk.inj (Option.some.inj hseen)
  obtain ⟨hshutdowns, hcall⟩ := Prod.mk.inj (Option.some.inj hcalls)
  obtain ⟨call, hcall, hphase⟩ := Option.map_eq_some_iff.mp hcall
  have halong : Transition.Along (stepWithLate { processingTimeoutMs := 0 })
      (OneGraceful { processingTimeoutMs := 0 }) (build { processingTimeoutMs := 0 }, [])
      drainedOrders := of_decide_eq_true (by decide +kernel)
  obtain ⟨hloses, hselected⟩ := losesNothing_exec rfl rfl halong hs
  refine ⟨s, hs, hloses, ?_, hstate, Prod.mk.inj hrest⟩
  refine hselected (by simp [drainedOrders, publishSteps, dispatchSteps])
    ⟨⟨true, .returned⟩, ?_, rfl⟩ 1 ⟨call, 8, hcall, hphase⟩
  exact (show s.1.shutdowns = _ from hshutdowns) ▸ List.mem_singleton_self _

end Runs
end MemoryBus
end TokioEvents
