/-
  TokioEvents.Bus.Journal

  The bus as one subscription sees it: its handler task with the channel, and what has
  become of the events at this subscription.  Whatever step the system takes, a
  subscription takes one of a few steps of its own (`journal_step`), so what these
  preserve holds in every run.
-/

import TokioEvents.Bus.Effects

namespace TokioEvents

/-- The event that enters the dispatcher queue. -/
def Observation.enters : Observation → Option Nat
  | .entered event => some event
  | _ => none

/-- What the log says about one subscription. -/
def Observation.entryOf (id : Uuid) : Observation → Option (Mark × Nat)
  | .marked mark i event => if i = id then some (mark, event) else none
  | _ => none

/-- The handler task's channel and phase, and the entries of the log. -/
structure Journal where
  task : Option (Mpsc.Channel ArcEnvelope × HandlerPhase)
  entries : List (Mark × Nat)

namespace Journal

/-- The events with one of the marks, in order. -/
def events (j : Journal) (marks : List Mark) : List Nat :=
  (j.entries.filter fun entry => entry.1 ∈ marks).map (·.2)

/-- The events pushed to the channel. -/
def pushed (j : Journal) : List Nat := j.events [.pushed]

/-- The events the handler was started on. -/
def started (j : Journal) : List Nat := j.events [.started]

/-- The events the handler was called with, once for each attempt. -/
def attempted (j : Journal) : List Nat := j.events [.attempted]

/-- The events that were acknowledged or marked failed. -/
def handled (j : Journal) : List Nat := j.events [.acked, .failed]

/-- One more entry, and another phase. -/
def write (j : Journal) (task : Mpsc.Channel ArcEnvelope × HandlerPhase)
    (entries : List (Mark × Nat)) : Journal :=
  ⟨some task, j.entries ++ entries⟩

/-- The steps of one subscription, with the action its handler task takes, if any. -/
inductive Step (config : EventBusConfig) (dlq : Bool) (j : Journal) :
    Option MemoryBus.HandlerAction → Journal → Prop where
  | idle : Step config dlq j none j
  | opened (htask : j.task = none) :
      Step config dlq j none (j.write (.new config.handlerChannelSize, .selecting) [])
  | push {channel : Mpsc.Channel ArcEnvelope} {phase : HandlerPhase} {event : ArcEnvelope}
      (htask : j.task = some (channel, phase)) (haccepts : channel.Accepts) :
      Step config dlq j none (j.write (channel.push event, phase) [(.pushed, event.addr)])
  | recv {channel : Mpsc.Channel ArcEnvelope} {event : ArcEnvelope} {rest : List ArcEnvelope}
      (htask : j.task = some (channel, .selecting)) (hbuffer : channel.buffer = event :: rest) :
      Step config dlq j (some .recv)
        (j.write ({ channel with buffer := rest }, .handling event 0)
          [(.started, event.addr), (.attempted, event.addr)])
  | closed {channel : Mpsc.Channel ArcEnvelope} (htask : j.task = some (channel, .selecting))
      (hbuffer : channel.buffer = []) :
      Step config dlq j (some .closed) (j.write (channel.dropReceiver, .ended) [])
  | interrupt {channel : Mpsc.Channel ArcEnvelope}
      (htask : j.task = some (channel, .selecting)) :
      Step config dlq j (some .interrupt) (j.write (channel.dropReceiver, .ended) [])
  | ack {channel : Mpsc.Channel ArcEnvelope} {event : ArcEnvelope} {n : Nat}
      (htask : j.task = some (channel, .handling event n)) :
      Step config dlq j (some (.outcome .ok))
        (j.write (channel, .selecting) [(.acked, event.addr)])
  | giveUp {channel : Mpsc.Channel ArcEnvelope} {event : ArcEnvelope} {n : Nat}
      (htask : j.task = some (channel, .handling event n)) (hafter : config.afterError n = .giveUp)
      (hdlq : dlq = true) :
      Step config dlq j (some (.outcome .error)) (j.write (channel, .deadLettering event) [])
  | fail {channel : Mpsc.Channel ArcEnvelope} {event : ArcEnvelope} {n : Nat}
      (htask : j.task = some (channel, .handling event n)) (hafter : config.afterError n = .giveUp)
      (hdlq : dlq = false) :
      Step config dlq j (some (.outcome .error))
        (j.write (channel, .selecting) [(.failed, event.addr)])
  | backOff {channel : Mpsc.Channel ArcEnvelope} {event : ArcEnvelope} {n m backoff : Nat}
      (htask : j.task = some (channel, .handling event n))
      (hafter : config.afterError n = .retry m backoff) :
      Step config dlq j (some (.outcome .error)) (j.write (channel, .backingOff event m) [])
  | overflow {channel : Mpsc.Channel ArcEnvelope} {event : ArcEnvelope} {n : Nat}
      (htask : j.task = some (channel, .handling event n))
      (hafter : config.afterError n = .panics) :
      Step config dlq j (some (.outcome .error)) (j.write (channel.dropReceiver, .ended) [])
  | panic {channel : Mpsc.Channel ArcEnvelope} {event : ArcEnvelope} {n : Nat}
      (htask : j.task = some (channel, .handling event n)) :
      Step config dlq j (some (.outcome .panic)) (j.write (channel.dropReceiver, .ended) [])
  | deadLetter {channel : Mpsc.Channel ArcEnvelope} {event : ArcEnvelope}
      (htask : j.task = some (channel, .deadLettering event)) :
      Step config dlq j (some .deadLetter)
        (j.write (channel, .selecting) [(.deadLettered, event.addr), (.failed, event.addr)])
  | retry {channel : Mpsc.Channel ArcEnvelope} {event : ArcEnvelope} {n : Nat}
      (htask : j.task = some (channel, .backingOff event n)) :
      Step config dlq j (some .retry)
        (j.write (channel, .handling event n) [(.attempted, event.addr)])
  | cancelled {channel : Mpsc.Channel ArcEnvelope} {phase : HandlerPhase}
      (htask : j.task = some (channel, phase)) (hphase : phase ≠ .ended) :
      Step config dlq j (some .cancelled) (j.write (channel.dropReceiver, .ended) [])

section Entries

variable {j : Journal} {task : Mpsc.Channel ArcEnvelope × HandlerPhase}
  {entries : List (Mark × Nat)}

@[simp] theorem write_task : (j.write task entries).task = some task := rfl

theorem events_write (marks : List Mark) :
    (j.write task entries).events marks
      = j.events marks ++ (entries.filter fun entry => entry.1 ∈ marks).map (·.2) := by
  simp [events, write]

@[simp] theorem pushed_write : (j.write task entries).pushed
    = j.pushed ++ (entries.filter fun entry => entry.1 ∈ [.pushed]).map (·.2) :=
  events_write _

@[simp] theorem started_write : (j.write task entries).started
    = j.started ++ (entries.filter fun entry => entry.1 ∈ [.started]).map (·.2) :=
  events_write _

@[simp] theorem attempted_write : (j.write task entries).attempted
    = j.attempted ++ (entries.filter fun entry => entry.1 ∈ [.attempted]).map (·.2) :=
  events_write _

@[simp] theorem handled_write : (j.write task entries).handled
    = j.handled ++ (entries.filter fun entry => entry.1 ∈ [.acked, .failed]).map (·.2) :=
  events_write _

end Entries

/-- Where the events of a subscription are. A task that has not ended holds what it has
    not taken in its channel and what it has not settled in its phase; a task that has
    ended has dropped the rest. -/
structure Sound (j : Journal) : Prop where
  fresh : j.task = none → j.entries = []
  receiver : ∀ channel phase, j.task = some (channel, phase) → phase ≠ .ended →
    channel.receiver = true
  buffered : ∀ channel phase, j.task = some (channel, phase) → phase ≠ .ended →
    j.pushed = j.started ++ channel.buffer.map (·.addr)
  busy : ∀ channel phase, j.task = some (channel, phase) → phase ≠ .ended →
    j.started = j.handled ++ (phase.event.map (·.addr)).toList
  closed : ∀ channel, j.task = some (channel, .ended) →
    channel.receiver = false ∧ channel.buffer = []
  taken : j.started <+: j.pushed
  settled : j.handled <+: j.started

/-- A task that has not ended, in one statement. -/
theorem Sound.of_open {j : Journal} {channel : Mpsc.Channel ArcEnvelope} {phase : HandlerPhase}
    (htask : j.task = some (channel, phase)) (hphase : phase ≠ .ended)
    (hreceiver : channel.receiver = true)
    (hbuffered : j.pushed = j.started ++ channel.buffer.map (·.addr))
    (hbusy : j.started = j.handled ++ (phase.event.map (·.addr)).toList) : j.Sound where
  fresh h := by simp [htask] at h
  receiver c p h hp := by
    cases htask.symm.trans h
    exact hreceiver
  buffered c p h hp := by
    cases htask.symm.trans h
    exact hbuffered
  busy c p h hp := by
    cases htask.symm.trans h
    exact hbusy
  closed c h := by
    cases htask.symm.trans h
    exact absurd rfl hphase
  taken := ⟨_, hbuffered.symm⟩
  settled := ⟨_, hbusy.symm⟩

/-- The task ends, and no entry is made. -/
theorem Sound.end {j : Journal} (h : j.Sound) (channel : Mpsc.Channel ArcEnvelope) :
    (j.write (channel.dropReceiver, .ended) []).Sound where
  fresh h := by simp at h
  receiver c p hc hp := by
    cases hc
    exact absurd rfl hp
  buffered c p hc hp := by
    cases hc
    exact absurd rfl hp
  busy c p hc hp := by
    cases hc
    exact absurd rfl hp
  closed c hc := by
    cases hc
    exact ⟨rfl, rfl⟩
  taken := by simpa using h.taken
  settled := by simpa using h.settled

theorem Sound.step {config : EventBusConfig} {dlq : Bool} {a : Option MemoryBus.HandlerAction}
    {j j' : Journal} (h : j.Sound) (hstep : j.Step config dlq a j') : j'.Sound := by
  cases hstep with
  | idle => exact h
  | opened htask =>
    have hnone : ∀ marks, j.events marks = [] := by
      intro marks
      rw [events, h.fresh htask, List.filter_nil, List.map_nil]
    refine .of_open write_task (by simp) rfl ?_ ?_
    · simp [pushed, started, events_write, hnone]
    · simp [started, handled, events_write, hnone, HandlerPhase.event]
  | @push channel phase event htask haccepts =>
    have hphase : phase ≠ .ended := by
      rintro rfl
      exact Bool.false_ne_true ((h.closed _ htask).1.symm.trans haccepts.1)
    refine .of_open write_task hphase haccepts.1 ?_ ?_
    · simp [h.buffered _ _ htask hphase]
    · simpa using h.busy _ _ htask hphase
  | @recv channel event rest htask hbuffer =>
    have hreceiver : channel.receiver = true := h.receiver _ _ htask (by simp)
    refine .of_open write_task (by simp) hreceiver ?_ ?_
    · simp [h.buffered _ _ htask (by simp), hbuffer]
    · simp [h.busy _ _ htask (by simp), HandlerPhase.event]
  | closed htask => exact h.end _
  | interrupt htask => exact h.end _
  | ack htask =>
    refine .of_open write_task (by simp) (h.receiver _ _ htask (by simp)) ?_ ?_
    · simpa using h.buffered _ _ htask (by simp)
    · simpa [HandlerPhase.event] using h.busy _ _ htask (by simp)
  | giveUp htask =>
    refine .of_open write_task (by simp) (h.receiver _ _ htask (by simp)) ?_ ?_
    · simpa using h.buffered _ _ htask (by simp)
    · simpa [HandlerPhase.event] using h.busy _ _ htask (by simp)
  | fail htask =>
    refine .of_open write_task (by simp) (h.receiver _ _ htask (by simp)) ?_ ?_
    · simpa using h.buffered _ _ htask (by simp)
    · simpa [HandlerPhase.event] using h.busy _ _ htask (by simp)
  | backOff htask =>
    refine .of_open write_task (by simp) (h.receiver _ _ htask (by simp)) ?_ ?_
    · simpa using h.buffered _ _ htask (by simp)
    · simpa [HandlerPhase.event] using h.busy _ _ htask (by simp)
  | overflow htask => exact h.end _
  | panic htask => exact h.end _
  | deadLetter htask =>
    refine .of_open write_task (by simp) (h.receiver _ _ htask (by simp)) ?_ ?_
    · simpa using h.buffered _ _ htask (by simp)
    · simpa [HandlerPhase.event] using h.busy _ _ htask (by simp)
  | retry htask =>
    refine .of_open write_task (by simp) (h.receiver _ _ htask (by simp)) ?_ ?_
    · simpa using h.buffered _ _ htask (by simp)
    · simpa [HandlerPhase.event] using h.busy _ _ htask (by simp)
  | cancelled htask => exact h.end _

theorem Step.of_eq {config : EventBusConfig} {dlq : Bool} {j j' : Journal} (h : j' = j) :
    Step config dlq j none j' :=
  h ▸ .idle

/-- A receiver that was dropped stays dropped. -/
theorem Step.receiver {config : EventBusConfig} {dlq : Bool}
    {a : Option MemoryBus.HandlerAction} {j j' : Journal} (h : Step config dlq j a j')
    {channel : Mpsc.Channel ArcEnvelope} {phase : HandlerPhase}
    (htask : j.task = some (channel, phase)) (hclosed : channel.receiver = false) :
    ∃ channel' phase', j'.task = some (channel', phase') ∧ channel'.receiver = false := by
  have hkeep : ∀ {c : Mpsc.Channel ArcEnvelope} {p : HandlerPhase}, j.task = some (c, p) →
      c.receiver = false := by
    intro c p h
    cases htask.symm.trans h
    exact hclosed
  cases h with
  | idle => exact ⟨_, _, htask, hclosed⟩
  | opened hnone => cases hnone.symm.trans htask
  | push h haccepts => exact absurd haccepts.1 (by simp [hkeep h])
  | recv h => exact ⟨_, _, rfl, (hkeep h :)⟩
  | ack h => exact ⟨_, _, rfl, hkeep h⟩
  | giveUp h => exact ⟨_, _, rfl, hkeep h⟩
  | fail h => exact ⟨_, _, rfl, hkeep h⟩
  | backOff h => exact ⟨_, _, rfl, hkeep h⟩
  | deadLetter h => exact ⟨_, _, rfl, hkeep h⟩
  | retry h => exact ⟨_, _, rfl, hkeep h⟩
  | _ => exact ⟨_, _, rfl, rfl⟩

/-- A task is never forgotten. -/
theorem Step.isSome_task {config : EventBusConfig} {dlq : Bool}
    {a : Option MemoryBus.HandlerAction} {j j' : Journal} (h : Step config dlq j a j')
    (htask : j.task.isSome) : j'.task.isSome := by
  cases h with
  | idle => exact htask
  | _ => rfl

end Journal

namespace MemoryBus

/-- The action that the handler task of a subscription takes. -/
def Action.ofTask (id : Uuid) : Action → Option HandlerAction
  | .handler i a => if i = id then some a else none
  | _ => none

/-- The events in the order they entered the dispatcher queue. -/
def entered (s : MemoryBus) : List Nat := s.log.filterMap Observation.enters

/-- A subscription's part of the state. -/
def journal (s : MemoryBus) (id : Uuid) : Journal where
  task := s.tasks[id]?.map fun task => (task.channel, task.phase)
  entries := s.log.filterMap (Observation.entryOf id)

section Steps

variable {config : EventBusConfig} {s s' : MemoryBus} {id : Uuid}

/-- A journal depends on the tasks and on the log only. -/
theorem journal_congr (htasks : s'.tasks = s.tasks) (hlog : s'.log = s.log) :
    s'.journal id = s.journal id := by
  rw [journal, journal, htasks, hlog]

/-- The events with a mark stay the same if no observation has the mark. -/
theorem events_of_log {observations : Log} {marks : List Mark}
    (hlog : s'.log = s.log ++ observations)
    (h : ∀ o ∈ observations, ∀ mark ∈ marks, ∀ id event, o ≠ .marked mark id event) :
    (s'.journal id).events marks = (s.journal id).events marks := by
  have hnone : (observations.filterMap (Observation.entryOf id)).filter
      (fun entry => entry.1 ∈ marks) = [] := by
    rw [List.filter_eq_nil_iff]
    intro entry hentry hmark
    obtain ⟨o, ho, heq⟩ := List.mem_filterMap.mp hentry
    cases o with
    | marked mark i event =>
      simp only [Observation.entryOf] at heq
      split at heq
      · cases heq
        exact h _ ho _ (by simpa using hmark) _ _ rfl
      · cases heq
    | _ => cases heq
  rw [Journal.events, journal, hlog, List.filterMap_append, List.filter_append, hnone,
    List.append_nil, Journal.events, journal]

theorem mem_events {marks : List Mark} {event : Nat} :
    event ∈ (s.journal id).events marks ↔ ∃ mark ∈ marks, .marked mark id event ∈ s.log := by
  simp only [Journal.events, journal, List.mem_map, List.mem_filter, List.mem_filterMap,
    decide_eq_true_eq, Prod.exists]
  constructor
  · rintro ⟨mark, n, ⟨⟨o, ho, heq⟩, hmark⟩, rfl⟩
    cases o with
    | marked m i e =>
      simp only [Observation.entryOf] at heq
      split at heq
      · rename_i hi
        subst hi
        cases heq
        exact ⟨_, hmark, ho⟩
      · cases heq
    | _ => cases heq
  · rintro ⟨mark, hmark, ho⟩
    exact ⟨mark, event, ⟨⟨_, ho, by simp [Observation.entryOf]⟩, hmark⟩, rfl⟩

theorem mem_pushed {event : Nat} :
    event ∈ (s.journal id).pushed ↔ .marked .pushed id event ∈ s.log := by
  simp [Journal.pushed, mem_events]

theorem journal_observe (o : Observation) :
    (s.observe o).journal id
      = ⟨(s.journal id).task, (s.journal id).entries ++ (o.entryOf id).toList⟩ := by
  simp only [journal, observe, List.filterMap_append]
  cases ho : o.entryOf id <;> simp [ho]

theorem journal_setTask (i : Uuid) (task : HandlerTask) :
    (s.setTask i task).journal id
      = ⟨if i = id then some (task.channel, task.phase) else (s.journal id).task,
        (s.journal id).entries⟩ := by
  by_cases h : i = id
  · simp [journal, setTask, h]
  · simp [journal, setTask, Std.ExtTreeMap.getElem?_insert, h]

theorem journal_observe_of_none {o : Observation} (ho : o.entryOf id = none) :
    (s.observe o).journal id = s.journal id := by
  rw [journal_observe, ho, Option.toList_none, List.append_nil]

/-- A task that goes on as it was, up to its flags. -/
theorem journal_setTask_of_same {i : Uuid} {task task' : HandlerTask}
    (htask : s.tasks[i]? = some task) (hchannel : task'.channel = task.channel)
    (hphase : task'.phase = task.phase) : (s.setTask i task').journal id = s.journal id := by
  rw [journal_setTask]
  split
  · rename_i h
    subst h
    simp [journal, htask, hchannel, hphase]
  · rfl

theorem journal_abort (i : Uuid) : (s.abort i).journal id = s.journal id := by
  unfold abort
  split
  · rename_i task htask
    exact journal_setTask_of_same htask rfl rfl
  · rfl

theorem journal_shutdownManager : s.shutdownManager.journal id = s.journal id := by
  simp only [journal, shutdownManager, Std.ExtTreeMap.getElem?_map]
  cases s.tasks[id]? with
  | none => rfl
  | some task =>
    simp only [Option.map_some]
    split <;> rfl

/-! ## The steps of the parties -/

theorem PublisherStep.journal_eq (h : PublisherStep config s s') :
    s'.journal id = s.journal id := by
  cases h with
  | enter => exact journal_observe_of_none (s := s) (o := .entered _) rfl
  | wake => exact journal_observe_of_none (s := s) (o := .entered _) rfl
  | _ => exact journal_congr rfl rfl

theorem ShutdownStep.journal_eq {a : ShutdownAction} (h : ShutdownStep s a s') :
    s'.journal id = s.journal id := by
  cases h with
  | runHook => exact journal_observe_of_none (s := s) (o := .hooked _) rfl
  | abortAll => exact journal_shutdownManager
  | _ => exact journal_congr rfl rfl

theorem WorkerStep.journal_step {a : WorkerAction} (dlq : Bool) (h : WorkerStep config s a s') :
    (s.journal id).Step config dlq none (s'.journal id) := by
  cases h with
  | @push event sends i task hworker hi htask haccepts =>
    have hs : { s with worker := .dispatching event (sends.erase i) }.journal id = s.journal id :=
      journal_congr rfl rfl
    rw [journal_observe, journal_setTask, hs]
    by_cases hid : i = id
    · subst hid
      have htask' : (s.journal i).task = some (task.channel, task.phase) := by
        simp [journal, htask]
      have hstep : (s.journal i).Step config dlq none ((s.journal i).write
          (task.channel.push event, task.phase) [(.pushed, event.addr)]) := .push htask' haccepts
      simpa [Observation.entryOf, Journal.write] using hstep
    · exact .of_eq (by simp [Observation.entryOf, hid])
  | select hworker hrunning =>
    exact .of_eq ((journal_observe_of_none rfl).trans (journal_congr rfl rfl))
  | finish hworker => exact .of_eq ((journal_observe_of_none rfl).trans (journal_congr rfl rfl))
  | timeout hworker htimeout =>
    exact .of_eq ((journal_observe_of_none rfl).trans (journal_congr rfl rfl))
  | _ => exact .of_eq (journal_congr rfl rfl)

theorem SubscriberStep.journal_step {a : SubscriberAction} (dlq : Bool)
    (h : SubscriberStep config s a s') :
    (s.journal id).Step config dlq none (s'.journal id) := by
  cases h with
  | @subscribe eventType typeName entry hfresh =>
    let task : HandlerTask := ⟨.new config.handlerChannelSize, .selecting, false, false⟩
    have hjournal : (s.setTask entry.id task).journal id = _ := journal_setTask entry.id task
    by_cases hid : entry.id = id
    · rw [hid] at hfresh
      have htask : (s.journal id).task = none := by simp [journal, hfresh]
      have hopened : (s.journal id).Step config dlq none
          ((s.journal id).write (task.channel, task.phase) []) := .opened htask
      rw [Journal.write, List.append_nil] at hopened
      rw [if_pos hid] at hjournal
      exact hjournal ▸ hopened
    · rw [if_neg hid] at hjournal
      exact .of_eq hjournal
  | signal htask => exact .of_eq (journal_setTask_of_same htask rfl rfl)
  | unsubscribe hid => exact .of_eq ((journal_abort _).trans (journal_congr rfl rfl))
  | autoUnsubscribe hunsubs hid => exact .of_eq ((journal_abort _).trans (journal_congr rfl rfl))
  | _ => exact .of_eq (journal_congr rfl rfl)

/-- A task goes on, and its subscription makes entries in the log. -/
theorem journal_write {i : Uuid} {task : HandlerTask} (entries : List (Mark × Nat))
    (htasks : s'.tasks = s.tasks.insert i task)
    (hlog : s'.log = s.log ++ entries.map fun entry => .marked entry.1 i entry.2) :
    s'.journal id
      = if i = id then (s.journal id).write (task.channel, task.phase) entries
        else s.journal id := by
  have hentries : ∀ entries : List (Mark × Nat),
      (entries.map fun entry => Observation.marked entry.1 i entry.2).filterMap
          (Observation.entryOf id) = if i = id then entries else [] := by
    intro entries
    induction entries with
    | nil => simp
    | cons entry entries ih =>
      by_cases hid : i = id
      · simpa [Observation.entryOf, hid] using ih
      · simp [Observation.entryOf, hid]
  rw [journal, htasks, hlog, List.filterMap_append, hentries]
  by_cases hid : i = id
  · simp [hid, journal, Journal.write]
  · simp [hid, journal, Std.ExtTreeMap.getElem?_insert]

/-- The entries a step of a handler task makes, and the task it leaves. -/
theorem HandlerStep.journal_step {i : Uuid} {task : HandlerTask} {a : HandlerAction}
    (htask : s.tasks[i]? = some task) (h : HandlerStep config s i task a s') :
    (s.journal id).Step config s.dlq.isSome (Action.ofTask id (.handler i a)) (s'.journal id) := by
  have hat : i = id → ∀ phase, task.phase = phase →
      (s.journal id).task = some (task.channel, phase) := by
    rintro rfl phase rfl
    simp [journal, htask]
  -- the other subscriptions are idle
  have hown : ∀ (task' : HandlerTask) (entries : List (Mark × Nat)),
      s'.tasks = s.tasks.insert i task' →
      s'.log = s.log ++ entries.map (fun entry => .marked entry.1 i entry.2) →
      (i = id → (s.journal id).Step config s.dlq.isSome (some a)
        ((s.journal id).write (task'.channel, task'.phase) entries)) →
      (s.journal id).Step config s.dlq.isSome (Action.ofTask id (.handler i a))
        (s'.journal id) := by
    intro task' entries htasks hlog hstep
    rw [journal_write entries htasks hlog, Action.ofTask]
    by_cases hid : i = id
    · rw [if_pos hid, if_pos hid]
      exact hstep hid
    · rw [if_neg hid, if_neg hid]
      exact .idle
  cases h with
  | @recv event rest hphase hbuffer =>
    refine hown _ [(.started, event.addr), (.attempted, event.addr)] rfl ?_
      fun hid => .recv (hat hid _ hphase) hbuffer
    exact List.append_assoc _ _ _
  | closed hphase hbuffer =>
    exact hown _ [] rfl (by simp [leaveLoop, endTask, setTask]) fun hid =>
      .closed (hat hid _ hphase) hbuffer
  | interrupt hphase =>
    exact hown _ [] rfl (by simp [leaveLoop, endTask, setTask]) fun hid =>
      .interrupt (hat hid _ hphase)
  | @ack event n hphase =>
    exact hown _ [(.acked, event.addr)] rfl rfl fun hid => .ack (hat hid _ hphase)
  | giveUp hphase hafter hdlq =>
    exact hown _ [] rfl (by simp [setPhase, setTask]) fun hid =>
      .giveUp (hat hid _ hphase) hafter hdlq
  | @fail event n hphase hafter hdlq =>
    exact hown _ [(.failed, event.addr)] rfl rfl
      fun hid => .fail (hat hid _ hphase) hafter (by simp [hdlq])
  | backOff hphase hafter =>
    exact hown _ [] rfl (by simp [setPhase, setTask]) fun hid =>
      .backOff (hat hid _ hphase) hafter
  | overflow hphase hafter =>
    exact hown _ [] rfl (by simp [endTask, setTask]) fun hid =>
      .overflow (hat hid _ hphase) hafter
  | panic hphase =>
    exact hown _ [] rfl (by simp [endTask, setTask]) fun hid =>
      .panic (hat hid _ hphase)
  | @deadLetter event dlq dlq' hphase hdlq =>
    refine hown _ [(.deadLettered, event.addr), (.failed, event.addr)] rfl ?_
      fun hid => .deadLetter (hat hid _ hphase)
    exact List.append_assoc _ _ _
  | @retry event n hphase =>
    exact hown _ [(.attempted, event.addr)] rfl rfl fun hid => .retry (hat hid _ hphase)
  | cancelled hphase =>
    exact hown _ [] rfl (by simp [endTask, setTask]) fun hid =>
      .cancelled (hat hid _ rfl) hphase

/-! ## Every run -/

/-- **Whatever the system does, a subscription takes a step of its own.** -/
theorem journal_step {a : Action} (h : step config s a = some s') (id : Uuid) :
    (s.journal id).Step config s.dlq.isSome (a.ofTask id) (s'.journal id) := by
  cases a with
  | publisher a => exact .of_eq (stepPublisher_cases h).journal_eq
  | worker a => exact (stepWorker_cases h).journal_step _
  | handler i a =>
    obtain ⟨task, htask, hstep⟩ := stepHandler_cases h
    exact hstep.journal_step htask
  | subscriber a => exact (stepSubscriber_cases h).journal_step _
  | shutdown a => exact .of_eq (stepShutdown_cases h).journal_eq

end Steps

section Runs

variable {config : EventBusConfig} {s s' : MemoryBus} {as : List Action}

theorem journal_build (id : Uuid) : (build config).journal id = ⟨none, []⟩ := by
  simp [journal, build]

theorem sound_build (id : Uuid) : ((build config).journal id).Sound := by
  rw [journal_build]
  constructor <;> simp [Journal.started, Journal.pushed, Journal.handled, Journal.events]

/-- **In every run, every subscription is sound.** -/
theorem sound_exec (hexec : exec config s as = some s') (h : ∀ id, (s.journal id).Sound) :
    ∀ id, (s'.journal id).Sound :=
  Transition.invariant (I := fun s : MemoryBus => ∀ id, (s.journal id).Sound)
    (fun _ _ _ h hstep id => (h id).step (journal_step hstep id)) h hexec

end Runs
end MemoryBus
end TokioEvents
