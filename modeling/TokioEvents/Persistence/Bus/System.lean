/-
  TokioEvents.Persistence.Bus.System

  The persistent bus as one transition system: the steps of all its tasks, in any
  order, with starting, stopping and crashing.

  `stop` and `shutdown_gracefully` borrow the dispatcher exclusively, so they do not
  begin while a `dispatch` call is in progress, and no call begins while
  `shutdown_gracefully` runs.
-/

import TokioEvents.Lib.Transition
import TokioEvents.Persistence.Bus.Handlers
import TokioEvents.Persistence.Bus.Publisher
import TokioEvents.Persistence.Bus.Replays
import TokioEvents.Persistence.Bus.Scheduler
import TokioEvents.Persistence.Bus.Worker

namespace TokioEvents

/-- The steps that control the dispatcher. -/
inductive ControlAction where
  | start
  | stop
  /-- `shutdown_gracefully`: abort the scheduler. -/
  | abortScheduler
  /-- `shutdown_gracefully`: close the channel. -/
  | closeSender
  /-- `shutdown_gracefully`: the worker has ended. -/
  | joinWorker
  /-- The process dies and is started again on the same database. -/
  | crash

/-- The steps of the system. -/
inductive Action where
  | publisher (a : PublisherAction)
  | worker (a : WorkerAction)
  | scheduler (a : SchedulerAction)
  | handler (a : HandlerAction)
  | replay (a : ReplayAction)
  | control (a : ControlAction)

namespace PersistentBus

/-- `start`; the tasks are spawned the first time. -/
def start (s : PersistentBus) : Option PersistentBus :=
  if s.exclusive then none
  else if s.isRunning then some s
  else
    match s.worker with
    | .unspawned =>
      some { s with
        isRunning := true
        worker := .receiving
        scheduler := if s.sender then .sleeping else s.scheduler }
    | _ => some { s with isRunning := true }

/-- `stop`; its two waits change nothing. -/
def stop (s : PersistentBus) : Option PersistentBus :=
  if s.exclusive || !s.waiting.isEmpty then none
  else some { s with isRunning := false, sender := false }

/-- `handle.abort()`: a poll in progress runs to its end without its scheduler. -/
def abortScheduler (s : PersistentBus) : Option PersistentBus :=
  if s.exclusive || !s.waiting.isEmpty then none
  else
    some { s with
      exclusive := true
      scheduler := .stopped
      orphanPolls := match s.scheduler with
        | .polling nowMs => s.orphanPolls ++ [nowMs]
        | _ => s.orphanPolls }

/-- `self.sender.take()` in `shutdown_gracefully`. -/
def closeSender (s : PersistentBus) : Option PersistentBus :=
  if s.exclusive then some { s with sender := false } else none

/-- The end of `shutdown_gracefully`: the worker has ended or was never spawned. -/
def joinWorker (s : PersistentBus) : Option PersistentBus :=
  if s.exclusive && !s.sender && s.worker.ended then
    some { s with isRunning := false, exclusive := false }
  else none

/-- A crash leaves the database; calls are named on, and the history is kept. -/
def crash (json : SerdeJson) (config : BusConfig) (s : PersistentBus) : PersistentBus :=
  { boot json config s.db with
    nextCall := s.nextCall
    returned := s.returned
    history := s.history }

/-- A control step. -/
def stepControl (json : SerdeJson) (config : BusConfig) (s : PersistentBus) :
    ControlAction → Option PersistentBus
  | .start => s.start
  | .stop => s.stop
  | .abortScheduler => s.abortScheduler
  | .closeSender => s.closeSender
  | .joinWorker => s.joinWorker
  | .crash => some (s.crash json config)

/-- A step of the system. -/
def step (json : SerdeJson) (config : BusConfig) (s : PersistentBus) :
    Action → Option PersistentBus
  | .publisher a => s.stepPublisher config a
  | .worker a => s.stepWorker json config a
  | .scheduler a => s.stepScheduler json a
  | .handler a => s.stepHandler a
  | .replay a => s.stepReplay json a
  | .control a => s.stepControl json config a

/-- A run of the system. -/
def exec (json : SerdeJson) (config : BusConfig) (s : PersistentBus) (as : List Action) :
    Option PersistentBus :=
  Transition.exec (step json config) s as

/-- The state after a run, for runs that are possible. -/
def after (json : SerdeJson) (config : BusConfig) (s : PersistentBus) (as : List Action) :
    PersistentBus :=
  (exec json config s as).getD s

end PersistentBus
end TokioEvents
