/-
  TokioEvents.Bus.System

  The in-memory bus as one transition system: the steps of its tasks and of the calls
  on it, in any order.
-/

import TokioEvents.Bus.Handlers
import TokioEvents.Bus.Publisher
import TokioEvents.Bus.Shutdown
import TokioEvents.Bus.Worker
import TokioEvents.Lib.Transition

namespace TokioEvents
namespace MemoryBus

/-- The steps of the system. -/
inductive Action where
  | publisher (a : PublisherAction)
  | worker (a : WorkerAction)
  | handler (id : Uuid) (a : HandlerAction)
  | subscriber (a : SubscriberAction)
  | shutdown (a : ShutdownAction)

/-- A step of the system. -/
def step (config : EventBusConfig) (s : MemoryBus) : Action → Option MemoryBus
  | .publisher a => s.stepPublisher config a
  | .worker a => s.stepWorker config a
  | .handler id a => s.stepHandler config id a
  | .subscriber a => s.stepSubscriber config a
  | .shutdown a => s.stepShutdown a

/-- A run of the system. -/
def exec (config : EventBusConfig) (s : MemoryBus) (as : List Action) : Option MemoryBus :=
  Transition.exec (step config) s as

end MemoryBus
end TokioEvents
