/-
  TokioEvents.Remote.System

  The bus with its remote transport as one transition system.
-/

import TokioEvents.Remote.Inbound
import TokioEvents.Remote.Outbound

namespace TokioEvents
namespace RemoteBus

/-- The steps of the system. -/
inductive Action where
  /-- A step of the local bus. -/
  | bus (a : MemoryBus.Action)
  | consumer (a : ConsumerAction)
  | publication (a : PublicationAction)

/-- A step of the system. -/
def step (config : EventBusConfig) (s : RemoteBus) : Action → Option RemoteBus
  | .bus a => (s.bus.step config a).map s.setBus
  | .consumer a => s.stepConsumer a
  | .publication a => s.stepPublication a

/-- A run of the system. -/
def exec (config : EventBusConfig) (s : RemoteBus) (as : List Action) : Option RemoteBus :=
  Transition.exec (step config) s as

end RemoteBus
end TokioEvents
