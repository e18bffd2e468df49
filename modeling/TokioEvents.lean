import TokioEvents.Registry.PatternLanguage
import TokioEvents.Registry.FastRemoval
import TokioEvents.Registry.TopicIndexes
import TokioEvents.Registry.Concurrent
import TokioEvents.Subscription.Routing
import TokioEvents.Subscription.LiveHandles
import TokioEvents.Persistence.RedbRegistry
import TokioEvents.Persistence.WriteAhead
import TokioEvents.Persistence.GroupCommit
import TokioEvents.Persistence.Refcount
import TokioEvents.Persistence.Replay
import TokioEvents.Persistence.Idempotency
import TokioEvents.Persistence.ScheduledEvents
import TokioEvents.Persistence.TwoClocks
import TokioEvents.Persistence.Acknowledgement
import TokioEvents.Persistence.Bus.Refinement
import TokioEvents.Persistence.TableConsistency
import TokioEvents.Persistence.AtMostOnce
import TokioEvents.Persistence.AtLeastOnce
import TokioEvents.Persistence.Orphans
import TokioEvents.Persistence.CleanShutdown
import TokioEvents.Persistence.NeverEarly
import TokioEvents.Persistence.ReplayDeadlock
import TokioEvents.Bus.GracefulShutdown
import TokioEvents.Bus.Settling
import TokioEvents.Bus.ProcessedCount
import TokioEvents.Bus.RequestReply
import TokioEvents.Bus.RequestCleanup
import TokioEvents.Bus.InboxNodes
import TokioEvents.Remote.AckAfterRouting
import TokioEvents.Remote.LocalFirst
import TokioEvents.Dispatcher.Retry
import TokioEvents.Bus.RetryLoop
import TokioEvents.Dispatcher.CircuitBreaker
import TokioEvents.Dispatcher.Deadlock
import TokioEvents.Dispatcher.FailureCount
import TokioEvents.Dispatcher.SameInterface
import TokioEvents.Persistence.ReplayPending
import TokioEvents.Persistence.SchedulerPoll
import TokioEvents.Subscription.Handler
import TokioEvents.Subscription.Wrappers
import TokioEvents.Subscription.Untyped
import TokioEvents.Registry.Statistics
import TokioEvents.Persistence.RoundTrip
import TokioEvents.Dispatcher.HashingPool
import TokioEvents.Bus.TraceContext
import TokioEvents.Remote.ConsumerName
import TokioEvents.Dispatcher.DispatchTime
import TokioEvents.Dispatcher.MaxQueueSize
import TokioEvents.Persistence.Provenance
import TokioEvents.Persistence.OrderedDelivery
import TokioEvents.Persistence.Settling
import TokioEvents.Subscription.Cleanup
import TokioEvents.Dispatcher.PoolProgress
