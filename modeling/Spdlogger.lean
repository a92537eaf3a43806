import Spdlogger.ExpiringCache.Oversleep
import Spdlogger.ExpiringCache.Representation
import Spdlogger.ConcurrentMetrics.Overflow
import Spdlogger.ConcurrentMetrics.LastReport
import Spdlogger.RideStateManager.Shutdown
import Spdlogger.ThreadPool.ExactlyOnce
import Spdlogger.ThreadPool.Rethrown
import Spdlogger.ThreadPool.WakeUps
import Spdlogger.ThreadPool.NoLostWakeUps
import Spdlogger.Library.Mutex
import Spdlogger.ProducerConsumerQueue.Leftover
import Spdlogger.Library.History
import Spdlogger.ThreadPool.Exceptions
import Spdlogger.ThreadPool.Construction
import Spdlogger.Library.Progress
import Spdlogger.ThreadPool.Destruction
import Spdlogger.ThreadPool.Progress
import Spdlogger.ThreadPool.AtRest
import Spdlogger.ThreadPool.InsideMoves
import Spdlogger.ThreadPool.CleanDestruction
import Spdlogger.ThreadPool.Round
import Spdlogger.ThreadPool.Unlimited
import Spdlogger.ThreadPool.UnlimitedRound
import Spdlogger.ThreadPool.BoundedRound
import Spdlogger.ThreadPool.UnlimitedDelivery
import Spdlogger.ThreadPool.BoundedBooks
import Spdlogger.ThreadPool.BoundedDelivery
import Spdlogger.ThreadPool.Modes
import Spdlogger.Main.Data
import Spdlogger.Main.Step
import Spdlogger.Main.Shutdown
import Spdlogger.Main.Turns
import Spdlogger.Main.Links
import Spdlogger.Main.Count
import Spdlogger.Main.Program
import Spdlogger.Main.Stages
import Spdlogger.Main.Agreement
import Spdlogger.Main.Lifecycle
import Spdlogger.Main.Heartbeat
import Spdlogger.Main.Ending
import Spdlogger.Diagnostics.Data
import Spdlogger.Diagnostics.Step
import Spdlogger.Diagnostics.Locks
import Spdlogger.Diagnostics.Lines
import Spdlogger.Diagnostics.Reports
import Spdlogger.RideStateManager.Turns
import Spdlogger.RideStateManager.Locks
import Spdlogger.RideStateManager.Scans
import Spdlogger.RideStateManager.Entries
import Spdlogger.RideStateManager.LastNotice
import Spdlogger.RideStateManager.Rounds
import Spdlogger.RideStateManager.Callbacks
import Spdlogger.RideStateManager.References
import Spdlogger.RideStateManager.Segments
import Spdlogger.RideStateManager.UserCode
import Spdlogger.RideStateManager.Careless
import Spdlogger.ExpiringCache.Eviction
import Spdlogger.ExpiringCache.FailedPut
import Spdlogger.ExpiringCache.Lifetime
import Spdlogger.ExpiringCache.Removal
import Spdlogger.ConcurrentMetrics.Batching
import Spdlogger.RideStateManager.Calls
import Spdlogger.RideStateManager.Subscriptions
import Spdlogger.Library.CString
import Spdlogger.TestContext.Parse
import Spdlogger.TestContext.Grammar
import Spdlogger.TestContext.Numbers
import Spdlogger.TestContext.Roundtrip
import Spdlogger.ConcurrentMetrics.Moves
import Spdlogger.ConcurrentMetrics.Failure
import Spdlogger.RideStateManager.Loops
import Spdlogger.ExpiringCache.Stopping
import Spdlogger.ProducerConsumerQueue.Creation
import Spdlogger.ProducerConsumerQueue.Termination
import Spdlogger.RideStateManager.Atomicity
import Spdlogger.RideStateManager.Waiting
import Spdlogger.RideStateManager.Destruction
import Spdlogger.ExpiringCache.Deadlines
import Spdlogger.ExpiringCache.Ending
import Spdlogger.Library.TwoThreads
import Spdlogger.Diagnostics.Run
import Spdlogger.Level.Run
import Spdlogger.Main.Tests
import Spdlogger.ConcurrentMetrics.Random
import Spdlogger.StringUaf.Deferred
import Spdlogger.Timebase.Windows
