import BlueThread.Foundation.Runs
import BlueThread.Foundation.Digraph
import BlueThread.Foundation.Population
import BlueThread.Foundation.Budget
import BlueThread.Foundation.PackedBits
import BlueThread.Foundation.OrderedMap
import BlueThread.Foundation.Instants
import BlueThread.Foundation.Cyclic
import BlueThread.Foundation.TwoStage
import BlueThread.Foundation.Marks
import BlueThread.Foundation.Slots
import BlueThread.Lockdep.Model
import BlueThread.Lockdep.Registry
import BlueThread.Lockdep.FreeIds
import BlueThread.Lockdep.Order
import BlueThread.Lockdep.Decision
import BlueThread.Lockdep.Names
import BlueThread.Lockdep.Identity
import BlueThread.Lockdep.BackTrace
import BlueThread.Lockdep.Memory
import BlueThread.Lockdep.Leaks
import BlueThread.Lockdep.Report
import BlueThread.Locks.Protocol
import BlueThread.Locks.Model
import BlueThread.Locks.View
import BlueThread.Locks.Refinement
import BlueThread.Locks.Simulation
import BlueThread.Locks.Identifiers
import BlueThread.Locks.HeldLocks
import BlueThread.Locks.Deadlock
import BlueThread.Locks.Waits
import BlueThread.Locks.Names
import BlueThread.Locks.Reuse
import BlueThread.Locks.Hierarchy
import BlueThread.Locks.Moves
import BlueThread.Locks.Bookkeeping
import BlueThread.Locks.SharedBookkeeping
import BlueThread.Locks.SharedQueries
import BlueThread.Locks.FailedWaits
import BlueThread.Locks.Timespec
import BlueThread.Locks.Recursive
import BlueThread.Locks.PoolClients
import BlueThread.Locks.Ownership
import BlueThread.Locks.Monitor
import BlueThread.Locks.MonitorWaits
import BlueThread.Thread.Affinity
import BlueThread.Thread.Process
import BlueThread.Thread.Signals
import BlueThread.Thread.Lifetime
import BlueThread.ThreadPool.Model
import BlueThread.ThreadPool.Steps
import BlueThread.ThreadPool.Accounting
import BlueThread.ThreadPool.Barriers
import BlueThread.ThreadPool.Wakeups
import BlueThread.ThreadPool.Lifecycle
import BlueThread.ThreadPool.Drainers
import BlueThread.ThreadPool.RoundRobin
import BlueThread.ThreadPool.Scanning
import BlueThread.ThreadPool.Order
import BlueThread.ThreadPool.Pauses
import BlueThread.ThreadPool.Removal
import BlueThread.ThreadPool.Progress
import BlueThread.ShardedThreadPool.Model
import BlueThread.ShardedThreadPool.Steps
import BlueThread.ShardedThreadPool.Counters
import BlueThread.ShardedThreadPool.Drain
import BlueThread.ShardedThreadPool.Pause
import BlueThread.ShardedThreadPool.Overlap
import BlueThread.ShardedThreadPool.Deadlock
import BlueThread.ShardedThreadPool.Stop
import BlueThread.ShardedThreadPool.Lifecycle
import BlueThread.ShardedThreadPool.Progress
import BlueThread.ShardedThreadPool.DrainProgress
import BlueThread.Heartbeat.Model
import BlueThread.Heartbeat.Deadlines
import BlueThread.Heartbeat.History
import BlueThread.Heartbeat.Idle
import BlueThread.Heartbeat.Crews
import BlueThread.Heartbeat.Signals
import BlueThread.Heartbeat.Publication
import BlueThread.Heartbeat.Shutdown
import BlueThread.Heartbeat.Watch
import BlueThread.Heartbeat.Watchdog
import BlueThread.Heartbeat.Shutdown
