import ServiceKernel.Semantics.Typestate
import ServiceKernel.Health.Replay
import ServiceKernel.Health.Observers
import ServiceKernel.Worker.Containment
import ServiceKernel.Worker.Cancellation
import ServiceKernel.Worker.Timeouts
import ServiceKernel.Worker.EventProtocol
import ServiceKernel.Worker.Respawns
import ServiceKernel.Worker.Escalation
import ServiceKernel.Lifecycle.Walk
import ServiceKernel.Lifecycle.Observers
import ServiceKernel.Kernel.HookFailures
import ServiceKernel.Kernel.Acceptance
import ServiceKernel.Kernel.Cycles
import ServiceKernel.Kernel.Levels
import ServiceKernel.Kernel.Deadlock
import ServiceKernel.Kernel.ShutdownPaths
import ServiceKernel.Kernel.ShutdownOrder
import ServiceKernel.Semantics.Angelic
import ServiceKernel.Worker.CircuitCells
import ServiceKernel.Worker.CircuitCounting
import ServiceKernel.Kernel.Handles
import ServiceKernel.Kernel.BootFailures
import ServiceKernel.Primitives.Deadline
import ServiceKernel.Worker.Backoff
import ServiceKernel.Worker.WatchdogRange
import ServiceKernel.Kernel.Deadlines
import ServiceKernel.Worker.Drains
import ServiceKernel.Worker.BackoffHold
import ServiceKernel.Events.Subscriptions
import ServiceKernel.Events.Interleavings
import ServiceKernel.Worker.MaxRetries
import ServiceKernel.Worker.FirstBackoff
import ServiceKernel.Worker.OpenedCounts
import ServiceKernel.Worker.HealthMarks
import ServiceKernel.Worker.LoopEnd
import ServiceKernel.Kernel.SequentialRun
import ServiceKernel.Kernel.DeadEnds
import ServiceKernel.Kernel.Custody
import ServiceKernel.Kernel.Snapshots
import ServiceKernel.Kernel.Announcements
import ServiceKernel.Kernel.Contenders
import ServiceKernel.Worker.Termination
import ServiceKernel.Kernel.ExecPhase
import ServiceKernel.Worker.Observers
import ServiceKernel.Worker.Isolation
