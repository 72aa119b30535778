import ServiceKernel.Health.Status
import ServiceKernel.Worker.Policy

/-! The vocabulary of supervised workers: what a consumer configures, what a
run ends with and what the supervisor says about it. -/
namespace ServiceKernel

/-- Drawn from the supervisor's `IdGenerator`. -/
abbrev WorkerId := UInt64

inductive WorkerState where
  | created
  | starting
  | running
  | idle
  | busy
  | failed
  | restarting
  | stopping
  | stopped
  deriving DecidableEq, Repr

inductive Criticality where
  | critical
  | essential
  | optional
  | background
  deriving DecidableEq, Repr

/-- Per-worker configuration, without the reserved `timeout` that nothing reads. -/
structure WorkerSpec where
  name : String
  criticality : Criticality
  restart : RestartPolicy
  backoff : BackoffPolicy
  heartbeatInterval : Option Duration
  circuit : Option CircuitPolicy
  deriving DecidableEq

/-- The defaults of `WorkerSpec::new`. -/
def WorkerSpec.new (name : String) : WorkerSpec :=
  { name := name
    criticality := .optional
    restart := .onFailure
    backoff := .default
    heartbeatInterval := none
    circuit := none }

/-- A normalized panic payload. -/
inductive PanicReason where
  | staticStr (message : String)
  | string (message : String)
  | unknown
  deriving DecidableEq, Repr

/-- The message a worker returns with `Err`. -/
structure WorkerError where
  message : String
  deriving DecidableEq, Repr

/-- What the supervisor emits about one worker. The `at` stamps are left out:
nothing reads them. -/
inductive WorkerLifecycleEvent where
  | started (id : WorkerId) (name : String)
  | failed (id : WorkerId) (name : String) (reason : String)
  | panicked (id : WorkerId) (name : String) (reason : PanicReason)
  | restarted (id : WorkerId) (name : String) (attempt : UInt32)
  | stopping (id : WorkerId)
  | stopped (id : WorkerId) (name : String)
  | circuitOpened (id : WorkerId) (name : String) (failures : UInt32)
  | circuitHalfOpened (id : WorkerId) (name : String)
  | circuitClosed (id : WorkerId) (name : String)
  | timeout (id : WorkerId) (name : String) (silentFor : Duration)
  deriving DecidableEq

/-- `u32::saturating_add`. -/
def saturatingAddU32 (a b : UInt32) : UInt32 := .ofNat (min (a.toNat + b.toNat) 4294967295)

/-- Default window for `MaxRetries` failure counting. -/
def failureWindowNanos : Int := 60 * 1000000000

/-- The observable cells of one worker. `cancelled` is the worker's own token,
a child of the supervisor's. -/
structure WorkerHandle where
  id : WorkerId
  name : String
  state : WorkerState
  cancelled : Bool
  failuresInWindow : UInt32
  lastFailureNanos : Int
  deriving DecidableEq

namespace WorkerHandle

def new (id : WorkerId) (name : String) : WorkerHandle := ⟨id, name, .created, false, 0, 0⟩

/-- Count a failure read at `now` on the wall clock: the count starts over when
the previous failure is out of the window, and `fetch_add` wraps. -/
def recordFailure (h : WorkerHandle) (windowNanos now : Int) : WorkerHandle × UInt32 :=
  let last := h.lastFailureNanos
  let count := if last = 0 ∨ now - last > windowNanos then 1 else h.failuresInWindow + 1
  ({ h with failuresInWindow := count, lastFailureNanos := now }, count)

variable (h : WorkerHandle) (windowNanos now : Int)

@[simp] theorem recordFailure_cancelled :
    (h.recordFailure windowNanos now).1.cancelled = h.cancelled := rfl

/-- The count returned is the count stored. -/
@[simp] theorem recordFailure_failuresInWindow :
    (h.recordFailure windowNanos now).1.failuresInWindow = (h.recordFailure windowNanos now).2 :=
  rfl

end WorkerHandle

/-- A registered worker is held behind one of two traits. -/
inductive WorkerRunner where
  | sync
  | async
  deriving DecidableEq, Repr

/-- How a worker's `run` ends. -/
inductive RunEnd where
  | ok
  | err (error : WorkerError)
  | panic (reason : PanicReason)
  deriving DecidableEq, Repr

inductive SupervisorOutcome where
  | completed
  | failed (error : WorkerError)
  | panicked (reason : PanicReason)
  deriving DecidableEq, Repr

namespace SupervisorOutcome

def hasFailed : SupervisorOutcome → Bool
  | .completed => false
  | .failed _ => true
  | .panicked _ => true

/-- The event `handle_outcome` emits for the outcome. -/
def event (id : WorkerId) (name : String) : SupervisorOutcome → WorkerLifecycleEvent
  | .completed => .stopped id name
  | .failed error => .failed id name error.message
  | .panicked reason => .panicked id name reason

end SupervisorOutcome

/-- What `join_next_with_id` yields for a task: its value, or a join error. -/
inductive JoinResult where
  | returned (worker : WorkerId) (outcome : SupervisorOutcome)
  | panicked (reason : PanicReason)
  | cancelled
  deriving DecidableEq, Repr

/-- `run_sync` catches the worker's panic inside the task. -/
def runSync (id : WorkerId) : RunEnd → JoinResult
  | .ok => .returned id .completed
  | .err e => .returned id (.failed e)
  | .panic reason => .returned id (.panicked reason)

/-- `run_async` lets a panic reach the join set. -/
def runAsync (id : WorkerId) : RunEnd → JoinResult
  | .ok => .returned id .completed
  | .err e => .returned id (.failed e)
  | .panic reason => .panicked reason

def WorkerRunner.run : WorkerRunner → WorkerId → RunEnd → JoinResult
  | .sync => runSync
  | .async => runAsync

end ServiceKernel
