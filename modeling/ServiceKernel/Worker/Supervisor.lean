import Mathlib.Data.List.AList
import Mathlib.Logic.Function.Basic
import ServiceKernel.Worker.Watchdog

/-! The worker supervisor: one task that spawns every registered worker into a
join set and then reacts to cancellation, watchdog ticks and finished tasks.
What runs between two awaits of the loop is one step; the environment (the
workers, the clocks and whoever holds a token) acts between the steps. -/
namespace ServiceKernel

/-- Tokio's task ids are opaque. -/
abbrev TaskId := Nat

/-- How Tokio chooses them: a new task gets an id that no unjoined task has. -/
structure TaskIds where
  next : Nat → List TaskId → TaskId
  fresh : ∀ spawned unjoined, next spawned unjoined ∉ unjoined

/-- One above every id in use. -/
def TaskIds.counting : TaskIds where
  next _ unjoined := unjoined.foldr max 0 + 1
  fresh _ unjoined hMem := by
    have hBound : ∀ ids : List TaskId, ∀ id ∈ ids, id ≤ ids.foldr max 0 := by
      intro ids id hId
      induction ids with
      | nil => cases hId
      | cons first rest ih =>
          simp only [List.foldr_cons]
          rcases List.mem_cons.mp hId with rfl | hRest
          · exact Nat.le_max_left _ _
          · exact Nat.le_trans (ih hRest) (Nat.le_max_right _ _)
    exact absurd (hBound unjoined _ hMem) (Nat.not_succ_le_self _)

structure RegisteredWorker where
  handle : WorkerHandle
  spec : WorkerSpec
  runner : WorkerRunner
  lastHeartbeat : Int
  attempts : UInt32
  circuit : Option CircuitBreaker

/-- What `register_inner` stores under a new id. -/
def RegisteredWorker.register (id : WorkerId) (spec : WorkerSpec) (runner : WorkerRunner) :
    RegisteredWorker :=
  { handle := .new id spec.name
    spec := spec
    runner := runner
    lastHeartbeat := 0
    attempts := 0
    circuit := spec.circuit.map .new }

/-- A task in the join set. `run` numbers the spawns, so it outlives the task id;
`result` is there once the task has ended. -/
structure Task where
  id : TaskId
  worker : WorkerId
  run : Nat
  result : Option JoinResult
  deriving DecidableEq

inductive Metric where
  | workersFailed
  | workersRestarted
  deriving DecidableEq, Repr

/-- The history of a supervisor: what it emits, counts and reports, the calls
between its functions that the properties speak about, and what its
environment did. -/
inductive SupervisorRecord where
  | event (event : WorkerLifecycleEvent)
  | counter (metric : Metric) (worker : String)
  | stateSet (id : WorkerId) (state : WorkerState)
  | spawned (id : WorkerId) (run : Nat) (cancelled : Bool)
  | handled (id : WorkerId) (run : Nat) (outcome : SupervisorOutcome)
  | breakerUpdated (id : WorkerId) (hasFailed : Bool)
  | consulted (id : WorkerId) (hasFailed : Bool) (attempts : UInt32) (allowed : Bool)
  | backingOff (id : WorkerId) (delay : Duration)
  | criticalityApplied (id : WorkerId)
  | shutdownSignalled
  | healthReported (name : String) (status : HealthStatus)
  | heartbeat (id : WorkerId) (run : Nat) (nanos : Int)
  | cancelCalled
  | workerCancelCalled (id : WorkerId)
  deriving DecidableEq

namespace SupervisorRecord

/-- A `Timeout` event of the worker. -/
def isTimeout (id : WorkerId) : SupervisorRecord → Bool
  | .event (.timeout i _ _) => i = id
  | _ => false

/-- The spawn of the given run. -/
def isSpawn (id : WorkerId) (run : Nat) : SupervisorRecord → Bool
  | .spawned i r _ => i = id ∧ r = run
  | _ => false

end SupervisorRecord

/-- Where the supervisor's own task stands. -/
inductive SupervisorPhase where
  | notStarted
  | head
  | idle
  | backoff (id : WorkerId) (name : String) (attempts : UInt32) (due : Instant)
  | draining (drained aborted : Nat) (deadline : Instant)
  | aborting (drained aborted : Nat)
  | returned (drained aborted : Nat)
  deriving DecidableEq

/-- `registered` is a map with keys `ids`, in the order it iterates in.
`contexts` lists, by run, the worker whose context each spawn handed out. -/
structure Supervisor where
  ids : List WorkerId
  worker : WorkerId → RegisteredWorker
  joinSet : List Task
  taskToWorker : AList fun _ : TaskId => WorkerId
  cancelled : Bool
  clock : Instant
  contexts : List WorkerId
  phase : SupervisorPhase
  history : List SupervisorRecord

/-- The workers registered before `run`, listed in the map's iteration order. -/
structure Roster where
  ids : List WorkerId
  nodup : ids.Nodup
  spec : WorkerId → WorkerSpec
  runner : WorkerId → WorkerRunner

/-- A single worker, registered under id 1. -/
def Roster.single (spec : WorkerSpec) (runner : WorkerRunner) : Roster :=
  ⟨[1], List.nodup_singleton 1, fun _ => spec, fun _ => runner⟩

/-- A worker that is expected to heartbeat every second and restarts at once. -/
def WorkerSpec.watched : WorkerSpec :=
  { WorkerSpec.new "alpha" with
    restart := .always
    backoff := .none
    heartbeatInterval := some (.fromSecs 1) }

namespace Supervisor

def new (roster : Roster) : Supervisor where
  ids := roster.ids
  worker id := .register id (roster.spec id) (roster.runner id)
  joinSet := []
  taskToWorker := ∅
  cancelled := false
  clock := 0
  contexts := []
  phase := .notStarted
  history := []

def log (s : Supervisor) (record : SupervisorRecord) : Supervisor :=
  { s with history := s.history ++ [record] }

def emit (s : Supervisor) (event : WorkerLifecycleEvent) : Supervisor := s.log (.event event)

def modifyWorker (s : Supervisor) (id : WorkerId) (f : RegisteredWorker → RegisteredWorker) :
    Supervisor :=
  { s with worker := Function.update s.worker id (f (s.worker id)) }

def setState (s : Supervisor) (id : WorkerId) (state : WorkerState) : Supervisor :=
  (s.modifyWorker id fun r => { r with handle := { r.handle with state := state } }).log
    (.stateSet id state)

/-- `is_cancelled` on a worker's token, which its parent cancels too. -/
def isCancelled (s : Supervisor) (id : WorkerId) : Bool :=
  (s.worker id).handle.cancelled || s.cancelled

def cancelWorkerToken (s : Supervisor) (id : WorkerId) : Supervisor :=
  s.modifyWorker id fun r => { r with handle := { r.handle with cancelled := true } }

variable (ids : TaskIds)

/-- The `join_set.spawn` in `spawn_one`, with the entry it makes in `task_to_worker`. -/
def spawnTask (s : Supervisor) (id : WorkerId) : Supervisor :=
  let run := s.contexts.length
  let taskId := ids.next run (s.joinSet.map Task.id)
  { s with
    joinSet := s.joinSet ++ [⟨taskId, id, run, none⟩]
    taskToWorker := s.taskToWorker.insert taskId id
    contexts := s.contexts ++ [id]
    history := s.history ++ [.spawned id run (s.isCancelled id)] }

def spawnOne (s : Supervisor) (id : WorkerId) : Supervisor :=
  if id ∈ s.ids then
    let s := s.setState id .starting
    let s := s.spawnTask ids id
    let s := s.setState id .running
    s.emit (.started id (s.worker id).spec.name)
  else s

def spawnOneIfIdle (s : Supervisor) (id : WorkerId) : Supervisor :=
  let alreadyRunning := s.taskToWorker.entries.any fun entry => entry.2 = id
  if alreadyRunning then s else s.spawnOne ids id

/-- The event for a breaker that went from one state to the other. -/
def circuitEvent (id : WorkerId) (name : String) (failures : UInt32) :
    CircuitState → CircuitState → Option WorkerLifecycleEvent
  | .closed, .opened => some (.circuitOpened id name failures)
  | .halfOpen, .opened => some (.circuitOpened id name failures)
  | .halfOpen, .closed => some (.circuitClosed id name)
  | _, _ => none

def storeBreaker (s : Supervisor) (id : WorkerId) (hasFailed : Bool) (after : CircuitBreaker) :
    Supervisor :=
  (s.modifyWorker id fun r => { r with circuit := some after }).log (.breakerUpdated id hasFailed)

/-- Record the outcome on the worker's breaker, if it has one. The result tells
whether the breaker is open afterwards. -/
def advanceCircuit (s : Supervisor) (id : WorkerId) (hasFailed : Bool) : Supervisor × Bool :=
  if id ∈ s.ids then
    match (s.worker id).circuit with
    | none => (s, false)
    | some breaker =>
      let after := breaker.record hasFailed s.clock
      let name := (s.worker id).spec.name
      let failures := saturatingAddU32 (s.worker id).attempts 1
      let s := s.storeBreaker id hasFailed after
      let s := match circuitEvent id name failures breaker.state after.state with
        | some event => s.emit event
        | none => s
      (s, decide (after.state = .opened))
  else (s, false)

def applyCriticality (s : Supervisor) (name : String) (criticality : Criticality) : Supervisor :=
  match criticality with
  | .critical => s.log .shutdownSignalled
  | .essential => s.log (.healthReported name .unhealthy)
  | .optional => s.log (.healthReported name .degraded)
  | .background => s

/-- What `maybe_restart` does after its wait, if any. -/
def restartNow (s : Supervisor) (id : WorkerId) (name : String) (attempts : UInt32) : Supervisor :=
  let s := s.emit (.restarted id name (saturatingAddU32 attempts 1))
  let s := s.log (.counter .workersRestarted name)
  { s.spawnOne ids id with phase := .head }

/-- Count the outcome and ask the restart policy. The result is its answer and the
number of attempts it was asked about. -/
def consultPolicy (s : Supervisor) (id : WorkerId) (hasFailed : Bool) (wall : Option Nat) :
    Supervisor × Bool × UInt32 :=
  let r := s.worker id
  let (handle, attempts) :=
    if hasFailed then r.handle.recordFailure failureWindowNanos (unixNanos wall) else (r.handle, 0)
  let policyAllows := r.spec.restart.shouldRestart hasFailed attempts
  let s := s.modifyWorker id fun r => { r with handle := handle, attempts := attempts }
  (s.log (.consulted id hasFailed attempts policyAllows), policyAllows, attempts)

/-- Restart the worker, at once or after its backoff. -/
def beginRestart (s : Supervisor) (id : WorkerId) (attempts : UInt32) : Supervisor :=
  let spec := (s.worker id).spec
  let delay := spec.backoff.delay attempts
  let s := s.setState id .restarting
  if delay.isZero then s.restartNow ids id spec.name attempts
  else
    { s.log (.backingOff id delay) with
      phase := .backoff id spec.name attempts (s.clock + delay.nanos) }

/-- Stop the worker and respond according to its criticality. -/
def retire (s : Supervisor) (id : WorkerId) (hasFailed : Bool) : Supervisor :=
  let spec := (s.worker id).spec
  let s := s.setState id .stopped
  let s := s.emit (.stopped id spec.name)
  if hasFailed then
    (s.log (.criticalityApplied id)).applyCriticality spec.name spec.criticality
  else s

/-- `maybe_restart` after the circuit breaker has been advanced. -/
def decideRestart (s : Supervisor) (circuitOpen : Bool) (id : WorkerId) (hasFailed : Bool)
    (wall : Option Nat) : Supervisor :=
  let (s, policyAllows, attempts) := s.consultPolicy id hasFailed wall
  if policyAllows && !circuitOpen then s.beginRestart ids id attempts else s.retire id hasFailed

def maybeRestart (s : Supervisor) (id : WorkerId) (hasFailed : Bool) (wall : Option Nat) :
    Supervisor :=
  let (s, circuitOpen) := s.advanceCircuit id hasFailed
  if id ∈ s.ids then s.decideRestart ids circuitOpen id hasFailed wall else s

/-- The part of `handle_outcome` before `maybe_restart`. `run` is only recorded. -/
def announceOutcome (s : Supervisor) (id : WorkerId) (run : Nat) (outcome : SupervisorOutcome) :
    Supervisor :=
  let name := (s.worker id).spec.name
  let s := s.log (.handled id run outcome)
  let s := s.emit (outcome.event id name)
  if outcome.hasFailed then s.log (.counter .workersFailed name) else s

def handleOutcome (s : Supervisor) (id : WorkerId) (run : Nat) (outcome : SupervisorOutcome)
    (wall : Option Nat) : Supervisor :=
  if id ∈ s.ids then (s.announceOutcome id run outcome).maybeRestart ids id outcome.hasFailed wall
  else s

/-- The heartbeat cells the watchdog inspects. -/
def watchdogTargets (s : Supervisor) : List WatchdogTarget :=
  s.ids.filterMap fun id =>
    (s.worker id).spec.heartbeatInterval.map fun interval =>
      ⟨(s.worker id).handle.id, (s.worker id).spec.name, (s.worker id).lastHeartbeat, interval⟩

/-- Tick every breaker; `nows` are the clock readings this takes. -/
def tickBreakers (s : Supervisor) (nows : WorkerId → Instant) : Supervisor :=
  { s with
    worker := fun id =>
      if id ∈ s.ids then
        { s.worker id with circuit := (s.worker id).circuit.map (·.tick (nows id)) }
      else s.worker id }

/-- The breakers that a tick moves from open to half-open, in iteration order. -/
def closedToHalfOpen (s : Supervisor) (nows : WorkerId → Instant) : List WorkerId :=
  s.ids.filter fun id => match (s.worker id).circuit with
    | some breaker => breaker.state = .opened ∧ (breaker.tick (nows id)).state = .halfOpen
    | none => false

/-- Announce a half-open breaker and start its trial run. -/
def startTrial (s : Supervisor) (id : WorkerId) : Supervisor :=
  (s.emit (.circuitHalfOpened id (s.worker id).spec.name)).spawnOneIfIdle ids id

/-- Report a heartbeat-silent worker and cancel its token. -/
def reportTimeout (s : Supervisor) (timeout : WatchdogTimeout) : Supervisor :=
  let s := s.emit (.timeout timeout.id timeout.name timeout.silentFor)
  if timeout.id ∈ s.ids then s.cancelWorkerToken timeout.id else s

/-- The timeouts are found before the breakers are ticked and reported after. The function
has no await and is one step here: a heartbeat that a worker makes meanwhile comes before
the tick or after it, never between its check and its reports. -/
def watchdogTick (s : Supervisor) (wall : Option Nat) (nows : WorkerId → Instant) : Supervisor :=
  let timeouts := Watchdog.check s.watchdogTargets (unixNanos wall)
  let halfOpened := s.closedToHalfOpen nows
  let s := s.tickBreakers nows
  let s := halfOpened.foldl (fun s id => s.startTrial ids id) s
  timeouts.foldl reportTimeout s

/-- Take a joined task out of the join set and out of `task_to_worker`. -/
def removeTask (s : Supervisor) (task : Task) : Supervisor :=
  { s with
    joinSet := s.joinSet.filter fun t => t.id ≠ task.id
    taskToWorker := s.taskToWorker.erase task.id }

/-- The `join_next_with_id` branch of the loop for a task that has ended. -/
def joined (s : Supervisor) (task : Task) (result : JoinResult) (wall : Option Nat) : Supervisor :=
  let owner := s.taskToWorker.lookup task.id
  let s := s.removeTask task
  match result with
  | .returned id outcome => s.handleOutcome ids id task.run outcome wall
  | .panicked reason => match owner with
    | some id => s.handleOutcome ids id task.run (.panicked reason) wall
    | none => s
  | .cancelled => s

/-- Grace period for in-flight tasks after cancellation. -/
def shutdownGrace : Duration := .fromSecs 5

/-- The first loop of `shutdown_all`. -/
def stopWorker (s : Supervisor) (id : WorkerId) : Supervisor :=
  ((s.setState id .stopping).cancelWorkerToken id).emit (.stopping id)

/-- The last loop of `shutdown_all`. -/
def markStopped (s : Supervisor) (id : WorkerId) : Supervisor :=
  (s.setState id .stopped).emit (.stopped id (s.worker id).spec.name)

/-- One more task joined by the drain, as `(drained, aborted)`. -/
def countJoined (result : JoinResult) (drained aborted : Nat) : Nat × Nat :=
  match result with
  | .returned _ _ => (drained + 1, aborted)
  | .panicked _ => (drained + 1, aborted)
  | .cancelled => (drained, aborted + 1)

/-- Store the result of a run in its task. -/
def endTask (s : Supervisor) (run : Nat) (result : Task → JoinResult) : Supervisor :=
  { s with joinSet := s.joinSet.map fun t =>
      if t.run = run then { t with result := some (result t) } else t }

def atLoop (s : Supervisor) : Bool :=
  match s.phase with
  | .head => true
  | .idle => true
  | _ => false

def findTask (s : Supervisor) (run : Nat) : Option Task := s.joinSet.find? fun t => t.run = run

end Supervisor

/-- One step of the supervisor or of its environment, with the clock readings
and answers it gets. Tasks and contexts are named by run. -/
inductive SupervisorLabel where
  | start
  | tick (wall : Option Nat) (nows : WorkerId → Instant) (after : Instant)
  | join (run : Nat) (wall : Option Nat) (now : Instant)
  | joinNone
  | backoffElapsed (now : Instant)
  | backoffCancelled
  | cancelObserved (now : Instant)
  | drain (run : Nat)
  | graceExpired (now : Instant)
  | drained
  | finish (run : Nat) (ending : RunEnd)
  | abort (run : Nat)
  | heartbeat (run : Nat) (wall : Option Nat)
  | cancel
  | cancelWorker (id : WorkerId)

namespace Supervisor

/-- A condition on listed workers is decided along the list, not over all ids. -/
instance (priority := high) decidableForallListed {ids : List WorkerId} {p : WorkerId → Prop}
    [DecidablePred p] : Decidable (∀ id ∈ ids, p id) := List.decidableBAll p ids

/-- What a step does, if it can be taken. The loop is biased: a tick or a join is
taken at its head only while the token is not cancelled. The monotonic clock
never goes back; the wall clock may. `abort` is the end of a task that `abort_all`
reached: an async one, or a sync one that no thread has begun. Tokio does not abort a sync
task that runs, which ends by itself; for such a task the step only stands for that end. -/
def exec (ids : TaskIds) (s : Supervisor) : SupervisorLabel → Option Supervisor
  | .start =>
    if s.phase = .notStarted then
      some { s.ids.foldl (fun s id => s.spawnOne ids id) s with phase := .head }
    else none
  | .tick wall nows after =>
    if (s.phase = .head ∧ s.cancelled = false ∨ s.phase = .idle) ∧
        (∀ id ∈ s.ids, s.clock ≤ nows id ∧ nows id ≤ after) ∧ s.clock ≤ after then
      some { s.watchdogTick ids wall nows with phase := .head, clock := after }
    else none
  | .join run wall now =>
    if s.phase = .head ∧ s.cancelled = false ∧ s.clock ≤ now then
      (s.findTask run).bind fun task => task.result.map fun result =>
        { s with clock := now }.joined ids task result wall
    else none
  | .joinNone =>
    if s.phase = .head ∧ s.cancelled = false ∧ s.joinSet = [] then some { s with phase := .idle }
    else none
  | .backoffElapsed now =>
    match s.phase with
    | .backoff id name attempts due =>
      if due ≤ now ∧ s.clock ≤ now then some ({ s with clock := now }.restartNow ids id name attempts)
      else none
    | _ => none
  | .backoffCancelled =>
    match s.phase with
    | .backoff _ _ _ _ => if s.cancelled then some { s with phase := .head } else none
    | _ => none
  | .cancelObserved now =>
    if s.atLoop ∧ s.cancelled ∧ s.clock ≤ now then
      some { s.ids.foldl stopWorker s with
        phase := .draining 0 0 (now + shutdownGrace.nanos), clock := now }
    else none
  | .drain run =>
    (s.findTask run).bind fun task => task.result.bind fun result =>
      match s.phase with
      | .draining drained aborted deadline =>
        let (drained, aborted) := countJoined result drained aborted
        some { s.removeTask task with phase := .draining drained aborted deadline }
      | .aborting drained aborted =>
        let (drained, aborted) := countJoined result drained aborted
        some { s.removeTask task with phase := .aborting drained aborted }
      | _ => none
  | .graceExpired now =>
    match s.phase with
    | .draining drained aborted deadline =>
      if deadline ≤ now ∧ s.clock ≤ now ∧ s.joinSet ≠ [] then
        some { s with phase := .aborting drained aborted, clock := now }
      else none
    | _ => none
  | .drained =>
    match s.phase with
    | .draining drained aborted _ =>
      if s.joinSet = [] then
        some { s.ids.foldl markStopped s with phase := .returned drained aborted }
      else none
    | .aborting drained aborted =>
      if s.joinSet = [] then
        some { s.ids.foldl markStopped s with phase := .returned drained aborted }
      else none
    | _ => none
  | .finish run ending =>
    (s.findTask run).bind fun task =>
      if task.result = none then
        some (s.endTask run fun t => (s.worker t.worker).runner.run t.worker ending)
      else none
  | .abort run =>
    match s.phase with
    | .aborting _ _ => (s.findTask run).bind fun task =>
      if task.result = none then some (s.endTask run fun _ => .cancelled) else none
    | _ => none
  | .heartbeat run wall =>
    s.contexts[run]?.map fun id =>
      (s.modifyWorker id fun r => { r with lastHeartbeat := unixNanos wall }).log
        (.heartbeat id run (unixNanos wall))
  | .cancel => some ({ s with cancelled := true }.log .cancelCalled)
  | .cancelWorker id =>
    if id ∈ s.ids then some ((s.cancelWorkerToken id).log (.workerCancelCalled id)) else none

end Supervisor

/-- The transition relation of the supervisor and its environment. -/
def SupervisorStep (ids : TaskIds) (s : Supervisor) (label : SupervisorLabel) (s' : Supervisor) :
    Prop :=
  s.exec ids label = some s'

end ServiceKernel
