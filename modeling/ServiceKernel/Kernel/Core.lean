import ServiceKernel.Kernel.Inner
import ServiceKernel.Semantics.Typestate

/-! The methods of `Kernel` as programs over its shared state. -/
namespace ServiceKernel

open Interleaving

structure SubsystemSnapshot where
  id : UInt64
  name : String
  dependencies : List String
  health : HealthStatus
  bootedAt : Option Instant
  loadedAt : Option Instant
  deriving DecidableEq

structure KernelSnapshot where
  name : String
  lifecycle : LifecycleSnapshot
  health : HealthSnapshot
  subsystems : List SubsystemSnapshot
  timestamp : Instant

def SubsystemBookkeeping.snapshot (book : SubsystemBookkeeping) (s : Subsystem)
    (health : HealthStatus) : SubsystemSnapshot where
  id := (book.id.lookup s.name).getD 0
  name := s.name
  dependencies := s.dependencies
  health := health
  bootedAt := book.bootedAt.lookup s.name
  loadedAt := book.loadedAt.lookup s.name

section Components

variable {α : Type}

/-- Call a method of the kernel's lifecycle controller. -/
def onLifecycle (p : Program LifecycleSig α) : Program KernelSig α := p.lift .lifecycle fun _ a => a

def onHealth (p : Program HealthSig α) : Program KernelSig α := p.lift .health fun _ a => a

def onCoordinator (p : Program CoordinatorSig α) : Program KernelSig α :=
  p.lift .coordinator fun _ a => a

end Components

section Boot

def recordBooted (name : String) : Program KernelSig Unit := do
  (KernelOp.lock .bookkeeping).call
  let _ ← (KernelOp.insertBooted name).call
  (KernelOp.unlock .bookkeeping).call

def recordLoaded (name : String) : Program KernelSig Unit := do
  (KernelOp.lock .bookkeeping).call
  let _ ← (KernelOp.insertLoaded name).call
  (KernelOp.unlock .bookkeeping).call

/-- One call of a subsystem method under `catch_unwind`. -/
def callSubsystem (c : Callback) (s : Subsystem) : Program KernelSig CallbackOutcome := do
  (KernelOp.startCallback c s).call
  (KernelOp.finishCallback c s).call

/-- The loop of `run_boot_phase` and `run_load_phase`: up to the first failure,
recording every success. -/
def forwardPhase (c : Callback) (record : String → Program KernelSig Unit) :
    List Subsystem → Program KernelSig (Except KernelError Unit)
  | [] => return .ok ()
  | s :: rest => do
    let outcome ← callSubsystem c s
    match outcome.error s.name with
    | some error => return .error error
    | none =>
      record s.name
      forwardPhase c record rest

def runBootPhase (k : Kernel) : Program KernelSig (Except KernelError Unit) := do
  (KernelOp.lock .subsystems).call
  let result ← forwardPhase .boot recordBooted k.subsystems
  (KernelOp.unlock .subsystems).call
  return result

def runLoadPhase (k : Kernel) : Program KernelSig (Except KernelError Unit) := do
  (KernelOp.lock .subsystems).call
  let result ← forwardPhase .load recordLoaded k.subsystems
  (KernelOp.unlock .subsystems).call
  return result

/-- The loop of the two shutdown phases: every subsystem of the list is called,
and the first error is kept. -/
def shutdownEach : List Subsystem → Option KernelError → Program KernelSig (Option KernelError)
  | [], firstErr => return firstErr
  | s :: rest, firstErr => do
    let outcome ← callSubsystem .shutdown s
    shutdownEach rest (firstErr.or (outcome.error s.name))

def runShutdownPhase (k : Kernel) : Program KernelSig (Except KernelError Unit) := do
  (KernelOp.lock .subsystems).call
  let firstErr ← shutdownEach k.subsystems.reverse none
  (KernelOp.unlock .subsystems).call
  match firstErr with
  | some err => return .error err
  | none => return .ok ()

/-- Roll back a failed load: only what is recorded as loaded, in reverse order. -/
def runShutdownPhaseToLoaded (k : Kernel) : Program KernelSig Unit := do
  (KernelOp.lock .bookkeeping).call
  let loaded ← KernelOp.loadedKeys.call
  (KernelOp.unlock .bookkeeping).call
  (KernelOp.lock .subsystems).call
  let _ ← shutdownEach (k.subsystems.reverse.filter fun s => s.name ∈ loaded) none
  (KernelOp.unlock .subsystems).call

def illegalTransition (e : TransitionError) : KernelError :=
  .lifecycle .lifecycleIllegalTransition e

/-- `Kernel::boot`. -/
def boot (k : Kernel) : Program KernelSig (Except KernelError Unit) := do
  match ← onLifecycle (transition .booting) with
  | .error e => return .error (illegalTransition e)
  | .ok () =>
    match ← runBootPhase k with
    | .error err =>
      let _ ← onLifecycle (transition .failed)
      return .error err
    | .ok () =>
      match ← onLifecycle (transition .loading) with
      | .error e => return .error (illegalTransition e)
      | .ok () =>
        match ← runLoadPhase k with
        | .error err =>
          runShutdownPhaseToLoaded k
          let _ ← onLifecycle (transition .failed)
          return .error err
        | .ok () =>
          match ← onLifecycle (transition .running) with
          | .error e => return .error (illegalTransition e)
          | .ok () => return .ok ()

end Boot

section Exec

/-- How the exec phase ends; when the wait is released, with the report that the
coordinator returned, which nobody reads. -/
inductive ExecEnd where
  | released (report : Option ShutdownReport)
  | failed (error : KernelError)
  | unwound
  deriving DecidableEq, Repr

/-- `run_coordinator_blocking`: without a runtime the coordinator is skipped. -/
def runCoordinatorBlocking (k : Kernel) : Program KernelSig ExecEnd := do
  match ← (KernelOp.buildRuntime .currentThread).call with
  | .error _ => return .released none
  | .ok () =>
    match ← onCoordinator (coordinatorShutdown k.shutdownGrace) with
    | some report => return .released (some report)
    | none => return .unwound

/-- `run_supervisor`. The watcher it spawns is awaited at the end, or by the drop
of the runtime when the coordinator unwinds. -/
def runSupervisor (k : Kernel) : Program KernelSig ExecEnd := do
  let pending ← KernelOp.takeWorkers.call
  let _ ← KernelOp.signalRequested.call
  let _ ← (KernelOp.supervise pending).call
  match ← onCoordinator (coordinatorShutdown k.shutdownGrace) with
  | some report =>
    KernelOp.signal.call
    KernelOp.waitForSignal.call
    return .released (some report)
  | none =>
    KernelOp.waitForSignal.call
    return .unwound

/-- `Kernel::run_exec_phase` with the `tokio` feature. -/
def runExecPhase (k : Kernel) : Program KernelSig ExecEnd := do
  let hasWorkers ← KernelOp.hasWorkers.call
  let signalRequested ← KernelOp.signalRequested.call
  if !hasWorkers && !signalRequested then
    KernelOp.waitForSignal.call
    runCoordinatorBlocking k
  else
    match ← (KernelOp.buildRuntime .multiThread).call with
    | .error e =>
      return .failed (.internal .internal ("failed to build tokio runtime: " ++ e))
    | .ok () => runSupervisor k

/-- The way out that a call of `run` takes. -/
inductive RunExit where
  | bootFailed (error : KernelError)
  | execFailed (error : KernelError)
  | stoppingRefused (error : TransitionError)
  | stoppedRefused (error : TransitionError)
  | finished (report : Option ShutdownReport) (shutdownResult : Except KernelError Unit)
  | unwound
  deriving DecidableEq

/-- The value `run` returns there; `none` when it unwinds. -/
def RunExit.result : RunExit → Option (Except KernelError Unit)
  | bootFailed error => some (.error error)
  | execFailed error => some (.error error)
  | stoppingRefused e => some (.error (illegalTransition e))
  | stoppedRefused e => some (.error (illegalTransition e))
  | finished _ shutdownResult => some shutdownResult
  | unwound => none

/-- Every exit but the first comes after a `boot` that returned `Ok`. -/
def RunExit.booted : RunExit → Bool
  | bootFailed _ => false
  | _ => true

/-- `Kernel::run`. -/
def run (k : Kernel) : Program KernelSig RunExit := do
  match ← boot k with
  | .error e => return .bootFailed e
  | .ok () =>
    match ← runExecPhase k with
    | .failed e => return .execFailed e
    | .unwound => return .unwound
    | .released report =>
      match ← onLifecycle (transition .stopping) with
      | .error e => return .stoppingRefused e
      | .ok () =>
        let shutdownResult ← runShutdownPhase k
        match ← onLifecycle (transition .stopped) with
        | .error e => return .stoppedRefused e
        | .ok () => return .finished report shutdownResult

end Exec

section Observe

/-- The iteration of `subsystem_snapshots`; `none` when a `health` method panics. -/
def collectSnapshots (book : SubsystemBookkeeping) :
    List Subsystem → Program KernelSig (Option (List SubsystemSnapshot))
  | [] => return some []
  | s :: rest => do
    match ← (KernelOp.healthOf s).call with
    | none => return none
    | some health =>
      match ← collectSnapshots book rest with
      | none => return none
      | some snapshots => return some (book.snapshot s health :: snapshots)

/-- `Kernel::subsystem_snapshots`; the guards are dropped in reverse order. -/
def subsystemSnapshots (k : Kernel) : Program KernelSig (Option (List SubsystemSnapshot)) := do
  (KernelOp.lock .bookkeeping).call
  (KernelOp.lock .subsystems).call
  let book ← KernelOp.readBook.call
  let snapshots ← collectSnapshots book k.subsystems
  (KernelOp.unlock .subsystems).call
  (KernelOp.unlock .bookkeeping).call
  return snapshots

/-- `Kernel::snapshot`; `none` when it unwinds. -/
def snapshot (k : Kernel) : Program KernelSig (Option KernelSnapshot) := do
  let lifecycle ← onLifecycle LifecycleOp.snapshot.call
  let health ← onHealth HealthOp.snapshot.call
  match ← subsystemSnapshots k with
  | none => return none
  | some subsystems =>
    let timestamp ← KernelOp.now.call
    return some ⟨k.name, lifecycle, health, subsystems, timestamp⟩

/-- What `Debug` prints of a kernel: its name, state and number of subsystems. -/
def debugFmt (k : Kernel) : Program KernelSig (Option (String × KernelState × Nat)) := do
  match ← snapshot k with
  | none => return none
  | some snap => return some (snap.name, snap.lifecycle.state, snap.subsystems.length)

/-- `ShutdownHandle::wait_timeout`; `none` when the deadline overflows. -/
def waitTimeout (timeout : Duration) : Program KernelSig (Option Bool) := do
  let now ← KernelOp.now.call
  match now.checkedAdd timeout with
  | none => return none
  | some deadline => return some (← (KernelOp.waitForSignalUntil deadline).call)

end Observe

section System

/-- The public calls on a kernel and on the handles of its context. -/
inductive KernelCall where
  | boot
  | run
  | shutdown
  | snapshot
  | debug
  | registerShutdownHook (hook : ShutdownHook)
  | installSignalHandler
  | signalToken
  | isSignalled
  | wait
  | waitTimeout (timeout : Duration)
  | lifecycle
  | health (c : HealthCall)

/-- The calls that boot the kernel. -/
def KernelCall.starts : KernelCall → Bool
  | .boot => true
  | .run => true
  | _ => false

/-- The calls that lock bookkeeping before the subsystems. -/
def KernelCall.observes : KernelCall → Bool
  | .snapshot => true
  | .debug => true
  | _ => false

inductive KernelReturn where
  | booted (result : Except KernelError Unit)
  | ran (exit : RunExit)
  | snapshot (snapshot : Option KernelSnapshot)
  | debug (fields : Option (String × KernelState × Nat))
  | done
  | signalled (answer : Bool)
  | waited (arrived : Option Bool)
  | lifecycle (snapshot : LifecycleSnapshot)
  | health (result : HealthResult)

def kernelBody (k : Kernel) : KernelCall → Program KernelSig KernelReturn
  | .boot => do return .booted (← boot k)
  | .run => do return .ran (← run k)
  | .shutdown => do KernelOp.signal.call; return .done
  | .snapshot => do return .snapshot (← snapshot k)
  | .debug => do return .debug (← debugFmt k)
  | .registerShutdownHook hook => do
    onCoordinator (CoordinatorOp.registerHook hook).call
    return .done
  | .installSignalHandler => do KernelOp.requestSignalHandler.call; return .done
  | .signalToken => do onCoordinator CoordinatorOp.signalToken.call; return .done
  | .isSignalled => do return .signalled (← KernelOp.isSignalled.call)
  | .wait => do KernelOp.waitForSignal.call; return .done
  | .waitTimeout timeout => do return .waited (← waitTimeout timeout)
  | .lifecycle => do return .lifecycle (← onLifecycle LifecycleOp.snapshot.call)
  | .health c => do return .health (← onHealth (healthBody true c))

abbrev KernelWorld (Thread : Type) := World Thread (KernelInner Thread) KernelRecord

abbrev KernelConfig (Thread : Type) :=
  Config KernelSig Thread (KernelInner Thread) KernelRecord KernelCall KernelReturn

/-- Any number of threads holding clones of one kernel. -/
abbrev KernelStep (Thread : Type) [DecidableEq Thread] (k : Kernel) :
    KernelConfig Thread → Label KernelSig Thread KernelCall → KernelConfig Thread → Prop :=
  Step (kernelMachine Thread) (kernelBody k)

/-- A kernel that `build` has just returned, at a reading of the clock. -/
def KernelConfig.built (Thread : Type) (k : Kernel) (clock : Instant) : KernelConfig Thread :=
  Config.start ⟨KernelInner.new k clock, []⟩

end System

section Environment

variable {Thread : Type}

/-- What surrounds a kernel in a schedule that is played through: how callbacks and
hooks end, which runtimes can be built and how the supervisor returns. The
clock stands still, and everything else is determined by the shared state. -/
structure Environment where
  outcome : Callback → Subsystem → CallbackOutcome
  runtime : RuntimeFlavor → Except String Unit
  hook : ShutdownHook → HookOutcome
  supervisor : SupervisorExit

/-- Nothing goes wrong. -/
def Environment.calm : Environment :=
  ⟨fun _ _ => .ok, fun _ => .ok (), fun _ => .ok, .cancelled⟩

def Environment.lifecycleAnswer (s : KernelInner Thread) : (o : LifecycleOp) → LifecycleSig.Ans o
  | .checkAndSet toState => match assertLegal s.lifecycle.state toState with
    | .ok () => .ok (s.lifecycle.state, s.clock)
    | .error e => .error e
  | .emit _ => ()
  | .gauge _ => ()
  | .counter _ => ()
  | .snapshot => s.lifecycle.snapshot

def Environment.coordinatorAnswer (env : Environment) (s : KernelInner Thread) :
    (o : CoordinatorOp) → CoordinatorSig.Ans o
  | .now => s.clock
  | .stdNow => s.clock
  | .markCompleted => s.coordinator.completed
  | .emit _ => ()
  | .signalToken => ()
  | .takeHooks => s.coordinator.hooks
  | .startHook _ => s.clock
  | .finishHook hook .. => ⟨env.hook hook, s.clock⟩
  | .registerHook _ => ()

def Environment.answer (env : Environment) (t : Thread) :
    (o : KernelOp) → KernelInner Thread → KernelSig.Ans o
  | .lifecycle o, s => lifecycleAnswer s o
  | .health o, s => healthAnswer t o s.health
  | .coordinator o, s => env.coordinatorAnswer s o
  | .lock _, _ => ()
  | .unlock _, _ => ()
  | .startCallback .., _ => ()
  | .finishCallback c subsystem, _ => env.outcome c subsystem
  | .insertBooted _, s => s.clock
  | .insertLoaded _, s => s.clock
  | .loadedKeys, s => s.book.loadedAt.keys
  | .readBook, s => s.book
  | .healthOf _, _ => some .healthy
  | .now, s => s.clock
  | .hasWorkers, s => !s.workers.isEmpty
  | .takeWorkers, s => s.workers
  | .signalRequested, s => s.signalHandlerRequested
  | .requestSignalHandler, _ => ()
  | .buildRuntime flavor, _ => env.runtime flavor
  | .supervise _, _ => env.supervisor
  | .signal, _ => ()
  | .isSignalled, s => s.signalled
  | .waitForSignal, _ => ()
  | .waitForSignalUntil _, s => s.signalled

/-- Play a schedule through on a kernel that was just built, and ask about its end. -/
def Environment.plays [DecidableEq Thread] (env : Environment) (b : KernelBuilder)
    (moves : List (Move Thread KernelCall)) (ask : KernelConfig Thread → Bool) : Bool :=
  b.build.toOption.any fun k =>
    (schedule (kernelMachine Thread) (kernelBody k) env.answer (KernelConfig.built Thread k 0)
      moves).any ask

theorem Environment.reachable_of_plays [DecidableEq Thread] {env : Environment} {b : KernelBuilder}
    {moves : List (Move Thread KernelCall)} {ask : KernelConfig Thread → Bool}
    (h : env.plays b moves ask = true) :
    ∃ k, b.build = .ok k ∧ ∃ c, Execution.Reachable (KernelStep Thread k)
      (KernelConfig.built Thread k 0) c ∧ ask c = true := by
  unfold plays at h
  cases hBuild : b.build with
  | error e => simp [hBuild, Except.toOption] at h
  | ok k =>
      simp only [hBuild, Except.toOption, Option.any_some, Option.any_eq_true] at h
      obtain ⟨c, hSchedule, hAsk⟩ := h
      exact ⟨k, rfl, c, schedule_reachable hSchedule, hAsk⟩

/-- The way out that a thread's call of `run` has taken. -/
def KernelConfig.ranExit (c : KernelConfig Thread) (t : Thread) : Option RunExit :=
  match c.threads t with
  | .running .run (.done (.ran exit)) => some exit
  | _ => none

theorem KernelConfig.ranExit_eq_some {c : KernelConfig Thread} {t : Thread} {exit : RunExit} :
    c.ranExit t = some exit ↔ c.threads t = .running .run (.done (.ran exit)) := by
  unfold ranExit
  split
  · rename_i hThread
    simp [hThread]
  · rename_i hOther
    simpa using hOther exit

end Environment

section Follows

/-- No operation is without a possible answer. -/
theorem kernelAns_nonempty (o : KernelOp) : Nonempty (KernelSig.Ans o) := by
  cases o with
  | lifecycle o => cases o with
    | checkAndSet => exact ⟨Except.ok (.created, 0)⟩
    | snapshot => exact ⟨(LifecycleInner.fresh 0).snapshot⟩
    | _ => exact ⟨()⟩
  | health o => cases o with
    | loadAggregate => exact ⟨HealthStatus.healthy⟩
    | update => exact ⟨(⟨false, none, .healthy⟩ : ReportOutcome)⟩
    | emit => exact ⟨()⟩
    | snapshot => exact ⟨HealthInner.new.snapshot⟩
    | subsystem => exact ⟨(none : Option HealthStatus)⟩
  | coordinator o => cases o with
    | now | stdNow => exact ⟨(0 : Nat)⟩
    | markCompleted => exact ⟨false⟩
    | takeHooks => exact ⟨([] : List ShutdownHook)⟩
    | startHook => exact ⟨(0 : Nat)⟩
    | finishHook => exact ⟨(⟨.ok, 0⟩ : HookEnd)⟩
    | _ => exact ⟨()⟩
  | finishCallback => exact ⟨CallbackOutcome.ok⟩
  | insertBooted | insertLoaded | now => exact ⟨(0 : Nat)⟩
  | loadedKeys => exact ⟨([] : List String)⟩
  | readBook => exact ⟨SubsystemBookkeeping.new []⟩
  | healthOf => exact ⟨(none : Option HealthStatus)⟩
  | hasWorkers | signalRequested | isSignalled | waitForSignalUntil => exact ⟨false⟩
  | takeWorkers => exact ⟨([] : List PendingWorker)⟩
  | buildRuntime => exact ⟨(Except.ok () : Except String Unit)⟩
  | supervise => exact ⟨SupervisorExit.cancelled⟩
  | _ => exact ⟨()⟩

/-- One kernel operation whose every answer leads to the same position. -/
theorem follows_op {P : Protocol KernelSig} {α : Type} {exit : α → P.Position → Prop}
    {o : KernelOp} {next : KernelSig.Ans o → Program KernelSig α} {p p' : P.Position}
    (hNext : ∀ a, P.next p o a = some p') (h : ∀ a, P.Follows exit (next a) p') :
    P.Follows exit (.perform o next) p :=
  have := kernelAns_nonempty o
  Protocol.Follows.step hNext h

end Follows

end ServiceKernel
