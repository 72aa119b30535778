import ServiceKernel.Lifecycle.Controller

/-! The shutdown coordinator: a one-shot sequence that signals its token and runs
the registered hooks, each within what is left of the grace period. A panic
inside the sequence leaves it at that point. -/
namespace ServiceKernel

open Interleaving

structure ShutdownHook where
  name : String
  deriving DecidableEq, Repr

structure HookError where
  hookName : String
  source : String
  deriving DecidableEq, Repr

/-- How awaiting a hook under its timeout ends. -/
inductive HookOutcome where
  | ok
  | err (error : HookError)
  | timedOut
  | panicked
  deriving DecidableEq, Repr

/-- The end of awaiting a hook, and when it came. -/
structure HookEnd where
  outcome : HookOutcome
  instant : Instant
  deriving DecidableEq, Repr

/-- Why a hook is listed as failed. -/
inductive HookFailure where
  | deadlineExpired
  | failed (error : HookError)
  | timedOut (remaining : Nat)
  deriving DecidableEq, Repr

structure ShutdownReport where
  startedAt : Instant
  completedAt : Instant
  workersDrained : Nat
  workersAborted : Nat
  hooksSucceeded : List String
  hooksFailed : List (String × HookFailure)
  subsystemsShutdown : List String
  subsystemsFailed : List (String × String)
  deriving DecidableEq, Repr

namespace ShutdownReport

/-- A report with the worker and subsystem fields left empty. -/
def partialReport (startedAt completedAt : Instant) (succeeded : List String)
    (failed : List (String × HookFailure)) : ShutdownReport :=
  ⟨startedAt, completedAt, 0, 0, succeeded, failed, [], []⟩

def duration (r : ShutdownReport) : Nat := r.completedAt.durationSince r.startedAt

end ShutdownReport

/-- The state of the coordinator. The grace period never changes. -/
structure CoordinatorInner where
  token : Bool
  hooks : List ShutdownHook
  completed : Bool
  deriving DecidableEq, Repr

def CoordinatorInner.new : CoordinatorInner := ⟨false, [], false⟩

/-- `now` reads `primitives::Instant`, `stdNow` the standard library's. -/
inductive CoordinatorOp where
  | now
  | stdNow
  | markCompleted
  | emit (event : LifecycleEvent)
  | signalToken
  | takeHooks
  | startHook (hook : ShutdownHook)
  | finishHook (hook : ShutdownHook) (startedAt : Instant) (remaining : Nat)
  | registerHook (hook : ShutdownHook)

abbrev CoordinatorSig : Signature where
  Op := CoordinatorOp
  Ans
    | .now => Instant
    | .stdNow => Instant
    | .markCompleted => Bool
    | .emit _ => Unit
    | .signalToken => Unit
    | .takeHooks => List ShutdownHook
    | .startHook _ => Instant
    | .finishHook .. => HookEnd
    | .registerHook _ => Unit

abbrev CoordinatorOp.call (o : CoordinatorOp) : Program CoordinatorSig (CoordinatorSig.Ans o) :=
  Program.call (S := CoordinatorSig) o

inductive CoordinatorRecord where
  | read (now : Instant)
  | stdRead (now : Instant)
  | completed (wasDone : Bool)
  | emitted (event : LifecycleEvent)
  | tokenSignalled
  | hooksTaken (hooks : List ShutdownHook)
  | hookStarted (hook : ShutdownHook) (instant : Instant)
  | hookFinished (hook : ShutdownHook) (startedAt : Instant) (ended : HookEnd)
  | hookRegistered (hook : ShutdownHook)
  deriving DecidableEq, Repr

/-- The coordinator's steps. A hook is awaited under `tokio::time::timeout`, which ends
it no later than its limit. -/
def coordinatorMachine (Thread : Type) :
    Machine CoordinatorSig Thread (Clocked CoordinatorInner) CoordinatorRecord where
  exec _ o a c := match o, a with
    | .now, now => c.reads now
    | .stdNow, now => c.reads now
    | .markCompleted, wasDone =>
      if wasDone = c.state.completed then some { c with state.completed := true } else none
    | .emit _, _ => some c
    | .signalToken, _ => some { c with state.token := true }
    | .takeHooks, hooks =>
      if hooks = c.state.hooks then some { c with state.hooks := [] } else none
    | .startHook _, startedAt => c.reads startedAt
    | .finishHook _ startedAt remaining, ended =>
      if ended.instant ≤ startedAt + remaining then c.reads ended.instant else none
    | .registerHook hook, _ => some { c with state.hooks := c.state.hooks ++ [hook] }
  event o a := match o, a with
    | .now, now => .read now
    | .stdNow, now => .stdRead now
    | .markCompleted, wasDone => .completed wasDone
    | .emit event, _ => .emitted event
    | .signalToken, _ => .tokenSignalled
    | .takeHooks, hooks => .hooksTaken hooks
    | .startHook hook, startedAt => .hookStarted hook startedAt
    | .finishHook hook startedAt _, ended => .hookFinished hook startedAt ended
    | .registerHook hook, _ => .hookRegistered hook

section Effect

variable {Thread : Type} {t : Thread} {o : CoordinatorOp} {a : CoordinatorSig.Ans o}
  {c c' : Clocked CoordinatorInner}

/-- An operation that changes nothing of the coordinator. -/
def CoordinatorOp.still : CoordinatorOp → Bool
  | .now | .stdNow | .emit _ | .startHook _ | .finishHook .. => true
  | _ => false

/-- What an operation does to the coordinator. -/
inductive CoordinatorEffect (c : Clocked CoordinatorInner) :
    CoordinatorOp → Clocked CoordinatorInner → Prop where
  | still {o : CoordinatorOp} {now : Instant} (hStill : o.still = true) (hClock : c.clock ≤ now) :
      CoordinatorEffect c o ⟨c.state, now⟩
  | completed : CoordinatorEffect c .markCompleted { c with state.completed := true }
  | signalled : CoordinatorEffect c .signalToken { c with state.token := true }
  | taken : CoordinatorEffect c .takeHooks { c with state.hooks := [] }
  | registered {hook : ShutdownHook} : CoordinatorEffect c (.registerHook hook)
      { c with state.hooks := c.state.hooks ++ [hook] }

theorem coordinatorExec_effect (h : (coordinatorMachine Thread).exec t o a c = some c') :
    CoordinatorEffect c o c' := by
  cases o with
  | now | stdNow | startHook =>
      simp only [coordinatorMachine, Clocked.reads, Option.ite_none_right_eq_some,
        Option.some.injEq] at h
      exact h.2 ▸ .still rfl h.1
  | finishHook =>
      simp only [coordinatorMachine, Clocked.reads, Option.ite_none_right_eq_some,
        Option.some.injEq] at h
      exact h.2.2 ▸ .still rfl h.2.1
  | markCompleted =>
      simp only [coordinatorMachine, Option.ite_none_right_eq_some, Option.some.injEq] at h
      exact h.2 ▸ .completed
  | takeHooks =>
      simp only [coordinatorMachine, Option.ite_none_right_eq_some, Option.some.injEq] at h
      exact h.2 ▸ .taken
  | emit => exact Option.some.inj h ▸ .still rfl (Nat.le_refl _)
  | signalToken => exact Option.some.inj h ▸ .signalled
  | registerHook => exact Option.some.inj h ▸ .registered

end Effect

/-- The hook loop of `shutdown`; `none` when a hook panics. -/
def runHooks (deadline : Instant) : List ShutdownHook → List String →
    List (String × HookFailure) →
    Program CoordinatorSig (Option (List String × List (String × HookFailure)))
  | [], succeeded, failed => return some (succeeded, failed)
  | hook :: hooks, succeeded, failed => do
    let now ← CoordinatorOp.stdNow.call
    let remaining := deadline - now
    if remaining = 0 then
      runHooks deadline hooks succeeded (failed ++ [(hook.name, .deadlineExpired)])
    else
      let startedAt ← (CoordinatorOp.startHook hook).call
      let ended ← (CoordinatorOp.finishHook hook startedAt remaining).call
      match ended.outcome with
      | .ok => runHooks deadline hooks (succeeded ++ [hook.name]) failed
      | .err error => runHooks deadline hooks succeeded (failed ++ [(hook.name, .failed error)])
      | .timedOut => runHooks deadline hooks succeeded (failed ++ [(hook.name, .timedOut remaining)])
      | .panicked => return none

/-- The sequence between the two lifecycle events of `shutdown`. -/
def shutdownSequence (startedAt deadline : Instant) :
    Program CoordinatorSig (Option ShutdownReport) := do
  (CoordinatorOp.emit (.shutdownStarted startedAt)).call
  CoordinatorOp.signalToken.call
  let hooks ← CoordinatorOp.takeHooks.call
  match ← runHooks deadline hooks [] [] with
  | none => return none
  | some (succeeded, failed) =>
    let completedAt ← CoordinatorOp.now.call
    let report := ShutdownReport.partialReport startedAt completedAt succeeded failed
    (CoordinatorOp.emit (.shutdownCompleted report.duration report.workersDrained
      report.workersAborted completedAt)).call
    return some report

/-- `ShutdownCoordinator::shutdown`; `none` when it unwinds. The deadline is
computed with a panicking addition, after the sequence was marked completed. -/
def coordinatorShutdown (grace : Duration) : Program CoordinatorSig (Option ShutdownReport) := do
  let startedAt ← CoordinatorOp.now.call
  let alreadyDone ← CoordinatorOp.markCompleted.call
  if alreadyDone then
    let completedAt ← CoordinatorOp.now.call
    return some (.partialReport startedAt completedAt [] [])
  else
    let stdStarted ← CoordinatorOp.stdNow.call
    match stdStarted.checkedAdd grace with
    | none => return none
    | some deadline => shutdownSequence startedAt deadline

end ServiceKernel
