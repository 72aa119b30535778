import Mathlib.Data.List.AList
import ServiceKernel.Health.Registry
import ServiceKernel.Kernel.Builder
import ServiceKernel.Shutdown.Coordinator

/-! What the clones of a kernel share and the steps its methods take on it. Each
acquisition and release of the two mutexes is a step of its own, as are the
start and the end of every subsystem callback. A callback acts on the kernel
only through handles, which any other thread could use at that moment. -/
namespace ServiceKernel

open Interleaving

inductive KernelErrorCode where
  | lifecycleIllegalTransition
  | subsystemBootFailed
  | subsystemDependencyMissing
  | workerSpawnFailed
  | configInvalid
  | shutdownTimeout
  | internal
  deriving DecidableEq, Repr

/-- A consumer's error source is kept as its text. -/
inductive KernelError where
  | lifecycle (code : KernelErrorCode) (source : TransitionError)
  | subsystem (code : KernelErrorCode) (name source : String)
  | worker (code : KernelErrorCode) (workerId : WorkerId) (source : String)
  | config (code : KernelErrorCode) (source : String)
  | shutdown (code : KernelErrorCode) (source : String)
  | internal (code : KernelErrorCode) (message : String)
  deriving DecidableEq, Repr

/-- The three lifecycle methods of a subsystem. -/
inductive Callback where
  | boot
  | load
  | shutdown
  deriving DecidableEq, Repr

/-- How a callback under `catch_unwind` ends; a panic carries its text if it has one. -/
inductive CallbackOutcome where
  | ok
  | err (error : KernelError)
  | panicked (payload : Option String)
  deriving DecidableEq, Repr

def panicMessage : Option String → String
  | some msg => "subsystem panicked: " ++ msg
  | none => "subsystem panicked: <unknown panic>"

/-- The error a callback leaves behind, if it fails. -/
def CallbackOutcome.error (name : String) : CallbackOutcome → Option KernelError
  | .ok => none
  | .err error => some error
  | .panicked payload => some (.subsystem .subsystemBootFailed name (panicMessage payload))

/-- The two mutexes that kernel methods hold across other work. -/
inductive KernelMutex where
  | bookkeeping
  | subsystems
  deriving DecidableEq, Repr

inductive RuntimeFlavor where
  | currentThread
  | multiThread
  deriving DecidableEq, Repr

/-- Why `Supervisor::run` returned: the signal cancelled it, or it had signalled the kernel
itself, for a critical worker that it gave up. Nothing else makes it return. -/
inductive SupervisorExit where
  | cancelled
  | critical
  deriving DecidableEq, Repr

structure SubsystemBookkeeping where
  id : AList fun _ : String => UInt64
  bootedAt : AList fun _ : String => Instant
  loadedAt : AList fun _ : String => Instant
  deriving DecidableEq

/-- What the clones of a kernel share. -/
structure KernelInner (Thread : Type) where
  lifecycle : LifecycleInner
  health : HealthInner
  coordinator : CoordinatorInner
  clock : Instant
  signalled : Bool
  workers : List PendingWorker
  signalHandlerRequested : Bool
  book : SubsystemBookkeeping
  holder : KernelMutex → Option Thread

namespace SubsystemBookkeeping

/-- `from_inner` numbers the subsystems in boot order. -/
def new (subsystems : List Subsystem) : SubsystemBookkeeping where
  id := (subsystems.foldl (fun (ids, next) s => (ids.insert s.name next, next + 1))
    ((∅ : AList fun _ : String => UInt64), (0 : UInt64))).1
  bootedAt := ∅
  loadedAt := ∅

end SubsystemBookkeeping

inductive KernelOp where
  | lifecycle (o : LifecycleOp)
  | health (o : HealthOp)
  | coordinator (o : CoordinatorOp)
  | lock (m : KernelMutex)
  | unlock (m : KernelMutex)
  | startCallback (c : Callback) (s : Subsystem)
  | finishCallback (c : Callback) (s : Subsystem)
  | insertBooted (name : String)
  | insertLoaded (name : String)
  | loadedKeys
  | readBook
  | healthOf (s : Subsystem)
  | now
  | hasWorkers
  | takeWorkers
  | signalRequested
  | requestSignalHandler
  | buildRuntime (flavor : RuntimeFlavor)
  | supervise (workers : List PendingWorker)
  | signal
  | isSignalled
  | waitForSignal
  | waitForSignalUntil (deadline : Instant)

abbrev KernelSig : Signature where
  Op := KernelOp
  Ans
    | .lifecycle o => LifecycleSig.Ans o
    | .health o => HealthSig.Ans o
    | .coordinator o => CoordinatorSig.Ans o
    | .lock _ => Unit
    | .unlock _ => Unit
    | .startCallback .. => Unit
    | .finishCallback .. => CallbackOutcome
    | .insertBooted _ => Instant
    | .insertLoaded _ => Instant
    | .loadedKeys => List String
    | .readBook => SubsystemBookkeeping
    | .healthOf _ => Option HealthStatus
    | .now => Instant
    | .hasWorkers => Bool
    | .takeWorkers => List PendingWorker
    | .signalRequested => Bool
    | .requestSignalHandler => Unit
    | .buildRuntime _ => Except String Unit
    | .supervise _ => SupervisorExit
    | .signal => Unit
    | .isSignalled => Bool
    | .waitForSignal => Unit
    | .waitForSignalUntil _ => Bool

abbrev KernelOp.call (o : KernelOp) : Program KernelSig (KernelSig.Ans o) :=
  Program.call (S := KernelSig) o

/-- The history of a kernel. Reads leave no trace of their own. -/
inductive KernelRecord where
  | lifecycle (r : LifecycleRecord)
  | health (r : HealthRecord)
  | coordinator (r : CoordinatorRecord)
  | locked (m : KernelMutex)
  | unlocked (m : KernelMutex)
  | started (c : Callback) (name : String)
  | finished (c : Callback) (name : String) (outcome : CallbackOutcome)
  | booted (name : String) (instant : Instant)
  | loaded (name : String) (instant : Instant)
  | runtimeBuilt (flavor : RuntimeFlavor) (result : Except String Unit)
  | supervised (exit : SupervisorExit)
  | signalled
  | observed
  deriving DecidableEq

section Machine

variable {Thread : Type}

namespace KernelInner

def new (k : Kernel) (clock : Instant) : KernelInner Thread where
  lifecycle := .fresh clock
  health := .new
  coordinator := .new
  clock := clock
  signalled := false
  workers := k.workers
  signalHandlerRequested := false
  book := .new k.subsystems
  holder := fun _ => none

def locks (inner : KernelInner Thread) (m : KernelMutex) (t : Thread) : KernelInner Thread :=
  { inner with holder := Function.update inner.holder m (some t) }

def unlocks (inner : KernelInner Thread) (m : KernelMutex) : KernelInner Thread :=
  { inner with holder := Function.update inner.holder m none }

/-- Run a step of a component that also reads the clock. -/
def withLifecycle (inner : KernelInner Thread)
    (next : Clocked LifecycleInner → Option (Clocked LifecycleInner)) :
    Option (KernelInner Thread) :=
  (next ⟨inner.lifecycle, inner.clock⟩).map fun c =>
    { inner with lifecycle := c.state, clock := c.clock }

def withCoordinator (inner : KernelInner Thread)
    (next : Clocked CoordinatorInner → Option (Clocked CoordinatorInner)) :
    Option (KernelInner Thread) :=
  (next ⟨inner.coordinator, inner.clock⟩).map fun c =>
    { inner with coordinator := c.state, clock := c.clock }

def withHealth (inner : KernelInner Thread) (next : HealthInner → Option HealthInner) :
    Option (KernelInner Thread) :=
  (next inner.health).map fun h => { inner with health := h }

end KernelInner

/-- What an operation does to the shared state, and which answers it can give. A supervisor
with a critical worker may signal here at any time: which worker it gives up, and when, is
for the supervisor's own steps to say. -/
def kernelExec (t : Thread) : (o : KernelOp) → KernelSig.Ans o → KernelInner Thread →
    Option (KernelInner Thread)
  | .lifecycle o, a, s => s.withLifecycle ((lifecycleMachine Thread).exec t o a)
  | .health o, a, s => s.withHealth ((healthMachine Thread).exec t o a)
  | .coordinator o, a, s => s.withCoordinator ((coordinatorMachine Thread).exec t o a)
  | .lock m, _, s => match s.holder m with
    | none => some (s.locks m t)
    | some _ => none
  | .unlock m, _, s => some (s.unlocks m)
  | .startCallback .., _, s => some s
  | .finishCallback _ subsystem, outcome, s =>
    if subsystem.builtin ∧ outcome ≠ .ok then none else some s
  | .insertBooted name, now, s =>
    if s.clock ≤ now then
      some { s with clock := now, book.bootedAt := s.book.bootedAt.insert name now }
    else none
  | .insertLoaded name, now, s =>
    if s.clock ≤ now then
      some { s with clock := now, book.loadedAt := s.book.loadedAt.insert name now }
    else none
  | .loadedKeys, keys, s => if keys = s.book.loadedAt.keys then some s else none
  | .readBook, book, s => if book = s.book then some s else none
  | .healthOf subsystem, health, s =>
    if subsystem.builtin ∧ health ≠ some .healthy then none else some s
  | .now, now, s => if s.clock ≤ now then some { s with clock := now } else none
  | .hasWorkers, answer, s => if answer = !s.workers.isEmpty then some s else none
  | .takeWorkers, workers, s =>
    if workers = s.workers then some { s with workers := [] } else none
  | .signalRequested, answer, s => if answer = s.signalHandlerRequested then some s else none
  | .requestSignalHandler, _, s => some { s with signalHandlerRequested := true }
  | .buildRuntime _, _, s => some s
  | .supervise _, .cancelled, s => if s.signalled then some s else none
  | .supervise workers, .critical, s =>
    if ∃ w ∈ workers, w.spec.criticality = .critical then some { s with signalled := true }
    else none
  | .signal, _, s => some { s with signalled := true }
  | .isSignalled, answer, s => if answer = s.signalled then some s else none
  | .waitForSignal, _, s => if s.signalled then some s else none
  | .waitForSignalUntil deadline, arrived, s =>
    if arrived = s.signalled then
      some { s with clock := if arrived then s.clock else max s.clock deadline }
    else none

def kernelRecord : (o : KernelOp) → KernelSig.Ans o → KernelRecord
  | .lifecycle o, a => .lifecycle ((lifecycleMachine Unit).event o a)
  | .health o, a => .health ((healthMachine Unit).event o a)
  | .coordinator o, a => .coordinator ((coordinatorMachine Unit).event o a)
  | .lock m, _ => .locked m
  | .unlock m, _ => .unlocked m
  | .startCallback c s, _ => .started c s.name
  | .finishCallback c s, outcome => .finished c s.name outcome
  | .insertBooted name, now => .booted name now
  | .insertLoaded name, now => .loaded name now
  | .buildRuntime flavor, result => .runtimeBuilt flavor result
  | .supervise _, exit => .supervised exit
  | .signal, _ => .signalled
  | _, _ => .observed

-- The equations are made here once, ahead of the proofs that all unfold this definition.
section
attribute [local simp] kernelRecord
end

def kernelMachine (Thread : Type) : Machine KernelSig Thread (KernelInner Thread) KernelRecord where
  exec := kernelExec
  event := kernelRecord

section Frame

variable {t : Thread} {o : KernelOp} {a : KernelSig.Ans o} {s s' : KernelInner Thread}

theorem KernelInner.withLifecycle_some
    {next : Clocked LifecycleInner → Option (Clocked LifecycleInner)} :
    s.withLifecycle next = some s' ↔ ∃ c, next ⟨s.lifecycle, s.clock⟩ = some c ∧
      { s with lifecycle := c.state, clock := c.clock } = s' := by
  simp [KernelInner.withLifecycle]

theorem KernelInner.withCoordinator_some
    {next : Clocked CoordinatorInner → Option (Clocked CoordinatorInner)} :
    s.withCoordinator next = some s' ↔ ∃ c, next ⟨s.coordinator, s.clock⟩ = some c ∧
      { s with coordinator := c.state, clock := c.clock } = s' := by
  simp [KernelInner.withCoordinator]

theorem KernelInner.withHealth_some {next : HealthInner → Option HealthInner} :
    s.withHealth next = some s' ↔ ∃ h, next s.health = some h ∧ { s with health := h } = s' := by
  simp [KernelInner.withHealth]

/-- An operation that only reads the shared state, if it is answered so. -/
def KernelOp.still : (o : KernelOp) → KernelSig.Ans o → Bool
  | .startCallback .., _ => true
  | .finishCallback .., _ => true
  | .loadedKeys, _ => true
  | .readBook, _ => true
  | .healthOf _, _ => true
  | .hasWorkers, _ => true
  | .signalRequested, _ => true
  | .buildRuntime _, _ => true
  | .supervise _, exit => exit ≠ .critical
  | .isSignalled, _ => true
  | .waitForSignal, _ => true
  | _, _ => false

/-- What an operation does to the shared state once it is answered. -/
inductive KernelEffect (t : Thread) (s : KernelInner Thread) :
    (o : KernelOp) → KernelSig.Ans o → KernelInner Thread → Prop where
  | lifecycle {o : LifecycleOp} {a : LifecycleSig.Ans o} {l}
      (h : (lifecycleMachine Thread).exec t o a ⟨s.lifecycle, s.clock⟩ = some l) :
      KernelEffect t s (.lifecycle o) a { s with lifecycle := l.state, clock := l.clock }
  | health {o : HealthOp} {a : HealthSig.Ans o} {inner}
      (h : (healthMachine Thread).exec t o a s.health = some inner) :
      KernelEffect t s (.health o) a { s with health := inner }
  | coordinator {o : CoordinatorOp} {a : CoordinatorSig.Ans o} {c}
      (h : (coordinatorMachine Thread).exec t o a ⟨s.coordinator, s.clock⟩ = some c) :
      KernelEffect t s (.coordinator o) a { s with coordinator := c.state, clock := c.clock }
  | lock {m : KernelMutex} (hFree : s.holder m = none) : KernelEffect t s (.lock m) () (s.locks m t)
  | unlock {m : KernelMutex} : KernelEffect t s (.unlock m) () (s.unlocks m)
  | insertBooted {name : String} {now : Instant} (hClock : s.clock ≤ now) :
      KernelEffect t s (.insertBooted name) now
        { s with clock := now, book.bootedAt := s.book.bootedAt.insert name now }
  | insertLoaded {name : String} {now : Instant} (hClock : s.clock ≤ now) :
      KernelEffect t s (.insertLoaded name) now
        { s with clock := now, book.loadedAt := s.book.loadedAt.insert name now }
  | now {now : Instant} (hClock : s.clock ≤ now) : KernelEffect t s .now now { s with clock := now }
  | takeWorkers : KernelEffect t s .takeWorkers s.workers { s with workers := [] }
  | requestSignalHandler :
      KernelEffect t s .requestSignalHandler () { s with signalHandlerRequested := true }
  | critical {workers : List PendingWorker} :
      KernelEffect t s (.supervise workers) SupervisorExit.critical { s with signalled := true }
  | signal : KernelEffect t s .signal () { s with signalled := true }
  | waited {deadline : Instant} {arrived : Bool} : KernelEffect t s (.waitForSignalUntil deadline)
      arrived { s with clock := if arrived then s.clock else max s.clock deadline }
  | still {o : KernelOp} {a : KernelSig.Ans o} (hStill : o.still a = true) : KernelEffect t s o a s

theorem kernelExec_effect (h : kernelExec t o a s = some s') : KernelEffect t s o a s' := by
  cases o with
  | lifecycle o =>
      obtain ⟨l, hExec, rfl⟩ := KernelInner.withLifecycle_some.mp h
      exact .lifecycle hExec
  | health o =>
      obtain ⟨inner, hExec, rfl⟩ := KernelInner.withHealth_some.mp h
      exact .health hExec
  | coordinator o =>
      obtain ⟨c, hExec, rfl⟩ := KernelInner.withCoordinator_some.mp h
      exact .coordinator hExec
  | lock m =>
      cases hHolder : s.holder m with
      | none =>
          simp only [kernelExec, hHolder, Option.some.injEq] at h
          exact h ▸ .lock hHolder
      | some u => simp [kernelExec, hHolder] at h
  | unlock m => exact Option.some.inj h ▸ .unlock
  | requestSignalHandler => exact Option.some.inj h ▸ .requestSignalHandler
  | signal => exact Option.some.inj h ▸ .signal
  | startCallback | buildRuntime => exact Option.some.inj h ▸ .still rfl
  | finishCallback | healthOf =>
      simp only [kernelExec, Option.ite_none_left_eq_some, Option.some.injEq] at h
      exact h.2 ▸ .still rfl
  | supervise workers =>
      cases a <;> simp only [kernelExec, Option.ite_none_right_eq_some, Option.some.injEq] at h
      · exact h.2 ▸ .still rfl
      · exact h.2 ▸ .critical
  | insertBooted | insertLoaded | now | takeWorkers | waitForSignalUntil | loadedKeys | readBook
  | hasWorkers | signalRequested | isSignalled | waitForSignal =>
      simp only [kernelExec, Option.ite_none_right_eq_some, Option.some.injEq] at h
      obtain ⟨hAnswer, rfl⟩ := h
      first
        | exact .insertBooted hAnswer
        | exact .insertLoaded hAnswer
        | exact .now hAnswer
        | exact hAnswer ▸ .takeWorkers
        | exact .waited
        | exact .still rfl

/-- Only `lock` and `unlock` change who holds a mutex. -/
theorem kernelExec_holder (h : kernelExec t o a s = some s') (hLock : ∀ m, o ≠ .lock m)
    (hUnlock : ∀ m, o ≠ .unlock m) : s'.holder = s.holder := by
  cases kernelExec_effect h with
  | lock hFree => exact absurd rfl (hLock _)
  | unlock => exact absurd rfl (hUnlock _)
  | _ => rfl

end Frame

end Machine

end ServiceKernel
