import ServiceKernel.Health.Status
import ServiceKernel.Semantics.Program

/-! The push-based health registry. A report reads the aggregate before it
takes the write lock, decides inside the lock what the aggregate becomes, and
emits its events after the lock is released; other threads may run between
any two of these steps. -/
namespace ServiceKernel

open Interleaving

/-- The `AtomicU8` cell that holds the aggregate. -/
structure AtomicHealthStatus where
  cell : UInt8
  deriving DecidableEq

namespace AtomicHealthStatus

def new (initial : HealthStatus) : AtomicHealthStatus := ⟨initial.toU8⟩

def load (a : AtomicHealthStatus) : HealthStatus := .fromU8 a.cell

def store (_ : AtomicHealthStatus) (status : HealthStatus) : AtomicHealthStatus := ⟨status.toU8⟩

@[simp] theorem load_new (s : HealthStatus) : (new s).load = s := HealthStatus.fromU8_toU8 s

@[simp] theorem load_store (a : AtomicHealthStatus) (s : HealthStatus) : (a.store s).load = s :=
  HealthStatus.fromU8_toU8 s

end AtomicHealthStatus

inductive HealthEvent where
  | subsystemChanged (subsystem : String) (fromStatus toStatus : HealthStatus)
  | aggregateChanged (fromStatus toStatus : HealthStatus)
  deriving DecidableEq, Repr

structure HealthSnapshot where
  aggregate : HealthStatus
  subsystems : HealthMap
  deriving DecidableEq

/-- The state shared by a registry and its handles. -/
structure HealthInner where
  subsystems : HealthMap
  aggregate : AtomicHealthStatus

/-- What a report learns under the lock: whether the subsystem's status
changed, its previous status, and the new aggregate. -/
structure ReportOutcome where
  subsystemChanged : Bool
  prevSubsystem : Option HealthStatus
  newAggregate : HealthStatus
  deriving DecidableEq

namespace HealthInner

def new : HealthInner := ⟨∅, .new .healthy⟩

def snapshot (h : HealthInner) : HealthSnapshot := ⟨h.aggregate.load, h.subsystems⟩

/-- The aggregate a report decides on, from the value it read before taking the
lock. Only a subsystem that held that value and improves makes it rescan. -/
def newAggregate (subsystems : HealthMap) (prevSubsystem : Option HealthStatus)
    (status prevAggregate : HealthStatus) : HealthStatus :=
  if status > prevAggregate then status
  else if prevSubsystem = some prevAggregate ∧ status < prevAggregate then subsystems.worst
  else prevAggregate

/-- The write-locked section of `report`. -/
def update (h : HealthInner) (subsystem : String) (status prevAggregate : HealthStatus) :
    HealthInner × ReportOutcome :=
  let prevSubsystem := h.subsystems.lookup subsystem
  let subsystems := h.subsystems.insert subsystem status
  let newAggregate := newAggregate subsystems prevSubsystem status prevAggregate
  let aggregate :=
    if newAggregate ≠ prevAggregate then h.aggregate.store newAggregate else h.aggregate
  (⟨subsystems, aggregate⟩, ⟨prevSubsystem ≠ some status, prevSubsystem, newAggregate⟩)

end HealthInner

/-- The steps other threads can observe between. -/
inductive HealthOp where
  | loadAggregate
  | update (subsystem : String) (status prevAggregate : HealthStatus)
  | emit (event : HealthEvent)
  | snapshot
  | subsystem (name : String)

abbrev HealthSig : Signature where
  Op := HealthOp
  Ans
    | .loadAggregate => HealthStatus
    | .update .. => ReportOutcome
    | .emit _ => Unit
    | .snapshot => HealthSnapshot
    | .subsystem _ => Option HealthStatus

abbrev HealthOp.call (o : HealthOp) : Program HealthSig (HealthSig.Ans o) :=
  Program.call (S := HealthSig) o

/-- The history of a registry: updates in lock order, snapshots and events as
they are delivered. -/
inductive HealthRecord where
  | loaded (aggregate : HealthStatus)
  | updated (subsystem : String) (status : HealthStatus)
  | emitted (event : HealthEvent)
  | snapshot (snapshot : HealthSnapshot)
  | read (name : String) (status : Option HealthStatus)
  deriving DecidableEq

def healthMachine (Thread : Type) : Machine HealthSig Thread HealthInner HealthRecord where
  exec _ o a h := match o, a with
    | .loadAggregate, a => if a = h.aggregate.load then some h else none
    | .update subsystem status prevAggregate, a =>
      let (h', outcome) := h.update subsystem status prevAggregate
      if a = outcome then some h' else none
    | .emit _, _ => some h
    | .snapshot, a => if a = h.snapshot then some h else none
    | .subsystem name, a => if a = h.subsystems.lookup name then some h else none
  event o a := match o, a with
    | .loadAggregate, a => .loaded a
    | .update subsystem status _, _ => .updated subsystem status
    | .emit event, _ => .emitted event
    | .snapshot, a => .snapshot a
    | .subsystem name, a => .read name a

/-- The answers the registry gives; nothing in them is left to the environment. -/
def healthAnswer {Thread : Type} (_ : Thread) : (o : HealthOp) → HealthInner → HealthSig.Ans o
  | .loadAggregate, h => h.aggregate.load
  | .update subsystem status prevAggregate, h => (h.update subsystem status prevAggregate).2
  | .emit _, _ => ()
  | .snapshot, h => h.snapshot
  | .subsystem name, h => h.subsystems.lookup name

/-- `HealthInner::report`; `events` tells whether the registry is wired to an
event handle. -/
def report (events : Bool) (subsystem : String) (status : HealthStatus) :
    Program HealthSig Unit := do
  let prevAggregate ← HealthOp.loadAggregate.call
  let outcome ← (HealthOp.update subsystem status prevAggregate).call
  if outcome.subsystemChanged && events then
    let fromStatus := outcome.prevSubsystem.getD .unknown
    (HealthOp.emit (.subsystemChanged subsystem fromStatus status)).call
    if outcome.newAggregate ≠ prevAggregate then
      (HealthOp.emit (.aggregateChanged prevAggregate outcome.newAggregate)).call

inductive HealthCall where
  | report (subsystem : String) (status : HealthStatus)
  | snapshot
  | aggregate
  | subsystem (name : String)

inductive HealthResult where
  | reported
  | snapshot (snapshot : HealthSnapshot)
  | aggregate (status : HealthStatus)
  | subsystem (status : Option HealthStatus)

/-- The public methods of a registry and its handles. -/
def healthBody (events : Bool) : HealthCall → Program HealthSig HealthResult
  | .report subsystem status => do report events subsystem status; return .reported
  | .snapshot => do return .snapshot (← HealthOp.snapshot.call)
  | .aggregate => do return .aggregate (← HealthOp.loadAggregate.call)
  | .subsystem name => do return .subsystem (← (HealthOp.subsystem name).call)

abbrev HealthConfig (Thread : Type) :=
  Config HealthSig Thread HealthInner HealthRecord HealthCall HealthResult

abbrev HealthStep (Thread : Type) [DecidableEq Thread] (events : Bool) :
    HealthConfig Thread → Label HealthSig Thread HealthCall → HealthConfig Thread → Prop :=
  Step (healthMachine Thread) (healthBody events)

/-- A registry nobody has reported to. -/
def HealthConfig.fresh (Thread : Type) : HealthConfig Thread :=
  Config.start ⟨HealthInner.new, []⟩

end ServiceKernel
