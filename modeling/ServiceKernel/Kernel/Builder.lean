import Mathlib.Logic.Function.Basic
import ServiceKernel.Worker.Spec

/-! The kernel builder: it adds the built-in subsystems to the consumer's, checks
names and dependencies, and sorts everything into boot order. -/
namespace ServiceKernel

/-- What the kernel knows of a subsystem. The callbacks themselves belong to
the environment; those of a built-in do nothing and return `Ok`. -/
structure Subsystem where
  name : String
  dependencies : List String
  builtin : Bool
  deriving DecidableEq, Repr

def lifecycleSubsystem : Subsystem := ⟨"lifecycle", [], true⟩
def eventSubsystem : Subsystem := ⟨"events", ["lifecycle"], true⟩
def errorSubsystem : Subsystem := ⟨"errors", ["events"], true⟩
def healthSubsystem : Subsystem := ⟨"health", ["events"], true⟩
def metricsSubsystem : Subsystem := ⟨"metrics", ["lifecycle"], true⟩
def workerSubsystem : Subsystem := ⟨"workers", ["metrics", "events", "errors"], true⟩
def shutdownSubsystem : Subsystem := ⟨"shutdown", ["lifecycle", "events"], true⟩

def builtinNames : List String :=
  ["lifecycle", "events", "errors", "health", "metrics", "workers", "shutdown"]

def boxedBuiltins : List Subsystem :=
  [lifecycleSubsystem, eventSubsystem, errorSubsystem, healthSubsystem, metricsSubsystem,
    workerSubsystem, shutdownSubsystem]

theorem boxedBuiltins_names : boxedBuiltins.map Subsystem.name = builtinNames := rfl

/-- A subsystem of the consumer, whose callbacks may end in any way. -/
def Subsystem.consumer (name : String) (dependencies : List String) : Subsystem :=
  ⟨name, dependencies, false⟩

inductive BuildError where
  | duplicateSubsystem (name : String)
  | missingDependency (subsystem dependency : String)
  | dependencyCycle (cycle : List String)
  | emptyName
  | reservedName (name : String)
  deriving DecidableEq, Repr

/-- A worker registered before the supervisor exists. -/
structure PendingWorker where
  spec : WorkerSpec
  runner : WorkerRunner
  deriving DecidableEq

/-- A consumer registers names with their dependencies. -/
structure KernelBuilder where
  name : String
  subsystems : List (String × List String)
  shutdownGrace : Duration
  workers : List PendingWorker

namespace KernelBuilder

def defaultShutdownGrace : Duration := .fromSecs 10

def new (name : String) : KernelBuilder := ⟨name, [], defaultShutdownGrace, []⟩

def withSubsystem (b : KernelBuilder) (name : String) (dependencies : List String) :
    KernelBuilder :=
  { b with subsystems := b.subsystems ++ [(name, dependencies)] }

def withWorker (b : KernelBuilder) (spec : WorkerSpec) (runner : WorkerRunner) : KernelBuilder :=
  { b with workers := b.workers ++ [⟨spec, runner⟩] }

def withShutdownGrace (b : KernelBuilder) (grace : Duration) : KernelBuilder :=
  { b with shutdownGrace := grace }

def consumers (b : KernelBuilder) : List Subsystem :=
  b.subsystems.map fun s => .consumer s.1 s.2

end KernelBuilder

/-- What `build` returns: the parts of a kernel that never change. -/
structure Kernel where
  name : String
  subsystems : List Subsystem
  shutdownGrace : Duration
  workers : List PendingWorker

section TopoSort

/-- The two maps of the sort. An absent key reads as zero, or as no dependents. -/
structure SortMaps where
  indegree : String → Nat
  dependents : String → List String

def SortMaps.empty : SortMaps := ⟨fun _ => 0, fun _ => []⟩

/-- One dependency of one subsystem. -/
def SortMaps.addEdge (m : SortMaps) (name dep : String) : SortMaps :=
  ⟨Function.update m.indegree name (m.indegree name + 1),
    Function.update m.dependents dep (m.dependents dep ++ [name])⟩

def SortMaps.ofSubsystems (subsystems : List Subsystem) : SortMaps :=
  subsystems.foldl (fun m s => s.dependencies.foldl (fun m dep => m.addEdge s.name dep) m) .empty

/-- The loop over the dependents of a node that was just sorted. -/
def releaseChildren (indegree : String → Nat) (queue : List String) :
    List String → (String → Nat) × List String
  | [] => (indegree, queue)
  | child :: children =>
    let entry := if indegree child > 0 then indegree child - 1 else indegree child
    let indegree := Function.update indegree child entry
    let queue := if entry = 0 then queue ++ [child] else queue
    releaseChildren indegree queue children

/-- The `while` loop over the queue. Every pass sorts one more node, so as many
passes as there are nodes empty the queue. -/
def sortLoop (dependents : String → List String) :
    Nat → (String → Nat) → List String → List String → (String → Nat) × List String × List String
  | _, indegree, [], sorted => (indegree, [], sorted)
  | 0, indegree, queue, sorted => (indegree, queue, sorted)
  | passes + 1, indegree, name :: queue, sorted =>
    let (indegree, queue) := releaseChildren indegree queue (dependents name)
    sortLoop dependents passes indegree queue (sorted ++ [name])

def topoSort (subsystems : List Subsystem) : Except BuildError (List String) :=
  let maps := SortMaps.ofSubsystems subsystems
  let queue := (subsystems.filter fun s => maps.indegree s.name = 0).map Subsystem.name
  let (indegree, _, sorted) := sortLoop maps.dependents subsystems.length maps.indegree queue []
  if sorted.length ≠ subsystems.length then
    .error (.dependencyCycle ((subsystems.filter fun s => indegree s.name > 0).map Subsystem.name))
  else
    .ok sorted

/-- The map by name that `reorder` takes the subsystems out of. -/
def indexByName (subsystems : List Subsystem) : String → Option Subsystem :=
  subsystems.foldr (fun s indexed => Function.update indexed s.name (some s)) fun _ => none

def takeInOrder : (String → Option Subsystem) → List String → List Subsystem
  | _, [] => []
  | indexed, name :: order =>
    match indexed name with
    | some s => s :: takeInOrder (Function.update indexed name none) order
    | none => takeInOrder indexed order

def reorder (subsystems : List Subsystem) (order : List String) : List Subsystem :=
  takeInOrder (indexByName subsystems) order

end TopoSort

/-- The first name that was seen before. -/
def firstDuplicate : List String → List String → Option String
  | _, [] => none
  | seen, name :: names =>
    if name ∈ seen then some name else firstDuplicate (name :: seen) names

/-- The first dependency that no subsystem supplies. -/
def firstMissing (names : List String) (subsystems : List Subsystem) :
    Option (String × String) :=
  subsystems.findSome? fun s =>
    (s.dependencies.find? fun dep => dep ∉ names).map fun dep => (s.name, dep)

def KernelBuilder.build (b : KernelBuilder) : Except BuildError Kernel :=
  if b.name = "" then .error .emptyName
  else match b.consumers.find? fun s => s.name ∈ builtinNames with
  | some s => .error (.reservedName s.name)
  | none =>
    let combined := boxedBuiltins ++ b.consumers
    match firstDuplicate [] (combined.map Subsystem.name) with
    | some name => .error (.duplicateSubsystem name)
    | none =>
      match firstMissing (combined.map Subsystem.name) combined with
      | some (subsystem, dependency) => .error (.missingDependency subsystem dependency)
      | none =>
        match topoSort combined with
        | .error e => .error e
        | .ok sorted => .ok ⟨b.name, reorder combined sorted, b.shutdownGrace, b.workers⟩

end ServiceKernel
