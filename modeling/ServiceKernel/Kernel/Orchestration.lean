import ServiceKernel.Kernel.Core

/-! The orchestration of one kernel: what the thread that took it out of `Created`
is in the middle of, and how each operation moves it on. Every other thread
stays outside. -/
namespace ServiceKernel

open Interleaving

/-- The exec phase, up to the point where the kernel may stop. -/
inductive ExecStage where
  | entered
  | workersSeen (hasWorkers : Bool)
  /-- Without workers and signal handler: waiting for the signal. -/
  | waiting
  /-- With either: a multi-threaded runtime has to be built. -/
  | needsRuntime
  | noRuntime
  | onRuntime
  /-- The coordinator was marked completed and computes its deadline. -/
  | claimed
  /-- The deadline is not representable. -/
  | overflowed
  | sequencing
  | released
  deriving DecidableEq

/-- A stage of the kernel's life. The numbers count subsystems in boot order;
`up` are those that a shutdown loop has not come to yet. -/
inductive Stage where
  | created
  | forward (c : Callback) (done : Nat)
  | calling (c : Callback) (done : Nat)
  | recording (c : Callback) (done : Nat)
  | broken (c : Callback) (done : Nat)
  | closing (rollback : Bool) (loaded up : Nat)
  | callingShutdown (rollback : Bool) (loaded up : Nat)
  | exec (e : ExecStage)
  | stopped
  | failed (c : Callback) (done : Nat)
  deriving DecidableEq

/-- The state in which the forward loop of a callback runs. -/
def Callback.state : Callback → KernelState
  | .boot => .booting
  | .load => .loading
  | .shutdown => .stopping

namespace Stage

def state : Stage → KernelState
  | created => .created
  | forward c _ => c.state
  | calling c _ => c.state
  | recording c _ => c.state
  | broken c _ => c.state
  | closing rollback _ _ => if rollback then .loading else .stopping
  | callingShutdown rollback _ _ => if rollback then .loading else .stopping
  | exec _ => .running
  | stopped => .stopped
  | failed _ _ => .failed

/-- A granted move of the lifecycle, by the thread in charge. -/
def moves (k : Kernel) : Stage → KernelState → Option Stage
  | forward .boot done, .loading => if done = k.subsystems.length then some (forward .load 0) else none
  | forward .load done, .running => if done = k.subsystems.length then some (exec .entered) else none
  | broken .boot done, .failed => some (failed .boot done)
  | closing true loaded 0, .failed => some (failed .load loaded)
  | exec .released, .stopping => some (closing false k.subsystems.length k.subsystems.length)
  | closing false _ 0, .stopped => some stopped
  | _, _ => none

def starts (k : Kernel) (stage : Stage) (c : Callback) (s : Subsystem) : Option Stage :=
  match stage, c with
  | forward .boot done, .boot =>
    if k.subsystems[done]? = some s then some (calling .boot done) else none
  | forward .load done, .load =>
    if k.subsystems[done]? = some s then some (calling .load done) else none
  | closing rollback loaded (up + 1), .shutdown =>
    if k.subsystems[up]? = some s then some (callingShutdown rollback loaded up) else none
  | _, _ => none

def finishes (k : Kernel) (stage : Stage) (c : Callback) (s : Subsystem)
    (outcome : CallbackOutcome) : Option Stage :=
  match stage, c with
  | calling .boot done, .boot =>
    if k.subsystems[done]? = some s then
      some (if outcome = .ok then recording .boot done else broken .boot done)
    else none
  | calling .load done, .load =>
    if k.subsystems[done]? = some s then
      some (if outcome = .ok then recording .load done else broken .load done)
    else none
  | callingShutdown rollback loaded up, .shutdown =>
    if k.subsystems[up]? = some s then some (closing rollback loaded up) else none
  | _, _ => none

def records (k : Kernel) (stage : Stage) (c : Callback) (name : String) : Option Stage :=
  match stage, c with
  | recording .boot done, .boot =>
    if (k.subsystems.map Subsystem.name)[done]? = some name then some (forward .boot (done + 1))
    else none
  | recording .load done, .load =>
    if (k.subsystems.map Subsystem.name)[done]? = some name then some (forward .load (done + 1))
    else none
  | _, _ => none

/-- A rollback reads the names recorded as loaded: those before the failure. -/
def reads (k : Kernel) : Stage → List String → Option Stage
  | broken .load done, keys =>
    if ∀ name ∈ k.subsystems.map Subsystem.name,
        name ∈ keys ↔ name ∈ (k.subsystems.map Subsystem.name).take done then
      some (closing true done done)
    else none
  | _, _ => none

def seesWorkers : Stage → Bool → Option Stage
  | exec .entered, hasWorkers => some (exec (.workersSeen hasWorkers))
  | _, _ => none

def seesSignal : Stage → Bool → Option Stage
  | exec (.workersSeen hasWorkers), requested =>
    some (exec (if !hasWorkers && !requested then .waiting else .needsRuntime))
  | exec .onRuntime, _ => some (exec .onRuntime)
  | _, _ => none

def builds : Stage → RuntimeFlavor → Except String Unit → Option Stage
  | exec .waiting, .currentThread, .ok _ => some (exec .onRuntime)
  | exec .waiting, .currentThread, .error _ => some (exec .released)
  | exec .needsRuntime, .multiThread, .ok _ => some (exec .onRuntime)
  | exec .needsRuntime, .multiThread, .error _ => some (exec .noRuntime)
  | _, _, _ => none

/-- What the supervisor does on the runtime. -/
def supervises : Stage → Option Stage
  | exec .onRuntime => some (exec .onRuntime)
  | _ => none

def coordinates (k : Kernel) (stage : Stage) : (o : CoordinatorOp) → CoordinatorSig.Ans o →
    Option Stage
  | .now, _ => match stage with
    | exec .onRuntime => some stage
    | exec .sequencing => some stage
    | _ => none
  | .stdNow, now => match stage with
    | exec .claimed =>
      some (exec (if (Instant.checkedAdd now k.shutdownGrace).isSome then .sequencing else .overflowed))
    | exec .sequencing => some stage
    | _ => none
  | .markCompleted, wasDone => match stage, wasDone with
    | exec .onRuntime, false => some (exec .claimed)
    | _, _ => none
  | .emit (.shutdownCompleted ..), _ => if stage = exec .sequencing then some (exec .released) else none
  | .emit _, _ => if stage = exec .sequencing then some stage else none
  | .takeHooks, _ => if stage = exec .sequencing then some stage else none
  | .startHook _, _ => if stage = exec .sequencing then some stage else none
  | .finishHook .., _ => if stage = exec .sequencing then some stage else none
  | .signalToken, _ => some stage
  | .registerHook _, _ => some stage

-- The equations are made here once, ahead of the proofs that all unfold these definitions.
section
attribute [local simp] moves starts finishes records reads seesWorkers seesSignal builds
end

section Cases

variable {k : Kernel} {stage stage' : Stage} {c : Callback} {s : Subsystem}

/-- The granted moves of the lifecycle, one by one. -/
inductive Moves (k : Kernel) : Stage → KernelState → Stage → Prop
  | booted : Moves k (.forward .boot k.subsystems.length) .loading (.forward .load 0)
  | loaded : Moves k (.forward .load k.subsystems.length) .running (.exec .entered)
  | bootFailed {done : Nat} : Moves k (.broken .boot done) .failed (.failed .boot done)
  | loadFailed {loaded : Nat} : Moves k (.closing true loaded 0) .failed (.failed .load loaded)
  | stopping : Moves k (.exec .released) .stopping
      (.closing false k.subsystems.length k.subsystems.length)
  | stopped {loaded : Nat} : Moves k (.closing false loaded 0) .stopped .stopped

theorem moves_cases {toState : KernelState} (h : stage.moves k toState = some stage') :
    Moves k stage toState stage' := by
  unfold moves at h
  split at h
  · obtain ⟨rfl, hStage⟩ := Option.ite_none_right_eq_some.mp h
    cases hStage
    exact .booted
  · obtain ⟨rfl, hStage⟩ := Option.ite_none_right_eq_some.mp h
    cases hStage
    exact .loaded
  · cases h
    exact .bootFailed
  · cases h
    exact .loadFailed
  · cases h
    exact .stopping
  · cases h
    exact .stopped
  · cases h

/-- Callbacks start in the forward loop of a phase and in a shutdown loop. -/
inductive Starts (k : Kernel) : Stage → Callback → Subsystem → Stage → Prop
  | forward {c : Callback} {done : Nat} {s : Subsystem} (hForward : c ≠ .shutdown)
      (hNext : k.subsystems[done]? = some s) : Starts k (.forward c done) c s (.calling c done)
  | closing {rollback : Bool} {loaded up : Nat} {s : Subsystem}
      (hNext : k.subsystems[up]? = some s) :
      Starts k (.closing rollback loaded (up + 1)) .shutdown s (.callingShutdown rollback loaded up)

theorem starts_cases (h : stage.starts k c s = some stage') : Starts k stage c s stage' := by
  unfold starts at h
  split at h
  · obtain ⟨hNext, hStage⟩ := Option.ite_none_right_eq_some.mp h
    cases hStage
    exact .forward (by decide) hNext
  · obtain ⟨hNext, hStage⟩ := Option.ite_none_right_eq_some.mp h
    cases hStage
    exact .forward (by decide) hNext
  · obtain ⟨hNext, hStage⟩ := Option.ite_none_right_eq_some.mp h
    cases hStage
    exact .closing hNext
  · cases h

/-- A callback that fails in the forward loop of a phase breaks the phase; one that fails
in a shutdown loop does not end the loop. -/
inductive Finishes (k : Kernel) : Stage → Callback → Subsystem → CallbackOutcome → Stage → Prop
  | ok {c : Callback} {done : Nat} {s : Subsystem} (hForward : c ≠ .shutdown)
      (hNext : k.subsystems[done]? = some s) :
      Finishes k (.calling c done) c s .ok (.recording c done)
  | broken {c : Callback} {done : Nat} {s : Subsystem} {outcome : CallbackOutcome}
      (hForward : c ≠ .shutdown) (hNext : k.subsystems[done]? = some s) (hFailed : outcome ≠ .ok) :
      Finishes k (.calling c done) c s outcome (.broken c done)
  | closing {rollback : Bool} {loaded up : Nat} {s : Subsystem} {outcome : CallbackOutcome}
      (hNext : k.subsystems[up]? = some s) :
      Finishes k (.callingShutdown rollback loaded up) .shutdown s outcome
        (.closing rollback loaded up)

theorem finishes_cases {outcome : CallbackOutcome}
    (h : stage.finishes k c s outcome = some stage') : Finishes k stage c s outcome stage' := by
  unfold finishes at h
  split at h
  · obtain ⟨hNext, hStage⟩ := Option.ite_none_right_eq_some.mp h
    cases hStage
    split_ifs with hOk
    · exact hOk ▸ .ok (by decide) hNext
    · exact .broken (by decide) hNext hOk
  · obtain ⟨hNext, hStage⟩ := Option.ite_none_right_eq_some.mp h
    cases hStage
    split_ifs with hOk
    · exact hOk ▸ .ok (by decide) hNext
    · exact .broken (by decide) hNext hOk
  · obtain ⟨hNext, hStage⟩ := Option.ite_none_right_eq_some.mp h
    cases hStage
    exact .closing hNext
  · cases h

/-- Recording a success lets the forward loop go on. -/
theorem records_cases {name : String} (h : stage.records k c name = some stage') :
    ∃ done, c ≠ .shutdown ∧ (k.subsystems.map Subsystem.name)[done]? = some name ∧
      stage = .recording c done ∧ stage' = .forward c (done + 1) := by
  unfold records at h
  split at h
  · obtain ⟨hNext, hStage⟩ := Option.ite_none_right_eq_some.mp h
    cases hStage
    exact ⟨_, by decide, hNext, rfl, rfl⟩
  · obtain ⟨hNext, hStage⟩ := Option.ite_none_right_eq_some.mp h
    cases hStage
    exact ⟨_, by decide, hNext, rfl, rfl⟩
  · cases h

end Cases

end Stage

/-- A thread is in charge of the orchestration or has nothing to do with it. -/
inductive Position where
  | outside
  | inside (stage : Stage)
  deriving DecidableEq

namespace Position

/-- An operation that only the thread in charge may perform. -/
def within (p : Position) (f : Stage → Option Stage) : Option Position :=
  match p with
  | outside => none
  | inside stage => (f stage).map inside

def lifecycle (k : Kernel) (p : Position) : (o : LifecycleOp) → LifecycleSig.Ans o →
    Option Position
  | .checkAndSet toState, .ok _ => match p with
    | outside => if toState = .booting then some (inside (.forward .boot 0)) else none
    | inside stage => (stage.moves k toState).map inside
  | .checkAndSet toState, .error _ => if p = outside ∧ toState = .booting then some outside else none
  | _, _ => some p

def coordinator (k : Kernel) (p : Position) (o : CoordinatorOp) (a : CoordinatorSig.Ans o) :
    Option Position :=
  match p with
  | inside stage => (stage.coordinates k o a).map inside
  | outside => match o with
    | .signalToken => some outside
    | .registerHook _ => some outside
    | _ => none

def next (k : Kernel) (p : Position) : (o : KernelOp) → KernelSig.Ans o → Option Position
  | .lifecycle o, a => p.lifecycle k o a
  | .coordinator o, a => p.coordinator k o a
  | .startCallback c s, _ => p.within fun stage => stage.starts k c s
  | .finishCallback c s, outcome => p.within fun stage => stage.finishes k c s outcome
  | .insertBooted name, _ => p.within fun stage => stage.records k .boot name
  | .insertLoaded name, _ => p.within fun stage => stage.records k .load name
  | .loadedKeys, keys => p.within fun stage => stage.reads k keys
  | .hasWorkers, answer => p.within fun stage => stage.seesWorkers answer
  | .signalRequested, answer => p.within fun stage => stage.seesSignal answer
  | .buildRuntime flavor, result => p.within fun stage => stage.builds flavor result
  | .takeWorkers, _ => p.within Stage.supervises
  | .supervise _, _ => p.within Stage.supervises
  | _, _ => some p

-- Made here once, as above.
section
attribute [local simp] within lifecycle coordinator next
end

end Position

/-- The orchestration as a protocol that kernel methods follow. -/
abbrev orchestration (k : Kernel) : Protocol KernelSig where
  Position := Position
  rest := .outside
  next := Position.next k

section Loops

variable {k : Kernel} {α : Type}

theorem getElem?_of_drop {items : List α} {done : Nat} {first : α} {rest : List α}
    (h : items.drop done = first :: rest) :
    items[done]? = some first ∧ items.drop (done + 1) = rest := by
  have hFirst := congrArg (·[0]?) h
  have hRest := congrArg (List.drop 1) h
  rw [List.drop_drop] at hRest
  exact ⟨by simpa using hFirst, by simpa using hRest⟩

theorem Stage.starts_forward {c : Callback} {done : Nat} {s : Subsystem} (hForward : c ≠ .shutdown)
    (hNext : k.subsystems[done]? = some s) :
    (forward c done).starts k c s = some (calling c done) := by
  cases c with
  | shutdown => exact absurd rfl hForward
  | boot | load => simp [starts, hNext]

theorem Stage.finishes_calling {c : Callback} {done : Nat} {s : Subsystem}
    {outcome : CallbackOutcome} (hForward : c ≠ .shutdown)
    (hNext : k.subsystems[done]? = some s) :
    (calling c done).finishes k c s outcome =
      some (if outcome = .ok then recording c done else broken c done) := by
  cases c with
  | shutdown => exact absurd rfl hForward
  | boot | load => simp [finishes, hNext]

theorem follows_recordBooted {done : Nat} {s : Subsystem} (hNext : k.subsystems[done]? = some s) :
    (orchestration k).Follows (fun _ q => q = .inside (.forward .boot (done + 1)))
      (recordBooted s.name) (.inside (.recording .boot done)) := by
  have hRecord : ∀ now, Position.next k (.inside (.recording .boot done)) (.insertBooted s.name) now =
      some (.inside (.forward .boot (done + 1))) := fun now => by
    simp [Position.next, Position.within, Stage.records, hNext]
  exact follows_op (fun _ => rfl) fun _ => follows_op hRecord fun _ =>
    follows_op (fun _ => rfl) fun _ => rfl

theorem follows_recordLoaded {done : Nat} {s : Subsystem} (hNext : k.subsystems[done]? = some s) :
    (orchestration k).Follows (fun _ q => q = .inside (.forward .load (done + 1)))
      (recordLoaded s.name) (.inside (.recording .load done)) := by
  have hRecord : ∀ now, Position.next k (.inside (.recording .load done)) (.insertLoaded s.name) now =
      some (.inside (.forward .load (done + 1))) := fun now => by
    simp [Position.next, Position.within, Stage.records, hNext]
  exact follows_op (fun _ => rfl) fun _ => follows_op hRecord fun _ =>
    follows_op (fun _ => rfl) fun _ => rfl

/-- Where a forward loop ends: through the list, or at the subsystem that failed. -/
def ForwardEnd (k : Kernel) (c : Callback) (r : Except KernelError Unit) (q : Position) : Prop :=
  match r with
  | .ok _ => q = .inside (.forward c k.subsystems.length)
  | .error _ => ∃ done < k.subsystems.length, q = .inside (.broken c done)

theorem follows_forwardPhase {c : Callback} {record : String → Program KernelSig Unit}
    (hForward : c ≠ .shutdown)
    (hRecord : ∀ done s, k.subsystems[done]? = some s →
      (orchestration k).Follows (fun _ q => q = .inside (.forward c (done + 1))) (record s.name)
        (.inside (.recording c done)))
    {rest : List Subsystem} {done : Nat} (hRest : k.subsystems.drop done = rest)
    (hDone : done ≤ k.subsystems.length) :
    (orchestration k).Follows (ForwardEnd k c) (forwardPhase c record rest)
      (.inside (.forward c done)) := by
  induction rest generalizing done with
  | nil =>
      have hEnd : done = k.subsystems.length :=
        Nat.le_antisymm hDone (List.drop_eq_nil_iff.mp hRest)
      exact congrArg (fun n => Position.inside (.forward c n)) hEnd
  | cons s rest ih =>
      obtain ⟨hNext, hLater⟩ := getElem?_of_drop hRest
      have hStart : Position.next k (.inside (.forward c done)) (.startCallback c s) () =
          some (.inside (.calling c done)) := by
        simp [Position.next, Position.within, Stage.starts_forward hForward hNext]
      apply follows_op (fun _ => hStart)
      intro _
      refine ⟨⟨CallbackOutcome.ok, ?_⟩, fun (outcome : CallbackOutcome) p' hStep => ?_⟩
      · simp [Position.next, Position.within, Stage.finishes_calling hForward hNext]
      · simp only [Position.next, Position.within, Stage.finishes_calling hForward hNext,
          Option.map_some, Option.some.injEq] at hStep
        have hLt : done < k.subsystems.length := (List.getElem?_eq_some_iff.mp hNext).1
        subst hStep
        cases outcome with
        | ok => exact (hRecord done s hNext).seq fun _ => ih hLater hLt
        | err e => exact ⟨done, hLt, rfl⟩
        | panicked payload => exact ⟨done, hLt, rfl⟩

/-- A shutdown loop over the first `up` subsystems in reverse. -/
theorem follows_shutdownEach {rollback : Bool} {loaded up : Nat} (firstErr : Option KernelError)
    (hUp : up ≤ k.subsystems.length) :
    (orchestration k).Follows (fun _ q => q = .inside (.closing rollback loaded 0))
      (shutdownEach (k.subsystems.take up).reverse firstErr)
      (.inside (.closing rollback loaded up)) := by
  induction up generalizing firstErr with
  | zero => exact rfl
  | succ up ih =>
      have hLt : up < k.subsystems.length := hUp
      have hNext : k.subsystems[up]? = some k.subsystems[up] := List.getElem?_eq_getElem hLt
      rw [List.take_add_one, hNext, Option.toList_some, List.reverse_concat]
      have hStart : Position.next k (.inside (.closing rollback loaded (up + 1)))
          (.startCallback .shutdown k.subsystems[up]) () =
          some (.inside (.callingShutdown rollback loaded up)) := by
        simp [Position.next, Position.within, Stage.starts, hNext]
      have hFinish : ∀ outcome, Position.next k (.inside (.callingShutdown rollback loaded up))
          (.finishCallback .shutdown k.subsystems[up]) outcome =
          some (.inside (.closing rollback loaded up)) := fun outcome => by
        simp [Position.next, Position.within, Stage.finishes, hNext]
      exact follows_op (fun _ => hStart) fun _ => follows_op hFinish fun _ =>
        ih _ (Nat.le_of_lt hLt)

/-- The rollback's filter keeps the subsystems before the one that failed. -/
theorem filter_loaded (hNames : (k.subsystems.map Subsystem.name).Nodup) {done : Nat}
    {keys : List String} (hKeys : ∀ name ∈ k.subsystems.map Subsystem.name,
      name ∈ keys ↔ name ∈ (k.subsystems.map Subsystem.name).take done) :
    (k.subsystems.reverse.filter fun s => s.name ∈ keys) = (k.subsystems.take done).reverse := by
  have hSplit : k.subsystems = k.subsystems.take done ++ k.subsystems.drop done :=
    (List.take_append_drop done k.subsystems).symm
  rw [List.filter_reverse]
  congr 1
  rw [← List.map_take] at hKeys
  conv_lhs => rw [hSplit]
  rw [List.filter_append]
  have hBefore : (k.subsystems.take done).filter (fun s => s.name ∈ keys) =
      k.subsystems.take done := by
    apply List.filter_eq_self.mpr
    intro s hMem
    have hName := List.mem_map_of_mem (f := Subsystem.name) (List.mem_of_mem_take hMem)
    simpa using (hKeys s.name hName).mpr (List.mem_map_of_mem hMem)
  have hAfter : (k.subsystems.drop done).filter (fun s => s.name ∈ keys) = [] := by
    apply List.filter_eq_nil_iff.mpr
    intro s hMem hKept
    have hName := List.mem_map_of_mem (f := Subsystem.name) (List.mem_of_mem_drop hMem)
    have hTaken := (hKeys s.name hName).mp (by simpa using hKept)
    rw [hSplit, List.map_append] at hNames
    exact (List.nodup_append.mp hNames).2.2 _ hTaken _ (List.mem_map_of_mem hMem) rfl
  rw [hBefore, hAfter, List.append_nil]

end Loops

section Phases

variable {k : Kernel}

theorem follows_runBootPhase :
    (orchestration k).Follows (ForwardEnd k .boot) (runBootPhase k) (.inside (.forward .boot 0)) := by
  apply follows_op (fun _ => rfl)
  intro _
  refine (follows_forwardPhase (by decide) (fun _ _ => follows_recordBooted) rfl
    (Nat.zero_le _)).bind fun r q hEnd => ?_
  exact follows_op (fun _ => rfl) fun _ => hEnd

theorem follows_runLoadPhase :
    (orchestration k).Follows (ForwardEnd k .load) (runLoadPhase k) (.inside (.forward .load 0)) := by
  apply follows_op (fun _ => rfl)
  intro _
  refine (follows_forwardPhase (by decide) (fun _ _ => follows_recordLoaded) rfl
    (Nat.zero_le _)).bind fun r q hEnd => ?_
  exact follows_op (fun _ => rfl) fun _ => hEnd

theorem follows_runShutdownPhase :
    (orchestration k).Follows (fun _ q => q = .inside (.closing false k.subsystems.length 0))
      (runShutdownPhase k) (.inside (.closing false k.subsystems.length k.subsystems.length)) := by
  apply follows_op (fun _ => rfl)
  intro _
  have hLoop := @follows_shutdownEach k false k.subsystems.length k.subsystems.length none
    (Nat.le_refl _)
  rw [List.take_length] at hLoop
  apply hLoop.seq
  intro firstErr
  exact follows_op (fun _ => rfl) fun _ => by cases firstErr <;> exact rfl

theorem follows_runShutdownPhaseToLoaded (hNames : (k.subsystems.map Subsystem.name).Nodup)
    {done : Nat} (hDone : done ≤ k.subsystems.length) :
    (orchestration k).Follows (fun _ q => q = .inside (.closing true done 0))
      (runShutdownPhaseToLoaded k) (.inside (.broken .load done)) := by
  apply follows_op (fun _ => rfl)
  intro _
  refine ⟨⟨(k.subsystems.map Subsystem.name).take done, ?_⟩, fun (keys : List String) p' hStep => ?_⟩
  · simp [Position.next, Position.within, Stage.reads]
  simp only [Position.next, Position.within, Stage.reads, Option.map_eq_some_iff,
    Option.ite_none_right_eq_some] at hStep
  obtain ⟨stage, ⟨hKeys, hStage⟩, rfl⟩ := hStep
  obtain rfl := Option.some.inj hStage
  refine follows_op (fun _ => rfl) fun _ => follows_op (fun _ => rfl) fun _ => ?_
  rw [filter_loaded hNames hKeys]
  apply (follows_shutdownEach none hDone).seq
  intro _
  exact follows_op (fun _ => rfl) fun _ => rfl

/-- The event and the two metrics of a granted move come from the thread in charge. -/
theorem follows_transition {stage stage' : Stage} {toState : KernelState}
    (hMove : stage.moves k toState = some stage') :
    (orchestration k).Follows (fun r q => r = .ok () ∧ q = .inside stage')
      (onLifecycle (transition toState)) (.inside stage) := by
  refine ⟨⟨.ok (stage.state, 0), ?_⟩, fun a p' hStep => ?_⟩
  · simp [Position.next, Position.lifecycle, hMove]
  · cases a with
    | error e => simp [Position.next, Position.lifecycle] at hStep
    | ok move =>
        obtain rfl : Position.inside stage' = p' := by
          simpa [Position.next, Position.lifecycle, hMove] using hStep
        exact follows_op (fun _ => rfl) fun _ => follows_op (fun _ => rfl) fun _ =>
          follows_op (fun _ => rfl) fun _ => ⟨rfl, rfl⟩

/-- The first move of `boot`: whoever it is granted to is in charge. -/
theorem follows_transition_booting :
    (orchestration k).Follows (fun r q => match r with
        | .ok _ => q = .inside (.forward .boot 0)
        | .error _ => q = .outside)
      (onLifecycle (transition .booting)) .outside := by
  refine ⟨⟨.ok (.created, 0), rfl⟩, fun a p' hStep => ?_⟩
  cases a with
  | error e =>
      obtain rfl : Position.outside = p' := by
        simpa [Position.next, Position.lifecycle] using hStep
      exact rfl
  | ok move =>
      obtain rfl : Position.inside (.forward .boot 0) = p' := by
        simpa [Position.next, Position.lifecycle] using hStep
      exact follows_op (fun _ => rfl) fun _ => follows_op (fun _ => rfl) fun _ =>
        follows_op (fun _ => rfl) fun _ => rfl

/-- Where `boot` leaves the thread: outside, if it was refused. -/
def BootEnd (r : Except KernelError Unit) (q : Position) : Prop :=
  match r with
  | .ok _ => q = .inside (.exec .entered)
  | .error _ => q = .outside ∨ ∃ c done, q = .inside (.failed c done)

theorem follows_boot (hNames : (k.subsystems.map Subsystem.name).Nodup) :
    (orchestration k).Follows BootEnd (boot k) .outside := by
  apply follows_transition_booting.bind
  intro r q hMove
  cases r with
  | error e => exact Or.inl hMove
  | ok u =>
      obtain rfl : q = .inside (.forward .boot 0) := hMove
      apply follows_runBootPhase.bind
      intro r q hEnd
      cases r with
      | error e =>
          obtain ⟨done, -, rfl⟩ := hEnd
          have hFail : (Stage.broken .boot done).moves k .failed = some (.failed .boot done) := rfl
          exact (follows_transition hFail).bind fun _ q hQ => Or.inr ⟨_, _, hQ.2⟩
      | ok u =>
          obtain rfl : q = .inside (.forward .boot k.subsystems.length) := hEnd
          have hLoad : (Stage.forward .boot k.subsystems.length).moves k .loading =
              some (.forward .load 0) := by simp [Stage.moves]
          apply (follows_transition hLoad).bind
          intro r q hQ
          obtain ⟨rfl, rfl⟩ := hQ
          apply follows_runLoadPhase.bind
          intro r q hEnd
          cases r with
          | error e =>
              obtain ⟨done, hLt, rfl⟩ := hEnd
              apply (follows_runShutdownPhaseToLoaded hNames (Nat.le_of_lt hLt)).seq
              intro _
              have hFail : (Stage.closing true done 0).moves k .failed =
                  some (.failed .load done) := rfl
              exact (follows_transition hFail).bind fun _ q hQ => Or.inr ⟨_, _, hQ.2⟩
          | ok u =>
              obtain rfl : q = .inside (.forward .load k.subsystems.length) := hEnd
              have hRun : (Stage.forward .load k.subsystems.length).moves k .running =
                  some (.exec .entered) := by simp [Stage.moves]
              apply (follows_transition hRun).bind
              intro r q hQ
              obtain ⟨rfl, rfl⟩ := hQ
              exact rfl

end Phases

section Exec

variable {k : Kernel}

theorem follows_runHooks (deadline : Instant) (hooks : List ShutdownHook)
    (succeeded : List String) (failed : List (String × HookFailure)) :
    (orchestration k).Follows (fun _ q => q = .inside (.exec .sequencing))
      (onCoordinator (runHooks deadline hooks succeeded failed)) (.inside (.exec .sequencing)) := by
  induction hooks generalizing succeeded failed with
  | nil => exact rfl
  | cons hook hooks ih =>
      refine follows_op (fun _ => rfl) fun (now : Instant) => ?_
      simp only [Program.bind]
      split
      · exact ih _ _
      · refine follows_op (fun _ => rfl) fun _ => follows_op (fun _ => rfl) fun (ended : HookEnd) => ?_
        obtain ⟨outcome, instant⟩ := ended
        cases outcome with
        | ok => exact ih _ _
        | err e => exact ih _ _
        | timedOut => exact ih _ _
        | panicked => exact rfl

theorem follows_onCoordinator_bind {α β : Type} {mid : α → Position → Prop}
    {exit : β → Position → Prop} {program : Program CoordinatorSig α}
    {next : α → Program CoordinatorSig β} {p : Position}
    (h : (orchestration k).Follows mid (onCoordinator program) p)
    (hNext : ∀ a q, mid a q → (orchestration k).Follows exit (onCoordinator (next a)) q) :
    (orchestration k).Follows exit (onCoordinator (program >>= next)) p := by
  rw [onCoordinator, Program.lift_bind]
  exact h.bind hNext

/-- Where the coordinator leaves the thread: it may go on to stop the kernel, unless
the sequence unwound. -/
def CoordinatorEnd (r : Option ShutdownReport) (q : Position) : Prop :=
  match r with
  | some _ => q = .inside (.exec .released)
  | none => q = .inside (.exec .overflowed) ∨ q = .inside (.exec .sequencing)

theorem follows_shutdownSequence (startedAt deadline : Instant) :
    (orchestration k).Follows CoordinatorEnd (onCoordinator (shutdownSequence startedAt deadline))
      (.inside (.exec .sequencing)) := by
  refine follows_op (fun _ => rfl) fun _ => follows_op (fun _ => rfl) fun _ =>
    follows_op (fun _ => rfl) fun hooks => ?_
  simp only [Program.bind]
  apply follows_onCoordinator_bind (follows_runHooks deadline hooks [] [])
  intro r q hQ
  subst hQ
  cases r with
  | none => exact Or.inr rfl
  | some lists => exact follows_op (fun _ => rfl) fun _ => follows_op (fun _ => rfl) fun _ => rfl

theorem follows_coordinatorShutdown :
    (orchestration k).Follows CoordinatorEnd (onCoordinator (coordinatorShutdown k.shutdownGrace))
      (.inside (.exec .onRuntime)) := by
  apply follows_op (fun _ => rfl)
  intro startedAt
  refine ⟨⟨false, rfl⟩, fun (wasDone : Bool) p' hStep => ?_⟩
  cases wasDone with
  | true => cases hStep
  | false =>
      obtain rfl : Position.inside (.exec .claimed) = p' := Option.some.inj hStep
      refine ⟨⟨(0 : Nat), rfl⟩, fun (now : Instant) p' hStep => ?_⟩
      have hAfter : Position.inside (.exec (if (now.checkedAdd k.shutdownGrace).isSome then
          .sequencing else .overflowed)) = p' := Option.some.inj hStep
      subst hAfter
      simp only [Program.bind]
      cases hDeadline : now.checkedAdd k.shutdownGrace with
      | none => exact Or.inl rfl
      | some deadline => exact follows_shutdownSequence startedAt deadline

/-- Where the exec phase leaves the thread. -/
def ExecPhaseEnd (r : ExecEnd) (q : Position) : Prop :=
  match r with
  | .released _ => q = .inside (.exec .released)
  | .failed _ => q = .inside (.exec .noRuntime)
  | .unwound => q = .inside (.exec .overflowed) ∨ q = .inside (.exec .sequencing)

theorem follows_runExecPhase :
    (orchestration k).Follows ExecPhaseEnd (runExecPhase k) (.inside (.exec .entered)) := by
  refine ⟨⟨false, rfl⟩, fun (hasWorkers : Bool) p' hStep => ?_⟩
  obtain rfl : Position.inside (.exec (.workersSeen hasWorkers)) = p' := Option.some.inj hStep
  refine ⟨⟨false, rfl⟩, fun (requested : Bool) p' hStep => ?_⟩
  have hAfter : Position.inside (.exec (if (!hasWorkers && !requested) then .waiting
      else .needsRuntime)) = p' := Option.some.inj hStep
  subst hAfter
  simp only [Program.bind]
  split
  · apply follows_op (fun _ => rfl)
    intro _
    refine ⟨⟨.ok (), rfl⟩, fun (built : Except String Unit) p' hStep => ?_⟩
    cases built with
    | error e => exact (Option.some.inj hStep).symm
    | ok u =>
        obtain rfl : Position.inside (.exec .onRuntime) = p' := Option.some.inj hStep
        apply follows_coordinatorShutdown.bind
        intro r q hEnd
        cases r with
        | none => exact hEnd
        | some report => exact hEnd
  · refine ⟨⟨.ok (), rfl⟩, fun (built : Except String Unit) p' hStep => ?_⟩
    cases built with
    | error e => exact (Option.some.inj hStep).symm
    | ok u =>
        obtain rfl : Position.inside (.exec .onRuntime) = p' := Option.some.inj hStep
        refine follows_op (fun _ => rfl) fun _ => follows_op (fun _ => rfl) fun _ =>
          follows_op (fun _ => rfl) fun _ => ?_
        apply follows_coordinatorShutdown.bind
        intro r q hEnd
        cases r with
        | none => exact follows_op (fun _ => rfl) fun _ => hEnd
        | some report =>
            exact follows_op (fun _ => rfl) fun _ => follows_op (fun _ => rfl) fun _ => hEnd

/-- Where `run` leaves the thread, by the way out it takes. -/
def RunLeaves (exit : RunExit) (q : Position) : Prop :=
  match exit with
  | .bootFailed _ => q = .outside ∨ ∃ c done, q = .inside (.failed c done)
  | .execFailed _ => q = .inside (.exec .noRuntime)
  | .stoppingRefused _ => False
  | .stoppedRefused _ => False
  | .finished .. => q = .inside .stopped
  | .unwound => q = .inside (.exec .overflowed) ∨ q = .inside (.exec .sequencing)

theorem follows_run (hNames : (k.subsystems.map Subsystem.name).Nodup) :
    (orchestration k).Follows RunLeaves (run k) .outside := by
  apply (follows_boot hNames).bind
  intro r q hEnd
  cases r with
  | error e => exact hEnd
  | ok u =>
      obtain rfl : q = .inside (.exec .entered) := hEnd
      apply follows_runExecPhase.bind
      intro r q hEnd
      cases r with
      | failed e => exact hEnd
      | unwound => exact hEnd
      | released report =>
          obtain rfl : q = .inside (.exec .released) := hEnd
          have hStop : (Stage.exec .released).moves k .stopping =
              some (.closing false k.subsystems.length k.subsystems.length) := rfl
          apply (follows_transition hStop).bind
          intro r q hQ
          obtain ⟨rfl, rfl⟩ := hQ
          apply follows_runShutdownPhase.seq
          intro result
          have hStopped : (Stage.closing false k.subsystems.length 0).moves k .stopped =
              some .stopped := rfl
          apply (follows_transition hStopped).bind
          intro r q hQ
          obtain ⟨rfl, rfl⟩ := hQ
          exact rfl

end Exec

section Calls

variable {k : Kernel}

/-- The operations that any thread may perform at any time. -/
def KernelOp.Neutral : KernelOp → Prop
  | .lifecycle (.checkAndSet _) => False
  | .coordinator .signalToken => True
  | .coordinator (.registerHook _) => True
  | .coordinator _ => False
  | .startCallback .. => False
  | .finishCallback .. => False
  | .insertBooted _ => False
  | .insertLoaded _ => False
  | .loadedKeys => False
  | .hasWorkers => False
  | .signalRequested => False
  | .takeWorkers => False
  | .buildRuntime _ => False
  | .supervise _ => False
  | _ => True

theorem KernelOp.Neutral.next {o : KernelOp} (h : o.Neutral) (p : Position) (a : KernelSig.Ans o) :
    p.next k o a = some p := by
  cases o with
  | lifecycle o => cases o with
    | checkAndSet => exact h.elim
    | _ => rfl
  | coordinator o => cases o with
    | signalToken | registerHook => cases p <;> rfl
    | _ => exact h.elim
  | startCallback | finishCallback | insertBooted | insertLoaded | loadedKeys | hasWorkers
  | signalRequested | takeWorkers | buildRuntime | supervise => exact h.elim
  | _ => rfl

theorem neutral_collectSnapshots (book : SubsystemBookkeeping) (subsystems : List Subsystem) :
    (collectSnapshots book subsystems).All KernelOp.Neutral := by
  induction subsystems with
  | nil => trivial
  | cons s rest ih =>
      refine ⟨trivial, fun health => ?_⟩
      cases health with
      | none => trivial
      | some health => exact ih.bind fun snapshots => by cases snapshots <;> trivial

theorem neutral_snapshot : (snapshot k).All KernelOp.Neutral := by
  refine ⟨trivial, fun lifecycle => ⟨trivial, fun health => ?_⟩⟩
  have hCollect : (subsystemSnapshots k).All KernelOp.Neutral := by
    refine ⟨trivial, fun _ => ⟨trivial, fun _ => ⟨trivial, fun book => ?_⟩⟩⟩
    exact (neutral_collectSnapshots book _).bind fun _ => ⟨trivial, fun _ => ⟨trivial, fun _ => trivial⟩⟩
  apply hCollect.bind
  intro snapshots
  cases snapshots with
  | none => trivial
  | some snapshots => exact ⟨trivial, fun _ => trivial⟩

/-- Every call but `boot` and `run` only observes the kernel or uses its handles. -/
theorem neutral_kernelBody {c : KernelCall} (h : c.starts = false) :
    (kernelBody k c).All KernelOp.Neutral := by
  cases c with
  | boot | run => cases h
  | snapshot => exact neutral_snapshot.bind fun _ => trivial
  | debug =>
      have hDebug : (debugFmt k).All KernelOp.Neutral :=
        neutral_snapshot.bind fun snap => by cases snap <;> trivial
      exact hDebug.bind fun _ => trivial
  | health c => exact Program.All.bind (Program.all_lift _ fun _ => trivial) fun _ => trivial
  | waitTimeout timeout =>
      refine ⟨trivial, fun (now : Instant) => ?_⟩
      simp only [Program.bind]
      cases now.checkedAdd timeout with
      | none => trivial
      | some deadline => exact ⟨trivial, fun _ => trivial⟩
  | _ => exact ⟨trivial, fun _ => trivial⟩

/-- Where a call leaves its thread. -/
def CallLeaves : KernelCall → KernelReturn → Position → Prop
  | .boot, .booted r, q => BootEnd r q
  | .run, .ran exit, q => RunLeaves exit q
  | .boot, _, _ => False
  | .run, _, _ => False
  | _, _, q => q = .outside

theorem follows_kernelBody (hNames : (k.subsystems.map Subsystem.name).Nodup) (c : KernelCall) :
    (orchestration k).Follows (CallLeaves c) (kernelBody k c) .outside := by
  have hNeutral : c.starts = false → (orchestration k).Follows (fun _ q => q = .outside)
      (kernelBody k c) .outside := by
    intro hStarts
    refine Protocol.Follows.of_all (P := orchestration k) _ (neutral_kernelBody hStarts)
      fun o hAllowed => ?_
    have hSame : ∀ a, (orchestration k).next .outside o a = some .outside := hAllowed.next _
    obtain ⟨a⟩ := kernelAns_nonempty o
    refine ⟨⟨a, by rw [hSame]; rfl⟩, fun a p' hNext => ?_⟩
    rw [hSame] at hNext
    exact (Option.some.inj hNext).symm
  cases c with
  | boot => exact (follows_boot hNames).bind fun _ _ hEnd => hEnd
  | run => exact (follows_run hNames).bind fun _ _ hEnd => hEnd
  | _ => exact (hNeutral rfl).mono fun _ _ hEnd => hEnd

end Calls

end ServiceKernel
