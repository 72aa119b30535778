import ServiceKernel.Kernel.Conduct
import ServiceKernel.Kernel.HookFailures
import ServiceKernel.Kernel.StageSteps
import ServiceKernel.Semantics.Outbox

/-! What a kernel tells its observers of its lifecycle. The controller alone may tell its
moves in the wrong order; a kernel has one thread in charge, which has told of each
move before it makes the next. -/
namespace ServiceKernel

open Interleaving Execution

variable {Thread : Type}

/-- What subscribers and the metrics backend receive of the lifecycle. -/
inductive LifecycleNote where
  | event (event : LifecycleEvent)
  | gauge (ordinal : Nat)
  | counter (toState : String)
  deriving DecidableEq

abbrev LifecycleMove := KernelState × KernelState × Instant

/-- What a granted move is followed by. -/
def announcement (move : LifecycleMove) : List LifecycleNote :=
  [.event (.transition move.1 move.2.1 move.2.2), .gauge move.2.1.phase.ordinal,
    .counter move.2.1.asStr]

/-- The event, the gauge and the counter of a move as notes. -/
abbrev lifecycleOutbox : Outbox KernelSig LifecycleNote where
  publishes
    | .lifecycle (.emit event) => some (.event event)
    | .lifecycle (.gauge ordinal) => some (.gauge ordinal)
    | .lifecycle (.counter toState) => some (.counter toState)
    | _ => none
  owes o a := match o, a with
    | .lifecycle (.checkAndSet toState), .ok (fromState, now) => announcement (fromState, toState, now)
    | _, _ => []

def KernelRecord.note : KernelRecord → Option LifecycleNote
  | .lifecycle (.emitted event) => some (.event event)
  | .lifecycle (.gauge ordinal) => some (.gauge ordinal)
  | .lifecycle (.counter toState) => some (.counter toState)
  | _ => none

def KernelRecord.move : KernelRecord → Option LifecycleMove
  | .lifecycle (.moved fromState toState now) => some (fromState, toState, now)
  | _ => none

/-- What observers have received, in order. -/
def receivedNotes (trace : List (Thread × KernelRecord)) : List LifecycleNote :=
  trace.filterMap fun e => e.2.note

/-- The granted moves, in order. -/
def grantedMoves (trace : List (Thread × KernelRecord)) : List LifecycleMove :=
  trace.filterMap fun e => e.2.move

section Tidy

variable {k : Kernel} {α β : Type}

/-- A program that begins and ends with nothing left to tell. -/
abbrev Tidy (program : Program KernelSig α) : Prop :=
  lifecycleOutbox.protocol.Follows (fun _ q => q = []) program []

theorem Tidy.bind {program : Program KernelSig α} {next : α → Program KernelSig β}
    (h : Tidy program) (hNext : ∀ a, Tidy (next a)) : Tidy (program >>= next) := h.seq hNext

theorem tidy_op {o : KernelOp} {next : KernelSig.Ans o → Program KernelSig α}
    (hSilent : lifecycleOutbox.Silent o) (h : ∀ a, Tidy (next a)) : Tidy (.perform o next) :=
  follows_op (P := lifecycleOutbox.protocol)
    (fun a => Outbox.after_eq_some.mpr (Or.inl ⟨hSilent.1, rfl, (hSilent.2 a).symm⟩)) h

theorem tidy_silent {program : Program KernelSig α} (h : program.All lifecycleOutbox.Silent) :
    Tidy program :=
  have : ∀ o, Nonempty (KernelSig.Ans o) := kernelAns_nonempty
  Outbox.follows_silent h

theorem tidy_onHealth (p : Program HealthSig α) : Tidy (onHealth p) :=
  tidy_silent (Program.all_lift p fun _ => ⟨rfl, fun _ => rfl⟩)

theorem tidy_onCoordinator (p : Program CoordinatorSig α) : Tidy (onCoordinator p) :=
  tidy_silent (Program.all_lift p fun _ => ⟨rfl, fun _ => rfl⟩)

/-- A transition tells everything it owes. -/
theorem tidy_transition (toState : KernelState) : Tidy (onLifecycle (transition toState)) := by
  have hMove : ∀ a, lifecycleOutbox.after [] (.lifecycle (.checkAndSet toState)) a =
      some (lifecycleOutbox.owes (.lifecycle (.checkAndSet toState)) a) := fun a =>
    Outbox.after_eq_some.mpr (Or.inl ⟨rfl, rfl, rfl⟩)
  refine ⟨⟨Except.ok (.created, 0), rfl⟩, fun answer left hNext => ?_⟩
  obtain rfl := Option.some.inj ((hMove answer).symm.trans hNext)
  cases answer with
  | error e => rfl
  | ok move =>
      have hUnit : Nonempty Unit := ⟨()⟩
      apply Outbox.follows_publish rfl
      intro _
      apply Outbox.follows_publish rfl
      intro _
      apply Outbox.follows_publish rfl
      intro _
      rfl

theorem tidy_callSubsystem (c : Callback) (s : Subsystem) : Tidy (callSubsystem c s) :=
  tidy_op ⟨rfl, fun _ => rfl⟩ fun _ => tidy_op ⟨rfl, fun _ => rfl⟩ fun _ => rfl

theorem tidy_forwardPhase {c : Callback} {record : String → Program KernelSig Unit}
    (hRecord : ∀ name, Tidy (record name)) (subsystems : List Subsystem) :
    Tidy (forwardPhase c record subsystems) := by
  induction subsystems with
  | nil => rfl
  | cons s rest ih =>
      apply (tidy_callSubsystem c s).bind
      intro outcome
      cases outcome.error s.name with
      | some error => rfl
      | none => exact (hRecord s.name).bind fun _ => ih

theorem tidy_shutdownEach (subsystems : List Subsystem) (firstErr : Option KernelError) :
    Tidy (shutdownEach subsystems firstErr) := by
  induction subsystems generalizing firstErr with
  | nil => rfl
  | cons s rest ih => exact (tidy_callSubsystem .shutdown s).bind fun _ => ih _

/-- A loop between the lock and the unlock of a mutex. -/
theorem tidy_locked {m : KernelMutex} {loop : Program KernelSig α} {tail : α → Program KernelSig β}
    (hLoop : Tidy loop) (hTail : ∀ a, Tidy (tail a)) : Tidy (do
      (KernelOp.lock m).call
      let a ← loop
      (KernelOp.unlock m).call
      tail a) :=
  tidy_op ⟨rfl, fun _ => rfl⟩ fun _ => hLoop.bind fun a => tidy_op ⟨rfl, fun _ => rfl⟩ fun _ => hTail a

theorem tidy_recordBooted (name : String) : Tidy (recordBooted name) :=
  tidy_op ⟨rfl, fun _ => rfl⟩ fun _ => tidy_op ⟨rfl, fun _ => rfl⟩ fun _ =>
    tidy_op ⟨rfl, fun _ => rfl⟩ fun _ => rfl

theorem tidy_recordLoaded (name : String) : Tidy (recordLoaded name) :=
  tidy_op ⟨rfl, fun _ => rfl⟩ fun _ => tidy_op ⟨rfl, fun _ => rfl⟩ fun _ =>
    tidy_op ⟨rfl, fun _ => rfl⟩ fun _ => rfl

theorem tidy_runBootPhase : Tidy (runBootPhase k) :=
  tidy_locked (tidy_forwardPhase tidy_recordBooted _) fun _ => rfl

theorem tidy_runLoadPhase : Tidy (runLoadPhase k) :=
  tidy_locked (tidy_forwardPhase tidy_recordLoaded _) fun _ => rfl

theorem tidy_runShutdownPhase : Tidy (runShutdownPhase k) :=
  tidy_locked (tidy_shutdownEach _ none) fun firstErr => by cases firstErr <;> rfl

theorem tidy_runShutdownPhaseToLoaded : Tidy (runShutdownPhaseToLoaded k) :=
  tidy_op ⟨rfl, fun _ => rfl⟩ fun _ => tidy_op ⟨rfl, fun _ => rfl⟩ fun _ =>
    tidy_op ⟨rfl, fun _ => rfl⟩ fun _ => @tidy_locked _ _ .subsystems _ (fun _ => .done ())
      (tidy_shutdownEach _ none) fun _ => rfl

theorem tidy_boot : Tidy (boot k) := by
  apply (tidy_transition .booting).bind
  intro moved
  cases moved with
  | error e => rfl
  | ok u =>
      apply tidy_runBootPhase.bind
      intro booted
      cases booted with
      | error e => exact (tidy_transition .failed).bind fun _ => rfl
      | ok u =>
          apply (tidy_transition .loading).bind
          intro moved
          cases moved with
          | error e => rfl
          | ok u =>
              apply tidy_runLoadPhase.bind
              intro loaded
              cases loaded with
              | error e =>
                  exact tidy_runShutdownPhaseToLoaded.bind fun _ =>
                    (tidy_transition .failed).bind fun _ => rfl
              | ok u => exact (tidy_transition .running).bind fun moved => by cases moved <;> rfl

theorem tidy_runSupervisor : Tidy (runSupervisor k) := by
  refine tidy_op ⟨rfl, fun _ => rfl⟩ fun _ => tidy_op ⟨rfl, fun _ => rfl⟩ fun _ =>
    tidy_op ⟨rfl, fun _ => rfl⟩ fun _ => (tidy_onCoordinator _).bind fun report => ?_
  cases report with
  | none => exact tidy_op ⟨rfl, fun _ => rfl⟩ fun _ => rfl
  | some report =>
      exact tidy_op ⟨rfl, fun _ => rfl⟩ fun _ => tidy_op ⟨rfl, fun _ => rfl⟩ fun _ => rfl

theorem tidy_runExecPhase : Tidy (runExecPhase k) := by
  refine tidy_op ⟨rfl, fun _ => rfl⟩ fun hasWorkers => tidy_op ⟨rfl, fun _ => rfl⟩ fun requested => ?_
  simp only [Program.bind]
  split
  · refine tidy_op ⟨rfl, fun _ => rfl⟩ fun _ => tidy_op ⟨rfl, fun _ => rfl⟩ fun built => ?_
    cases built with
    | error e => rfl
    | ok u => exact (tidy_onCoordinator _).bind fun report => by cases report <;> rfl
  · refine tidy_op ⟨rfl, fun _ => rfl⟩ fun built => ?_
    cases built with
    | error e => rfl
    | ok u => exact tidy_runSupervisor

theorem tidy_run : Tidy (run k) := by
  apply tidy_boot.bind
  intro booted
  cases booted with
  | error e => rfl
  | ok u =>
      apply tidy_runExecPhase.bind
      intro ended
      cases ended with
      | failed e | unwound => rfl
      | released report =>
          apply (tidy_transition .stopping).bind
          intro moved
          cases moved with
          | error e => rfl
          | ok u =>
              exact tidy_runShutdownPhase.bind fun _ => (tidy_transition .stopped).bind fun moved => by
                cases moved <;> rfl

theorem tidy_snapshot : Tidy (snapshot k) := by
  have hCollect : ∀ book, ∀ subsystems : List Subsystem, Tidy (collectSnapshots book subsystems) := by
    intro book subsystems
    induction subsystems with
    | nil => rfl
    | cons s rest ih =>
        refine tidy_op ⟨rfl, fun _ => rfl⟩ fun health => ?_
        cases health with
        | none => rfl
        | some health => exact ih.bind fun snapshots => by cases snapshots <;> rfl
  have hSubsystems : Tidy (subsystemSnapshots k) :=
    tidy_op ⟨rfl, fun _ => rfl⟩ fun _ => tidy_op ⟨rfl, fun _ => rfl⟩ fun _ =>
      tidy_op ⟨rfl, fun _ => rfl⟩ fun book => (hCollect book _).bind fun snapshots =>
        tidy_op ⟨rfl, fun _ => rfl⟩ fun _ => tidy_op ⟨rfl, fun _ => rfl⟩ fun _ => rfl
  refine tidy_op ⟨rfl, fun _ => rfl⟩ fun lifecycle => tidy_op ⟨rfl, fun _ => rfl⟩ fun health =>
    hSubsystems.bind fun snapshots => ?_
  cases snapshots with
  | none => rfl
  | some snapshots => exact tidy_op ⟨rfl, fun _ => rfl⟩ fun _ => rfl

theorem tidy_kernelBody (c : KernelCall) : Tidy (kernelBody k c) := by
  cases c with
  | boot => exact tidy_boot.bind fun _ => rfl
  | run => exact tidy_run.bind fun _ => rfl
  | snapshot => exact tidy_snapshot.bind fun _ => rfl
  | debug =>
      have hDebug : Tidy (debugFmt k) := tidy_snapshot.bind fun snap => by cases snap <;> rfl
      exact hDebug.bind fun _ => rfl
  | registerShutdownHook | signalToken => exact (tidy_onCoordinator _).bind fun _ => rfl
  | health call => exact (tidy_onHealth _).bind fun _ => rfl
  | waitTimeout timeout =>
      refine tidy_op ⟨rfl, fun _ => rfl⟩ fun (now : Instant) => ?_
      simp only [Program.bind]
      cases now.checkedAdd timeout with
      | none => rfl
      | some deadline => exact tidy_op ⟨rfl, fun _ => rfl⟩ fun _ => rfl
  | lifecycle | shutdown | installSignalHandler | isSignalled | wait =>
      exact tidy_op ⟨rfl, fun _ => rfl⟩ fun _ => rfl

end Tidy

/-- The states a kernel has moved to, in order. -/
def Callback.visited : Callback → List KernelState
  | .boot => [.booting]
  | _ => [.booting, .loading]

def Stage.visited : Stage → List KernelState
  | created => []
  | forward c _ => c.visited
  | calling c _ => c.visited
  | recording c _ => c.visited
  | broken c _ => c.visited
  | closing rollback _ _ =>
    if rollback then [.booting, .loading] else [.booting, .loading, .running, .stopping]
  | callingShutdown rollback _ _ =>
    if rollback then [.booting, .loading] else [.booting, .loading, .running, .stopping]
  | exec _ => [.booting, .loading, .running]
  | stopped => [.booting, .loading, .running, .stopping, .stopped]
  | failed c _ => c.visited ++ [.failed]

/-- The ways of a kernel: to the end, or to a failure of boot or load. -/
def Route (visited : List KernelState) : Prop :=
  visited <+: [.booting, .loading, .running, .stopping, .stopped] ∨ visited = [.booting, .failed] ∨
    visited = [.booting, .loading, .failed]

theorem Stage.visited_route (stage : Stage) : Route stage.visited := by
  cases stage with
  | created => exact Or.inl ⟨_, rfl⟩
  | forward c | calling c | recording c | broken c => cases c <;> exact Or.inl ⟨_, rfl⟩
  | closing rollback | callingShutdown rollback => cases rollback <;> exact Or.inl ⟨_, rfl⟩
  | exec | stopped => exact Or.inl ⟨_, rfl⟩
  | failed c =>
      cases c with
      | boot => exact Or.inr (Or.inl rfl)
      | load | shutdown => exact Or.inr (Or.inr rfl)

/-- The granted moves are a walk from `Created` to the present state. -/
structure Walked (stage : Stage) (w : KernelWorld Thread) : Prop where
  linked : Linked .created ((grantedMoves w.trace).map fun m => (m.1, m.2.1)) w.shared.lifecycle.state
  visited : (grantedMoves w.trace).map (fun m => m.2.1) = stage.visited
  ordered : ((grantedMoves w.trace).map fun m => m.2.2).Pairwise (· ≤ ·)
  past : ∀ m ∈ grantedMoves w.trace, m.2.2 ≤ w.shared.clock

section Walk

variable {k : Kernel} {stage stage' : Stage} {w : KernelWorld Thread} {t : Thread} {o : KernelOp}
  {a : KernelSig.Ans o} {shared s s' : KernelInner Thread} {p : Position}

theorem kernelRecord_note (o : KernelOp) (a : KernelSig.Ans o) :
    (kernelRecord o a).note = lifecycleOutbox.publishes o := by
  cases o with
  | lifecycle o => cases o with
    | checkAndSet toState => cases a <;> rfl
    | _ => rfl
  | _ => rfl

theorem kernelRecord_move (o : KernelOp) (a : KernelSig.Ans o) :
    (kernelRecord o a).move.toList.flatMap announcement = lifecycleOutbox.owes o a := by
  cases o with
  | lifecycle o => cases o with
    | checkAndSet toState => cases a <;> rfl
    | _ => rfl
  | _ => rfl

theorem receivedNotes_concat (trace : List (Thread × KernelRecord)) (t : Thread) (r : KernelRecord) :
    receivedNotes (trace ++ [(t, r)]) = receivedNotes trace ++ r.note.toList := by
  rw [receivedNotes, List.filterMap_append]
  cases hNote : r.note <;> simp [receivedNotes, hNote]

theorem grantedMoves_concat (trace : List (Thread × KernelRecord)) (t : Thread) (r : KernelRecord) :
    grantedMoves (trace ++ [(t, r)]) = grantedMoves trace ++ r.move.toList := by
  rw [grantedMoves, List.filterMap_append]
  cases hMove : r.move <;> simp [grantedMoves, hMove]

/-- Only a granted move changes the state. -/
theorem kernelExec_state (h : kernelExec t o a s = some s') (hMove : (kernelRecord o a).move = none) :
    s'.lifecycle.state = s.lifecycle.state := by
  cases kernelExec_effect h with
  | @lifecycle o a l hExec =>
      cases o with
      | checkAndSet toState =>
          cases a with
          | error e =>
              obtain ⟨-, -, rfl⟩ := lifecycle_refused hExec
              rfl
          | ok move => cases hMove
      | _ =>
          obtain rfl := lifecycleExec_state hExec fun toState hOp => by cases hOp
          rfl
  | _ => rfl

theorem Walked.same (h : Walked stage w) (hExec : kernelExec t o a w.shared = some shared)
    (hMove : (kernelRecord o a).move = none) (hVisited : stage'.visited = stage.visited) :
    Walked stage' ((kernelMachine Thread).after w t o a shared) := by
  have hMoves : grantedMoves ((kernelMachine Thread).after w t o a shared).trace = grantedMoves w.trace := by
    rw [Machine.after_trace, grantedMoves_concat]
    show grantedMoves w.trace ++ (kernelRecord o a).move.toList = _
    rw [hMove, Option.toList_none, List.append_nil]
  refine ⟨?_, ?_, ?_, fun m hMem => ?_⟩
  · rw [hMoves, Machine.after_shared, kernelExec_state hExec hMove]
    exact h.linked
  · rw [hMoves, hVisited]
    exact h.visited
  · rw [hMoves]
    exact h.ordered
  · rw [hMoves] at hMem
    exact Nat.le_trans (h.past m hMem) (kernelExec_clock hExec)

/-- A granted move takes the walk one step further. -/
theorem Walked.moved {toState : KernelState} {move : KernelState × Instant} (h : Walked stage w)
    (hExec : kernelExec t (.lifecycle (.checkAndSet toState)) (.ok move) w.shared = some shared)
    (hVisited : stage'.visited = stage.visited ++ [toState]) :
    Walked stage' ((kernelMachine Thread).after w t (.lifecycle (.checkAndSet toState))
      (Except.ok move) shared) := by
  obtain ⟨fromState, now⟩ := move
  obtain ⟨l, hLifecycle, hShared⟩ := KernelInner.withLifecycle_some.mp hExec
  obtain ⟨-, hFrom, hNow, rfl⟩ := lifecycle_moved hLifecycle
  have hState : shared.lifecycle.state = toState := by rw [← hShared]
  have hClock : shared.clock = now := by rw [← hShared]
  have hMoves : grantedMoves ((kernelMachine Thread).after w t (.lifecycle (.checkAndSet toState))
      (Except.ok (fromState, now)) shared).trace = grantedMoves w.trace ++ [(fromState, toState, now)] := by
    rw [Machine.after_trace, grantedMoves_concat]
    rfl
  have hLast : ∀ m ∈ grantedMoves w.trace ++ [(fromState, toState, now)], m.2.2 ≤ now := by
    intro m hMem
    rcases List.mem_append.mp hMem with hOld | hNew
    · exact Nat.le_trans (h.past m hOld) hNow
    · rw [List.mem_singleton.mp hNew]
  refine ⟨?_, ?_, ?_, fun m hMem => ?_⟩
  · rw [hMoves, List.map_append, Machine.after_shared, hState]
    exact linked_concat.mpr ⟨hFrom ▸ h.linked, rfl⟩
  · rw [hMoves, List.map_append, h.visited, hVisited]
    rfl
  · rw [hMoves, List.map_append, List.pairwise_append]
    refine ⟨h.ordered, List.pairwise_singleton _ _, fun x hX y hY => ?_⟩
    obtain ⟨m, hMem, rfl⟩ := List.mem_map.mp hX
    rw [List.mem_singleton.mp hY]
    exact hLast m (List.mem_append_left _ hMem)
  · rw [hMoves] at hMem
    rw [Machine.after_shared, hClock]
    exact hLast m hMem

theorem Stage.Moves.visited {toState : KernelState} (h : Stage.Moves k stage toState stage') :
    stage'.visited = stage.visited ++ [toState] := by
  cases h <;> rfl

theorem Stage.Onward.visited (h : Stage.Onward k stage o a stage')
    (hMove : (kernelRecord o a).move = none) : stage'.visited = stage.visited := by
  cases h with
  | moves => cases hMove
  | starts hStart => cases hStart <;> rfl
  | finishes hFinish => cases hFinish <;> rfl
  | _ => rfl

theorem Walked.step (h : Walked stage w) (hExec : kernelExec t o a w.shared = some shared)
    (hMove : StageMove k o a p stage stage') :
    Walked stage' ((kernelMachine Thread).after w t o a shared) := by
  cases hMove with
  | aside hNext hPlain =>
      refine h.same hExec ?_ rfl
      cases o with
      | lifecycle o => cases o with
        | checkAndSet toState => cases a with
          | error e => rfl
          | ok move =>
              simp only [Position.next, Position.lifecycle] at hNext
              split at hNext <;> cases hNext
        | _ => rfl
      | _ => rfl
  | begins hNext hPlain =>
      cases o with
      | lifecycle o => cases o with
        | checkAndSet toState => cases a with
          | error e =>
              simp only [Position.next, Position.lifecycle] at hNext
              split at hNext <;> cases hNext
          | ok move =>
              obtain ⟨rfl, -⟩ := Option.ite_none_right_eq_some.mp hNext
              exact h.moved hExec rfl
        | _ => cases hNext
      | coordinator o => cases o <;> cases hNext
      | _ => cases hNext
  | inside hNext =>
      have hOnward := Stage.onward_of_next hNext
      cases hRecord : (kernelRecord o a).move with
      | none => exact h.same hExec hRecord (hOnward.visited hRecord)
      | some move =>
          cases hOnward with
          | moves hGranted => exact h.moved hExec hGranted.visited
          | exec hOp => cases o <;> first | cases hRecord | cases hOp
          | stays hNeutral =>
              cases o with
              | lifecycle o => cases o <;> first | cases hRecord | cases hNeutral
              | _ => cases hRecord
          | _ => cases hRecord

end Walk

section System

variable [DecidableEq Thread] {k : Kernel} {b : KernelBuilder} {stage : Stage}
  {pos : Thread → Position × List LifecycleNote} {w : KernelWorld Thread} {t : Thread}

/-- Only the thread in charge comes to have notes left. -/
theorem inCharge_next {o : KernelOp} {a : KernelSig.Ans o} {p p' : Position}
    {left left' : List LifecycleNote} (hNext : p.next k o a = some p')
    (hLeft : lifecycleOutbox.after left o a = some left') (hBefore : left ≠ [] → p ≠ .outside) :
    left' ≠ [] → p' ≠ .outside := by
  intro hSome
  rcases Outbox.after_eq_some.mp hLeft with ⟨-, -, rfl⟩ | ⟨note, hNote, rfl⟩
  · cases o with
    | lifecycle o => cases o with
      | checkAndSet toState => cases a with
        | error e => exact absurd rfl hSome
        | ok move =>
            cases p with
            | outside =>
                obtain ⟨-, hInside⟩ := Option.ite_none_right_eq_some.mp hNext
                rw [← Option.some.inj hInside]
                exact Position.noConfusion
            | inside stage =>
                obtain ⟨stage', -, rfl⟩ := Option.map_eq_some_iff.mp hNext
                exact Position.noConfusion
      | _ => exact absurd rfl hSome
    | _ => exact absurd rfl hSome
  · cases o with
    | lifecycle o => cases o with
      | emit | gauge | counter =>
          rw [← Option.some.inj hNext]
          exact hBefore (by simp)
      | _ => cases hNote
    | _ => cases hNote

/-- The thread in charge has told of all moves, or is about to. -/
structure Announced (k : Kernel) (stage : Stage) (pos : Thread → Position × List LifecycleNote)
    (w : KernelWorld Thread) : Prop where
  orchestrated : Orchestrated k stage (fun t => (pos t).1) w
  inCharge : ∀ t, (pos t).2 ≠ [] → (pos t).1 ≠ .outside
  posted : Posted (receivedNotes w.trace) ((grantedMoves w.trace).flatMap announcement) fun t => (pos t).2
  walked : Walked stage w

theorem Announced.step (h : Announced k stage pos w) (hBuilt : k.WellFormed b) {o : KernelOp}
    {a : KernelSig.Ans o} {shared : KernelInner Thread}
    (hPermits : ((orchestration k).prod lifecycleOutbox.protocol).Permits (pos t) o)
    (hExec : kernelExec t o a w.shared = some shared) :
    ∃ p stage', ((orchestration k).prod lifecycleOutbox.protocol).next (pos t) o a = some p ∧
      Announced k stage' (Function.update pos t p) ((kernelMachine Thread).after w t o a shared) := by
  obtain ⟨hOrchestration, a', hSome⟩ := (permits_prod_iff Outbox.indifferent).mp hPermits
  obtain ⟨left, hLeft⟩ := Option.isSome_iff_exists.mp (Outbox.indifferent _ _ a' a hSome)
  obtain ⟨p, stage', hNext, hMove, hAfter⟩ := h.orchestrated.step hBuilt hOrchestration hExec
  have hCharge := inCharge_next hNext hLeft (h.inCharge t)
  refine ⟨(p, left), stage', prod_next_eq_some.mpr ⟨hNext, hLeft⟩, ?_, fun u hSome => ?_, ?_,
    h.walked.step hExec hMove⟩
  · rw [update_fst]
    exact hAfter
  · rcases eq_or_ne u t with rfl | hne
    · simp only [Function.update_self] at hSome ⊢
      exact hCharge hSome
    · simp only [Function.update_of_ne hne] at hSome ⊢
      exact h.inCharge u hSome
  · rw [update_snd, Machine.after_trace, receivedNotes_concat, grantedMoves_concat, List.flatMap_append]
    show Posted (receivedNotes w.trace ++ (kernelRecord o a).note.toList)
      ((grantedMoves w.trace).flatMap announcement ++ (kernelRecord o a).move.toList.flatMap announcement) _
    rw [kernelRecord_note, kernelRecord_move]
    rcases Outbox.after_eq_some.mp hLeft with ⟨hNone, hHere, rfl⟩ | ⟨note, hNote, hHere⟩
    · rw [hNone, Option.toList_none, List.append_nil]
      rcases eq_or_ne (lifecycleOutbox.owes o a) [] with hEmpty | hOwes
      · have hSame : Function.update (fun u => (pos u).2) t [] = fun u => (pos u).2 := by
          rw [← hHere, Function.update_eq_self t fun u => (pos u).2]
        rw [hEmpty, List.append_nil, hSame]
        exact h.posted
      · -- whoever else had notes left would be in charge as well
        refine h.posted.owes fun u => ?_
        rcases eq_or_ne u t with rfl | hne
        · exact hHere
        · by_contra hSome
          have hMine : (Function.update (fun u => (pos u).1) t p t).stage?.isSome := by
            rw [Function.update_self]
            cases p with
            | outside => exact absurd rfl (hCharge hOwes)
            | inside stage => rfl
          have hTheirs : (Function.update (fun u => (pos u).1) t p u).stage?.isSome := by
            rw [Function.update_of_ne hne]
            cases hPlace : (pos u).1 with
            | outside => exact absurd hPlace (h.inCharge u hSome)
            | inside stage => rfl
          exact hne (hAfter.sole.alone u t hTheirs hMine)
    · have hNothing : lifecycleOutbox.owes o a = [] := by
        cases o with
        | lifecycle o => cases o <;> first | rfl | cases hNote
        | _ => rfl
      rw [hNote, hNothing, List.append_nil]
      exact h.posted.publishes hHere

/-- The orchestration with its outbox as a typestate of all threads. -/
abbrev announcingTypestate (Thread : Type) [DecidableEq Thread] (hBuilt : k.WellFormed b) :
    Typestate (kernelMachine Thread) (kernelBody k) where
  protocol := (orchestration k).prod lifecycleOutbox.protocol
  begins _ := (.outside, [])
  within _ _ := True
  returns c r p := CallLeaves c r p.1 ∧ p.2 = []
  inv pos w := ∃ stage, Announced k stage pos w
  within_begins _ := trivial
  within_next _ _ _ _ _ _ _ := trivial
  obeys c := (follows_kernelBody hBuilt.distinct c).prod Outbox.indifferent (tidy_kernelBody c)
  enters pos w t c hInv hRest := by
    have hHere : pos t = (Position.outside, []) := hRest
    have hSame : Function.update pos t (Position.outside, []) = pos := by
      rw [← hHere, Function.update_eq_self]
    rw [hSame]
    exact hInv
  leaves pos w t c r hInv hLeaves := by
    obtain ⟨stage, h⟩ := hInv
    refine ⟨stage, ?_, fun u hSome => ?_, ?_, h.walked⟩
    · rw [update_fst]
      exact h.orchestrated.update_outside t
    · rcases eq_or_ne u t with rfl | hne
      · simp at hSome
      · simp only [Function.update_of_ne hne] at hSome ⊢
        exact h.inCharge u hSome
    · have hHere : (pos t).2 = [] := hLeaves.2
      have hSame : Function.update (fun u => (pos u).2) t [] = fun u => (pos u).2 := by
        rw [← hHere, Function.update_eq_self t fun u => (pos u).2]
      rw [update_snd, hSame]
      exact h.posted
  keeps _ _ _ _ _ _ hInv hPermits hExec := by
    obtain ⟨stage, h⟩ := hInv
    obtain ⟨p, stage', hNext, hAfter⟩ := h.step hBuilt hPermits hExec
    exact ⟨p, hNext, stage', hAfter⟩

omit [DecidableEq Thread] in
theorem announced_built (k : Kernel) (clock : Instant) :
    Announced k .created (fun _ => (.outside, [])) (KernelConfig.built Thread k clock).world where
  orchestrated := orchestrated_built k clock
  inCharge _ hSome := absurd rfl hSome
  posted := Or.inl ⟨fun _ => rfl, rfl⟩
  walked := ⟨rfl, rfl, List.Pairwise.nil, fun _ hMem => nomatch hMem⟩

variable {clock : Instant} {c : KernelConfig Thread}

/-- However the calls of any number of threads interleave, a kernel walks along one of its
ways, and observers receive event, gauge and counter of each move in the order of the
moves; what they have not received yet some thread is about to tell them. -/
theorem announcements_in_order (hBuild : b.build = .ok k)
    (reach : Reachable (KernelStep Thread k) (KernelConfig.built Thread k clock) c) :
    Linked .created ((grantedMoves c.world.trace).map fun m => (m.1, m.2.1))
        c.world.shared.lifecycle.state ∧
      Route ((grantedMoves c.world.trace).map fun m => m.2.1) ∧
      ((grantedMoves c.world.trace).map fun m => m.2.2).Pairwise (· ≤ ·) ∧
      (receivedNotes c.world.trace = (grantedMoves c.world.trace).flatMap announcement ∨
        ∃ t call o next note rest, c.threads t = .running call (.perform o next) ∧
          lifecycleOutbox.publishes o = some note ∧
          receivedNotes c.world.trace ++ note :: rest = (grantedMoves c.world.trace).flatMap announcement) := by
  have hBuilt := build_wellFormed hBuild
  obtain ⟨pos, hTyped⟩ := Typestate.typed_of_reachable (T := announcingTypestate Thread hBuilt)
    (Typestate.typed_start ⟨.created, announced_built k clock⟩) reach
  obtain ⟨stage, h⟩ := hTyped.1
  refine ⟨h.walked.linked, h.walked.visited ▸ stage.visited_route, h.walked.ordered, ?_⟩
  rcases h.posted with ⟨-, hSame⟩ | ⟨t, -, hAll⟩
  · exact Or.inl hSame
  · change receivedNotes c.world.trace ++ (pos t).2 = _ at hAll
    cases hLeft : (pos t).2 with
    | nil =>
        rw [hLeft, List.append_nil] at hAll
        exact Or.inl hAll
    | cons note rest =>
        rw [hLeft] at hAll
        apply Or.inr
        cases hStatus : c.threads t with
        | idle =>
            have hRest : pos t = (Position.outside, []) := hTyped.idle hStatus
            rw [hRest] at hLeft
            cases hLeft
        | running call program =>
            cases program with
            | done r =>
                have hNone : (pos t).2 = [] := (hTyped.returned hStatus).2
                rw [hNone] at hLeft
                cases hLeft
            | perform o next =>
                obtain ⟨-, a, hSome⟩ :=
                  (permits_prod_iff Outbox.indifferent).mp (hTyped.permits hStatus)
                obtain ⟨left, hAfter⟩ := Option.isSome_iff_exists.mp hSome
                rw [hLeft] at hAfter
                rcases Outbox.after_eq_some.mp hAfter with ⟨-, hNil, -⟩ | ⟨note', hNote, hSame⟩
                · cases hNil
                · obtain ⟨rfl, rfl⟩ := List.cons.inj hSame
                  exact ⟨t, call, o, next, note, rest, hStatus, hNote, hAll⟩

/-- A kernel that was signalled runs to its end and tells of all five moves. -/
theorem announcements_in_order_run :
    ∃ k, (KernelBuilder.new "service").build = .ok k ∧
      ∃ c : KernelConfig Unit, (grantedMoves c.world.trace).length = 5 ∧
        (receivedNotes c.world.trace).length = 15 ∧
        Linked .created ((grantedMoves c.world.trace).map fun m => (m.1, m.2.1))
          c.world.shared.lifecycle.state ∧
        Route ((grantedMoves c.world.trace).map fun m => m.2.1) := by
  have hPlays : Environment.calm.plays (KernelBuilder.new "service")
      (.call () .shutdown :: .go () :: .ret () :: .call () .run :: List.replicate 122 (.go ()))
      (fun c => (grantedMoves c.world.trace).length = 5 ∧
        (receivedNotes c.world.trace).length = 15) = true := by
    decide +kernel
  obtain ⟨k, hBuild, c, reach, hAsk⟩ := Environment.reachable_of_plays hPlays
  obtain ⟨hMoves, hNotes⟩ := of_decide_eq_true hAsk
  obtain ⟨hLinked, hRoute, -⟩ := announcements_in_order hBuild reach
  exact ⟨k, hBuild, c, hMoves, hNotes, hLinked, hRoute⟩

end System

end ServiceKernel
