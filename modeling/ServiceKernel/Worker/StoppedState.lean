import Mathlib.Data.List.Induction
import ServiceKernel.Worker.Standing

/-! The state cell of a worker: whether it still reads `Stopped` once it has read it. -/
namespace ServiceKernel

open Execution

/-- The state written last. -/
def lastState (past : List SupervisorRecord) : Option WorkerState :=
  past.foldl (fun last record => match record with
    | .stateSet _ state => some state
    | _ => last) none

@[simp] theorem lastState_concat (past : List SupervisorRecord) (record : SupervisorRecord) :
    lastState (past ++ [record]) = match record with
      | .stateSet _ state => some state
      | _ => lastState past := by
  simp only [lastState, List.foldl_append, List.foldl_cons, List.foldl_nil]

/-- Over `Stopped` nothing but `Stopped` is written. -/
def StaysStopped (past : List SupervisorRecord) : SupervisorRecord → Prop
  | .stateSet _ state => lastState past = some .stopped → state = .stopped
  | _ => True

/-- What stays stopped reads `Stopped` once that was written. -/
theorem lastState_of_written {past : List SupervisorRecord} {id : WorkerId}
    (hLaw : Every StaysStopped past) (hMem : .stateSet id .stopped ∈ past) :
    lastState past = some .stopped := by
  induction past using List.reverseRecOn with
  | nil => cases hMem
  | append_singleton past record ih =>
      obtain ⟨hPast, hRecord⟩ := every_concat.mp hLaw
      rw [lastState_concat]
      rcases List.mem_append.mp hMem with hBefore | hHere
      · have hStopped := ih hPast hBefore
        cases record with
        | stateSet id state => exact congrArg some (hRecord hStopped)
        | _ => exact hStopped
      · rw [← List.mem_singleton.mp hHere]

section Records

variable {past : List SupervisorRecord} {id : WorkerId} {spec : WorkerSpec} {name : String}
  {run : Nat} {cancelled hasFailed : Bool} {outcome : SupervisorOutcome} {attempts : UInt32}
  {state : WorkerState}

/-- A spawn takes the cell out of `Stopped`. -/
theorem staysStopped_spawn : Every StaysStopped (past ++ spawnRecords id name run cancelled) ↔
    Every StaysStopped past ∧ lastState past ≠ some .stopped := by
  simp [spawnRecords, every_append, every_cons, StaysStopped, lastState]

theorem staysStopped_set (hState : state ≠ .stopped) :
    Every StaysStopped (past ++ [SupervisorRecord.stateSet id state]) ↔
      Every StaysStopped past ∧ lastState past ≠ some .stopped := by
  simp [StaysStopped, hState]

/-- Judging an outcome leaves the cell alone. -/
theorem staysStopped_judge :
    Every StaysStopped (past ++ judgeRecords id spec run outcome attempts) ↔
      Every StaysStopped past := by
  cases outcome <;>
    simp [judgeRecords, SupervisorOutcome.hasFailed, every_append, every_cons, StaysStopped]

theorem staysStopped_retire : Every StaysStopped (past ++ retireRecords id name hasFailed) ↔
    Every StaysStopped past := by
  cases hasFailed <;> simp [retireRecords, every_append, every_cons, StaysStopped]

theorem staysStopped_close (state : WorkerState) (event : WorkerLifecycleEvent) :
    Every StaysStopped (past ++ [SupervisorRecord.stateSet id state, .event event]) ↔
      Every StaysStopped past ∧ (lastState past = some .stopped → state = .stopped) := by
  simp [every_append, every_cons, StaysStopped]

@[simp] theorem lastState_spawn : lastState (past ++ spawnRecords id name run cancelled) =
    some .running := by
  simp [lastState, spawnRecords]

@[simp] theorem lastState_judge : lastState (past ++ judgeRecords id spec run outcome attempts) =
    lastState past := by
  cases outcome <;> simp [lastState, judgeRecords, SupervisorOutcome.hasFailed]

@[simp] theorem lastState_retire : lastState (past ++ retireRecords id name hasFailed) =
    some .stopped := by
  cases hasFailed <;> simp [lastState, retireRecords]

end Records

/-- The cell reads what was written last. -/
theorem Life.Stands.reads {id : WorkerId} {spec : WorkerSpec} {l : Life} {stage : WorkerStage}
    (h : l.Stands id spec stage) : l.state = (lastState l.trail).getD .created := by
  cases h with
  | fresh hState _ hTrail => rw [hState, hTrail]; rfl
  | running hState _ hTrail => rw [hState, hTrail, lastState_spawn]; rfl
  | waiting hWaits =>
      obtain ⟨hState, _, hTrail⟩ := hWaits
      rw [hState, hTrail, lastState_concat]
      rfl
  | resting hRests =>
      obtain ⟨hState, _, hTrail⟩ := hRests
      rw [hState, hTrail, lastState_retire]
      rfl
  | backingOff hWaits =>
      obtain ⟨hState, _, hTrail⟩ := hWaits
      rw [hState, hTrail, lastState_concat]
      rfl
  | stopping hState hTrail => rw [hState, hTrail]; simp [lastState]
  | ended hState hTrail => rw [hState, hTrail]; simp [lastState]

theorem Life.Stands.stopped_iff {id : WorkerId} {spec : WorkerSpec} {l : Life} {stage : WorkerStage}
    (h : l.Stands id spec stage) : lastState l.trail = some .stopped ↔ l.state = .stopped := by
  rw [h.reads]
  cases lastState l.trail with
  | none => simp
  | some state => simp

namespace Supervisor

variable {s : Supervisor} {i : WorkerId}

/-- A tick half-opens the worker's breaker, which starts a trial. -/
def HalfOpens (s : Supervisor) (nows : WorkerId → Instant) (i : WorkerId) : Prop :=
  ∃ b, (s.worker i).circuit = some b ∧ b.state = .opened ∧ (b.tick (nows i)).state = .halfOpen

/-- Nothing happens to the worker while it reads `Stopped`: no trial and no shutdown. -/
def LeftStopped (s : Supervisor) (label : SupervisorLabel) (i : WorkerId) : Prop :=
  match label with
  | .tick _ nows _ => ¬ s.HalfOpens nows i
  | .cancelObserved _ => (s.worker i).handle.state ≠ .stopped
  | _ => True

theorem settled_staysStopped {s' : Supervisor} {spec : WorkerSpec} {run : Nat}
    {outcome : SupervisorOutcome} {attempts : UInt32} {now : Instant} {l : Life}
    (hLaw : Every StaysStopped l.trail) (hRunning : lastState l.trail ≠ some .stopped)
    (hSettled : Settled s' i spec outcome.hasFailed (l.judge i spec run outcome attempts now)) :
    Every StaysStopped (s'.life i).trail := by
  have hJudged : Every StaysStopped (l.judge i spec run outcome attempts now).trail :=
    staysStopped_judge.mpr hLaw
  have hLast : lastState (l.judge i spec run outcome attempts now).trail ≠ some .stopped := by
    rw [Life.judge, Life.add, lastState_judge]
    exact hRunning
  have hWait : Every StaysStopped ((l.judge i spec run outcome attempts now).wait i).trail :=
    (staysStopped_set (by decide)).mpr ⟨hJudged, hLast⟩
  cases hSettled with
  | retired hRefused hPhase hLife =>
      rw [hLife]
      exact staysStopped_retire.mpr hJudged
  | waiting hAllowed hClosed hDelay hPhase hLife =>
      rw [hLife]
      exact hWait
  | restarted hAllowed hClosed hDelay hPhase hLife =>
      rw [hLife]
      refine staysStopped_spawn.mpr ⟨every_concat.mpr ⟨hWait, trivial⟩, ?_⟩
      rw [Life.add, lastState_concat, Life.wait, Life.add, lastState_concat]
      exact fun h => by cases h

theorem leftStopped_decides : Decides (fun _ _ => StaysStopped) LeftStopped := by
  intro s s' label i hAudited hMem hStep hLaw
  have hStands := hAudited.stands i hMem
  have hReads := hStands.stopped_iff
  cases hStep with
  | begun hFrom hTo hLife =>
      refine iff_of_true ?_ trivial
      rw [Stands, hFrom] at hStands
      cases hStands with
      | fresh hState _ hTrail =>
          rw [hLife]
          refine staysStopped_spawn.mpr ⟨hLaw, ?_⟩
          rw [hTrail]
          exact fun h => by cases h
  | ticked hKeep hFrom hTo hLife =>
      refine iff_of_true ?_ fun hHalf => hKeep (mem_closedToHalfOpen.mpr ⟨hMem, hHalf⟩)
      rw [hLife]
      exact hLaw
  | tried hHalf hFrom hTo hLife =>
      refine iff_of_false ?_ fun hCond => hCond (mem_closedToHalfOpen.mp hHalf).2
      obtain ⟨hState, _⟩ := hStands.rests hAudited.books hMem hFrom (closedToHalfOpen_suppressed hHalf)
      rw [hLife]
      exact fun h => (staysStopped_spawn.mp h).2 (hReads.mpr hState)
  | settled hFrom hTask hOwner hOutcome hSettled =>
      refine iff_of_true ?_ trivial
      obtain ⟨-, -, before, cancelled, hTrail⟩ := hStands.running_of_task hFrom hTask hOwner
      refine settled_staysStopped ?_ ?_ hSettled
      · exact hLaw
      · rw [hTrail, lastState_spawn]
        decide
  | resumed hFrom hTo hLife =>
      refine iff_of_true ?_ trivial
      obtain ⟨_, _, hTrail⟩ := hStands.waits hFrom
      rw [hLife]
      refine staysStopped_spawn.mpr ⟨every_concat.mpr ⟨hLaw, trivial⟩, ?_⟩
      rw [Life.add, lastState_concat, hTrail, lastState_concat]
      exact fun h => by cases h
  | stopping hFrom hTo hLife =>
      rw [hLife]
      refine (staysStopped_close _ _).trans ⟨fun hClose hState => ?_, fun hCond => ?_⟩
      · cases hClose.2 (hReads.mpr hState)
      · exact ⟨hLaw, fun hLast => absurd (hReads.mp hLast) hCond⟩
  | joinedLate hFrom hTo hLife =>
      refine iff_of_true ?_ trivial
      rw [hLife]
      exact hLaw
  | stopped hFrom hTo hLife =>
      refine iff_of_true ?_ trivial
      rw [hLife]
      exact (staysStopped_close _ _).mpr ⟨hLaw, fun _ => rfl⟩
  | spared hSpares hStage hLife =>
      rw [hLife]
      apply iff_of_true hLaw
      cases label with
      | tick => exact hSpares.elim
      | cancelObserved => exact hSpares.elim
      | _ => trivial

/-- Once the worker's cell has read `Stopped`, nothing else is written to it and it
still reads `Stopped`. -/
structure StoppedTerminal (s : Supervisor) (i : WorkerId) : Prop where
  writes : Every StaysStopped (trail i s.history)
  reads : .stateSet i .stopped ∈ s.history → (s.worker i).handle.state = .stopped

theorem stoppedTerminal_iff (h : s.Stands i) :
    s.StoppedTerminal i ↔ Every StaysStopped (trail i s.history) := by
  refine ⟨fun hTerminal => hTerminal.writes, fun hLaw => ⟨hLaw, fun hWritten => ?_⟩⟩
  have hMem : .stateSet i .stopped ∈ trail i s.history :=
    List.mem_filter.mpr ⟨hWritten, decide_eq_true rfl⟩
  exact h.stopped_iff.mp (lastState_of_written hLaw hMem)

end Supervisor

/-- The runs in which `Stopped` is terminal for every worker are exactly the runs in
which no tick half-opens a breaker and no worker reads `Stopped` when the
shutdown begins. -/
theorem stopped_terminal_iff (T : TaskIds) (roster : Roster) (labels : List SupervisorLabel)
    (finish : Supervisor) :
    Runs (Within (SupervisorStep T) fun s => ∀ i ∈ s.ids, s.StoppedTerminal i) (.new roster)
        labels finish ↔
      Runs (Restrict (SupervisorStep T) fun s label => ∀ i ∈ s.ids, s.LeftStopped label i)
        (.new roster) labels finish :=
  Supervisor.leftStopped_decides.runs_iff
    (fun _ hAudited => forall₂_congr fun i hMem =>
      Supervisor.stoppedTerminal_iff (hAudited.stands i hMem))
    roster labels finish

/-- A worker completes and is stopped; the shutdown then sets its state to `Stopping`. -/
theorem stopped_worker_stopping :
    ¬ ∀ s, Reachable (SupervisorStep .counting) (.new (.single (.new "alpha") .sync)) s →
      ∀ i ∈ s.ids, s.StoppedTerminal i := by
  intro hClaim
  obtain ⟨s, hRun, hMem, hWritten, hState⟩ : ∃ s : Supervisor,
      replay (Supervisor.exec .counting) (.new (.single (.new "alpha") .sync))
        [.start, .finish 0 .ok, .join 0 none 0, .cancel, .cancelObserved 0] = some s ∧
      1 ∈ s.ids ∧ .stateSet 1 .stopped ∈ s.history ∧ (s.worker 1).handle.state = .stopping :=
    ⟨_, rfl, by decide, by decide, rfl⟩
  have hReads := (hClaim s (runs_of_replay hRun).reachable 1 hMem).reads hWritten
  rw [hState] at hReads
  cases hReads

end ServiceKernel
