import Mathlib.Algebra.Order.BigOperators.Group.List
import Mathlib.Algebra.Order.Group.Nat
import ServiceKernel.Semantics.Variant
import ServiceKernel.Worker.Drains
import ServiceKernel.Worker.LoopEnd

/-! That a cancelled supervisor returns. What is left for it to do is bounded by the tasks in
its join set and by those it may still spawn before it looks at its token. -/
namespace ServiceKernel

open Execution

/-- What is left of a task: to end, and to be joined. -/
def Task.stepsLeft (task : Task) : Nat := if task.result.isNone then 2 else 1

/-- The steps that the supervisor or a task of its join set takes on the way to its return. -/
def SupervisorLabel.advances : SupervisorLabel → Bool
  | .heartbeat _ _ => false
  | .cancel => false
  | .cancelWorker _ => false
  | _ => true

theorem SupervisorLabel.advances_of_isOwn {label : SupervisorLabel} (h : label.isOwn = true) :
    label.advances = true := by
  cases label <;> first | rfl | cases h

namespace Supervisor

def workload (tasks : List Task) : Nat := (tasks.map Task.stepsLeft).sum

/-- What is left of the run of a supervisor whose token is cancelled. Until it looks at the
token it may spawn every worker once (`start`, or the trials of a tick), or the one
whose backoff it waits out. -/
def stepsLeft (s : Supervisor) : Nat :=
  workload s.joinSet + match s.phase with
    | .notStarted => 2 * s.ids.length + 4
    | .idle => 2 * s.ids.length + 4
    | .backoff _ _ _ _ => 6
    | .head => 3
    | .draining _ _ _ => 2
    | .aborting _ _ => 1
    | .returned _ _ => 0

/-- The grace period has expired, and the tasks that are left all still run. -/
structure AwaitsAborted (s : Supervisor) : Prop where
  phase : ∃ drained aborted, s.phase = .aborting drained aborted
  left : s.joinSet ≠ []
  running : ∀ task ∈ s.joinSet, task.result = none

/-- The supervisor has returned, knows of no task and reads stopped for every worker. -/
structure Returned (s : Supervisor) : Prop where
  phase : ∃ drained aborted, s.phase = .returned drained aborted
  joined : s.joinSet = []
  cleared : s.taskToWorker = ∅
  stopped : ∀ id ∈ s.ids, (s.worker id).handle.state = .stopped

variable {T : TaskIds} {s s' : Supervisor} {label : SupervisorLabel} {roster : Roster}

theorem workload_append (tasks more : List Task) :
    workload (tasks ++ more) = workload tasks + workload more := by
  simp [workload]

/-- A joined task is off the list. -/
theorem workload_removeTask {task : Task} (hMem : task ∈ s.joinSet) :
    workload (s.removeTask task).joinSet < workload s.joinSet := by
  obtain ⟨front, back, hSplit⟩ := List.append_of_mem hMem
  have hLess : ∀ tasks : List Task, workload (tasks.filter fun t => t.id ≠ task.id) ≤ workload tasks :=
    fun tasks => (List.filter_sublist.map _).sum_le_sum fun _ _ => Nat.zero_le _
  have hFront := hLess front
  have hBack := hLess back
  have hOne : 1 ≤ task.stepsLeft := by
    unfold Task.stepsLeft
    split_ifs <;> omega
  have hTask : workload (task :: back) = task.stepsLeft + workload back := rfl
  simp only [removeTask, hSplit, List.filter_append, List.filter_cons, ne_eq, not_true_eq_false,
    decide_false, Bool.false_eq_true, if_false, workload_append, hTask]
  simp only [ne_eq] at hFront hBack
  omega

/-- A task that ends is still to be joined. -/
theorem workload_endTask {run : Nat} {result : Task → JoinResult} {task : Task}
    (hTask : s.findTask run = some task) (hRunning : task.result = none) :
    workload (s.endTask run result).joinSet < workload s.joinSet := by
  obtain ⟨hMem, hRun⟩ := findTask_mem hTask
  simp only [workload, endTask, List.map_map]
  apply List.sum_lt_sum
  · intro t _
    simp only [Function.comp]
    split_ifs
    · simp only [Task.stepsLeft, Option.isNone_some, Bool.false_eq_true, if_false]
      split_ifs <;> omega
    · exact Nat.le_refl _
  · refine ⟨task, hMem, ?_⟩
    simp [Task.stepsLeft, hRun, hRunning]

theorem workload_spawnOne (id : WorkerId) :
    workload (s.spawnOne T id).joinSet ≤ workload s.joinSet + 2 := by
  by_cases hMem : id ∈ s.ids
  · have hSet : (s.spawnOne T id).joinSet = (s.tasks.spawn T id).joinSet :=
      congrArg TaskTable.joinSet (tasks_spawnOne hMem)
    rw [hSet, TaskTable.spawn, workload_append]
    exact Nat.le_refl _
  · rw [spawnOne, if_neg hMem]
    exact Nat.le_add_right _ _

theorem workload_startTrial (id : WorkerId) :
    workload (s.startTrial T id).joinSet ≤ workload s.joinSet + 2 := by
  unfold startTrial spawnOneIfIdle
  simp only []
  split_ifs
  · exact Nat.le_add_right _ _
  · exact workload_spawnOne (s := s.emit _) id

/-- A loop that spawns at most one task in each pass. -/
theorem workload_foldl (ids : List WorkerId) {f : Supervisor → WorkerId → Supervisor}
    (hPass : ∀ st id, workload (f st id).joinSet ≤ workload st.joinSet + 2) :
    workload (ids.foldl f s).joinSet ≤ workload s.joinSet + 2 * ids.length := by
  induction ids generalizing s with
  | nil => exact Nat.le_refl _
  | cons id ids ih =>
      have hFirst := hPass s id
      have hRest := ih (s := f s id)
      rw [List.foldl_cons, List.length_cons]
      omega

theorem workload_watchdogTick (wall : Option Nat) (nows : WorkerId → Instant) :
    workload (s.watchdogTick T wall nows).joinSet ≤ workload s.joinSet + 2 * s.ids.length := by
  obtain ⟨-, hTasks, -⟩ := reportTimeouts_spec
    (s := (s.closedToHalfOpen nows).foldl (fun s id => s.startTrial T id) (s.tickBreakers nows))
    (Watchdog.check s.watchdogTargets (unixNanos wall))
  have hSet : (s.watchdogTick T wall nows).joinSet = _ := congrArg TaskTable.joinSet hTasks
  have hTrials := workload_foldl (s.closedToHalfOpen nows) (s := s.tickBreakers nows)
    (f := fun s id => s.startTrial T id) fun st id => workload_startTrial id
  have hCount : (s.closedToHalfOpen nows).length ≤ s.ids.length := List.length_filter_le _ _
  have hSame : workload (s.tickBreakers nows).joinSet = workload s.joinSet := rfl
  rw [hSet]
  simp only [tasks] at hTrials ⊢
  omega

theorem joinSet_foldl {f : Supervisor → WorkerId → Supervisor}
    (hPass : ∀ st id, (f st id).frame = st.frame ∧ (f st id).tasks = st.tasks) :
    (s.ids.foldl f s).joinSet = s.joinSet :=
  congrArg TaskTable.joinSet (closing_spec (s := s) (f := f) hPass).2

/-- Every step of a cancelled supervisor or of one of its tasks leaves less to be done. -/
theorem stepsLeft_falls (hCancelled : s.cancelled = true) (hStep : SupervisorStep T s label s')
    (hAdvances : label.advances = true) : s'.stepsLeft < s.stepsLeft := by
  cases takes_of_step hStep with
  | start hPhase =>
      have hSpawned := workload_foldl s.ids (s := s) (f := fun s id => s.spawnOne T id)
        fun st id => workload_spawnOne id
      simp only [stepsLeft, hPhase]
      omega
  | @tick wall nows after hPhase =>
      have hIdle : s.phase = .idle := by simpa [hCancelled] using hPhase
      have hTicked := workload_watchdogTick (T := T) (s := s) wall nows
      simp only [stepsLeft, hIdle]
      omega
  | join hPhase hRunning =>
      rw [hCancelled] at hRunning
      cases hRunning
  | joinNone => simp [SupervisorStep, exec, hCancelled] at hStep
  | @backoffElapsed id name attempts due now hPhase =>
      let ready : Supervisor := { s with clock := now }
      have hSpawned : workload (ready.restartNow T id name attempts).joinSet ≤
          workload s.joinSet + 2 := workload_spawnOne id
      have hBefore : s.stepsLeft = workload s.joinSet + 6 := by simp only [stepsLeft, hPhase]
      show workload (ready.restartNow T id name attempts).joinSet + 3 < s.stepsLeft
      omega
  | backoffCancelled hPhase =>
      simp only [stepsLeft, hPhase]
      omega
  | cancelObserved hPhase =>
      have hSet := joinSet_foldl (s := s) (f := stopWorker)
        fun st key => ⟨by simp [stopWorker], by simp [stopWorker]⟩
      rcases hPhase with hPhase | hPhase <;> simp only [stepsLeft, hPhase, hSet] <;> omega
  | drain hPhase hTask hResult | drainAborting hPhase hTask hResult =>
      have hFewer := workload_removeTask (s := s) (findTask_mem hTask).1
      simp only [stepsLeft, hPhase]
      omega
  | graceExpired hPhase =>
      simp only [stepsLeft, hPhase]
      omega
  | drained hPhase =>
      have hSet := joinSet_foldl (s := s) (f := markStopped)
        fun st key => ⟨by simp [markStopped], by simp [markStopped]⟩
      rcases hPhase with hPhase | ⟨deadline, hPhase⟩ <;>
        simp only [stepsLeft, hPhase, hSet] <;> omega
  | finish hTask hRunning | abort hPhase hTask hRunning =>
      exact Nat.add_lt_add_right (workload_endTask hTask hRunning) _
  | heartbeat | cancel | cancelWorker => cases hAdvances

/-- What is left to be done is a variant of a cancelled supervisor. -/
theorem stepsLeft_variant (T : TaskIds) (roster : Roster) :
    Variant (SupervisorStep T) SupervisorLabel.advances
      (fun s => Reachable (SupervisorStep T) (.new roster) s ∧ s.cancelled = true) stepsLeft where
  keeps _ _ _ h hStep := ⟨h.1.tail hStep, cancelled_durable.step h.2 hStep⟩
  falls _ _ _ h hStep hAdvances := stepsLeft_falls h.2 hStep hAdvances
  holds s label s' _ hStep hOther := by
    cases takes_of_step hStep with
    | heartbeat | cancel | cancelWorker => exact Nat.le_refl _
    | _ => cases hOther

theorem returned_of_reachable (reach : Reachable (SupervisorStep T) (.new roster) s)
    (hPhase : ∃ drained aborted, s.phase = .returned drained aborted) : s.Returned := by
  obtain ⟨drained, aborted, hReturned⟩ := hPhase
  obtain ⟨hCleared, hStopped⟩ := cleared_of_reachable reach hReturned
  refine ⟨⟨drained, aborted, hReturned⟩, ?_, hCleared, hStopped⟩
  have hBooks := books_of_reachable reach
  rw [List.eq_nil_iff_forall_not_mem]
  intro task hMem
  have hFiled : s.taskToWorker.lookup task.id = some task.worker := hBooks.consistent.lookup hMem
  rw [hCleared] at hFiled
  cases hFiled

/-- Short of its return, a cancelled supervisor has a step of its own to take, or waits for
the last tasks to be aborted. -/
theorem own_step_of_cancelled (reach : Reachable (SupervisorStep T) (.new roster) s)
    (hCancelled : s.cancelled = true) :
    s.Returned ∨ (∃ label s', label.isOwn = true ∧ SupervisorStep T s label s') ∨
      s.AwaitsAborted := by
  have hBooks := books_of_reachable reach
  cases hPhase : s.phase with
  | notStarted =>
      exact Or.inr (Or.inl ⟨.start, _, rfl, if_pos hPhase⟩)
  | head | idle =>
      refine Or.inr (Or.inl ⟨.cancelObserved s.clock, _, rfl, if_pos ⟨?_, hCancelled, Nat.le_refl _⟩⟩)
      simp [atLoop, hPhase]
  | backoff id name attempts due =>
      refine Or.inr (Or.inl ⟨.backoffCancelled, { s with phase := .head }, rfl, ?_⟩)
      simp [SupervisorStep, exec, hPhase, hCancelled]
  | draining drained aborted deadline =>
      right
      left
      by_cases hEmpty : s.joinSet = []
      · refine ⟨.drained, { s.ids.foldl markStopped s with phase := .returned drained aborted }, rfl, ?_⟩
        simp [SupervisorStep, exec, hPhase, hEmpty]
      · let late := max deadline s.clock
        refine ⟨.graceExpired late, { s with phase := .aborting drained aborted, clock := late }, rfl, ?_⟩
        have hDue : deadline ≤ late := Nat.le_max_left _ _
        have hClock : s.clock ≤ late := Nat.le_max_right _ _
        simp [SupervisorStep, exec, hPhase, hEmpty, hDue, hClock]
  | aborting drained aborted =>
      right
      by_cases hEmpty : s.joinSet = []
      · left
        refine ⟨.drained, { s.ids.foldl markStopped s with phase := .returned drained aborted }, rfl, ?_⟩
        simp [SupervisorStep, exec, hPhase, hEmpty]
      · by_cases hRunning : ∀ task ∈ s.joinSet, task.result = none
        · exact Or.inr ⟨⟨drained, aborted, hPhase⟩, hEmpty, hRunning⟩
        · left
          obtain ⟨task, hRunning⟩ := not_forall.mp hRunning
          obtain ⟨hMem, hEnded⟩ := Classical.not_imp.mp hRunning
          obtain ⟨result, hResult⟩ := Option.ne_none_iff_exists'.mp hEnded
          refine ⟨.drain task.run, { s.removeTask task with
            phase := .aborting (countJoined result drained aborted).1
              (countJoined result drained aborted).2 }, rfl, ?_⟩
          simp [SupervisorStep, exec, findTask_of_mem hBooks hMem, hResult, hPhase]
  | returned drained aborted =>
      exact Or.inl (returned_of_reachable reach ⟨drained, aborted, hPhase⟩)

/-- Whatever a supervisor waits for can be had of one of its tasks: an async one is aborted,
a sync one, which Tokio does not abort while it runs, returns by itself. -/
theorem ending_of_awaits (hBooks : Supervisor.Books s) (h : s.AwaitsAborted) :
    ∃ label s', label.advances = true ∧ SupervisorStep T s label s' := by
  obtain ⟨drained, aborted, hPhase⟩ := h.phase
  obtain ⟨task, rest, hSet⟩ := List.exists_cons_of_ne_nil h.left
  have hMem : task ∈ s.joinSet := by simp [hSet]
  have hFound := findTask_of_mem hBooks hMem
  have hRunning := h.running task hMem
  cases (s.worker task.worker).runner with
  | sync =>
      let result : Task → JoinResult := fun t => (s.worker t.worker).runner.run t.worker .ok
      refine ⟨.finish task.run .ok, s.endTask task.run result, rfl, ?_⟩
      simp [SupervisorStep, exec, hFound, hRunning, result]
  | async =>
      refine ⟨.abort task.run, s.endTask task.run fun _ => .cancelled, rfl, ?_⟩
      simp [SupervisorStep, exec, hPhase, hFound, hRunning]

/-- A cancelled supervisor and its tasks can bring it to its return. -/
theorem returns_of_cancelled (reach : Reachable (SupervisorStep T) (.new roster) s)
    (hCancelled : s.cancelled = true) :
    ∃ labels finish, Runs (Restrict (SupervisorStep T) fun _ label => label.advances = true)
      s labels finish ∧ finish.Returned := by
  refine (stepsLeft_variant T roster).attains Returned (fun st h hNot => ?_) ⟨reach, hCancelled⟩
  rcases own_step_of_cancelled h.1 h.2 with hDone | ⟨label, st', hOwn, hStep⟩ | hAwaits
  · exact absurd hDone hNot
  · exact ⟨label, st', SupervisorLabel.advances_of_isOwn hOwn, hStep⟩
  · exact ending_of_awaits (books_of_reachable h.1) hAwaits

end Supervisor

/-- Once its token is cancelled, a supervisor returns: from every state of every run, at
most `stepsLeft` further steps of its own and of its tasks are left; until it has returned
it is never without a step of its own, unless it waits for tasks that were told to abort;
and such steps alone bring it to its return. -/
theorem cancelled_returns (T : TaskIds) (roster : Roster) {s s' : Supervisor}
    {labels : List SupervisorLabel} (reach : Reachable (SupervisorStep T) (.new roster) s)
    (hCancelled : s.cancelled = true) (run : Runs (SupervisorStep T) s labels s') :
    labels.countP SupervisorLabel.advances + s'.stepsLeft ≤ s.stepsLeft ∧
    (s'.Returned ∨ (∃ label s'', label.isOwn = true ∧ SupervisorStep T s' label s'') ∨
      s'.AwaitsAborted) ∧
    ∃ more finish, Runs (Restrict (SupervisorStep T) fun _ label => label.advances = true)
      s' more finish ∧ finish.Returned := by
  obtain ⟨⟨hReach, hStill⟩, hBound⟩ :=
    (Supervisor.stepsLeft_variant T roster).bound ⟨reach, hCancelled⟩ run
  exact ⟨hBound, Supervisor.own_step_of_cancelled hReach hStill,
    Supervisor.returns_of_cancelled hReach hStill⟩

/-- A worker that is cancelled in its first run keeps its supervisor busy for five steps. -/
theorem cancelled_returns_watched : ∃ (s s' : Supervisor) (labels : List SupervisorLabel),
    s.stepsLeft = 5 ∧ s'.stepsLeft = 2 ∧ labels.length = 3 ∧
    labels.countP SupervisorLabel.advances + s'.stepsLeft ≤ s.stepsLeft ∧
    ∃ more finish, Runs (Restrict (SupervisorStep .counting) fun _ label => label.advances = true)
      s' more finish ∧ finish.Returned := by
  obtain ⟨s, s', hBefore, hAfter, hLeft, hLeft', hCancelled⟩ : ∃ s s' : Supervisor,
      replay (Supervisor.exec .counting) (.new (.single .watched .sync)) [.start, .cancel] = some s ∧
      replay (Supervisor.exec .counting) s [.cancelObserved 0, .finish 0 .ok, .drain 0] = some s' ∧
      s.stepsLeft = 5 ∧ s'.stepsLeft = 2 ∧ s.cancelled = true := ⟨_, _, rfl, rfl, rfl, rfl, rfl⟩
  obtain ⟨hBound, -, hReturns⟩ := cancelled_returns .counting (.single .watched .sync)
    (runs_of_replay hBefore).reachable hCancelled (runs_of_replay hAfter)
  exact ⟨s, s', _, hLeft, hLeft', rfl, hBound, hReturns⟩

end ServiceKernel
