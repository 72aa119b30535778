import ServiceKernel.Semantics.Ghost
import ServiceKernel.Shutdown.Drain
import ServiceKernel.Worker.Bookkeeping

/-! `shutdown_all` from the step in which the loop observes cancellation: no worker is
spawned, and every task of the join set is joined and counted once. -/
namespace ServiceKernel

open Execution

/-- The result as `shutdown::drain` would see it. -/
def JoinResult.toEnd : JoinResult → JoinEnd (WorkerId × SupervisorOutcome)
  | .returned id outcome => .ok (id, outcome)
  | .panicked _ => .panicked
  | .cancelled => .cancelled

/-- The tasks a drain has joined, before its grace period expired and after. -/
structure Joins where
  before : List JoinResult
  after : List JoinResult

namespace Joins

def none : Joins := ⟨[], []⟩

def all (g : Joins) : List JoinResult := g.before ++ g.after

/-- A task that is joined adds its result. -/
def update (g : Joins) (s : Supervisor) (label : SupervisorLabel) (_ : Supervisor) : Joins :=
  match label with
  | .drain run => match (s.findTask run).bind Task.result, s.phase with
    | some result, .draining _ _ _ => { g with before := g.before ++ [result] }
    | some result, _ => { g with after := g.after ++ [result] }
    | Option.none, _ => g
  | _ => g

end Joins

namespace Supervisor

/-- The two counts after joining these tasks. -/
def tally (results : List JoinResult) : Nat × Nat :=
  results.foldl (fun counts result => countJoined result counts.1 counts.2) (0, 0)

theorem tally_concat (results : List JoinResult) (result : JoinResult) :
    tally (results ++ [result]) = countJoined result (tally results).1 (tally results).2 := by
  simp [tally]

/-- Only a cancelled task counts as aborted. -/
theorem tally_eq (results : List JoinResult) :
    tally results = ((results.map JoinResult.toEnd).countP JoinEnd.isOk +
      (results.map JoinResult.toEnd).countP JoinEnd.isPanicked,
      (results.map JoinResult.toEnd).countP JoinEnd.isCancelled) := by
  induction results using List.reverseRecOn with
  | nil => rfl
  | append_singleton results result ih =>
      rw [tally_concat, ih]
      simp only [List.map_append, List.countP_append, List.map_cons, List.map_nil]
      cases result <;>
        simp [countJoined, JoinResult.toEnd, JoinEnd.isOk, JoinEnd.isPanicked, JoinEnd.isCancelled]
        <;> omega

theorem tally_total (results : List JoinResult) :
    (tally results).1 + (tally results).2 = results.length := by
  rw [tally_eq, countP_ends, List.length_map]

/-- The tasks can be told apart by their ids and by their runs. -/
structure Distinct (tasks : List Task) : Prop where
  ids : (tasks.map Task.id).Nodup
  runs : (tasks.map Task.run).Nodup

theorem Distinct.sublist {tasks others : List Task} (h : Distinct others)
    (hSub : tasks.Sublist others) : Distinct tasks :=
  ⟨h.ids.sublist (hSub.map _), h.runs.sublist (hSub.map _)⟩

section Closing

variable {T : TaskIds} {s₀ s s' : Supervisor} {g : Joins} {label : SupervisorLabel} {id : WorkerId}

/-- The counts of a shutdown that has joined these tasks, and what holds at its end. -/
def Counted (s : Supervisor) (g : Joins) : Prop :=
  match s.phase with
  | .draining drained aborted _ => g.after = [] ∧ (drained, aborted) = tally g.before
  | .aborting drained aborted => (drained, aborted) = tally g.all
  | .returned drained aborted => s.joinSet = [] ∧ (drained, aborted) = tally g.all ∧
      ∀ id ∈ s.ids, (s.worker id).handle.state = .stopped
  | _ => False

/-- The supervisor has observed cancellation in `s₀` and has since joined these tasks. -/
structure Closing (s₀ s : Supervisor) (g : Joins) : Prop where
  distinct : Distinct s.joinSet
  total : g.all.length + s.joinSet.length = s₀.joinSet.length
  counted : Counted s g

theorem Closing.phase (h : Closing s₀ s g) {phase : SupervisorPhase} (hPhase : s.phase = phase) :
    phase ≠ .notStarted ∧ phase ≠ .head ∧ phase ≠ .idle ∧
      ∀ id name attempts due, phase ≠ .backoff id name attempts due := by
  have hCounted := h.counted
  rw [Counted, hPhase] at hCounted
  cases phase <;> simp_all

/-- Removing one task of the set leaves one task less. -/
theorem removeTask_length (hDistinct : (s.joinSet.map Task.id).Nodup) {task : Task}
    (hMem : task ∈ s.joinSet) : (s.removeTask task).joinSet.length + 1 = s.joinSet.length := by
  obtain ⟨front, back, hSplit⟩ := List.append_of_mem hMem
  rw [hSplit, List.map_append, List.map_cons] at hDistinct
  have hFront : ∀ other ∈ front, other.id ≠ task.id := by
    intro other hOther hSame
    have hApart := (List.nodup_append.mp hDistinct).2.2
    exact hApart _ (List.mem_map_of_mem hOther) _ List.mem_cons_self hSame
  have hBack : ∀ other ∈ back, other.id ≠ task.id := by
    intro other hOther hSame
    have hHead := (List.nodup_cons.mp (List.nodup_append.mp hDistinct).2.1).1
    exact hHead (hSame ▸ List.mem_map_of_mem hOther)
  have hKept : (s.removeTask task).joinSet = front ++ back := by
    simp only [removeTask, hSplit, List.filter_append, List.filter_cons]
    rw [List.filter_eq_self.mpr fun other hOther => by simpa using hFront other hOther,
      List.filter_eq_self.mpr fun other hOther => by simpa using hBack other hOther]
    simp
  rw [hKept, hSplit]
  simp
  omega

/-- Ending a task changes nothing but its result. -/
theorem map_endTask {α : Type} {f : Task → α}
    (hSame : ∀ task result, f { task with result := result } = f task) {run : Nat}
    {result : Task → JoinResult} :
    (s.endTask run result).joinSet.map f = s.joinSet.map f := by
  simp only [Supervisor.endTask, List.map_map]
  apply List.map_congr_left
  intro task _
  simp only [Function.comp]
  split_ifs
  · exact hSame task _
  · rfl

theorem Distinct.endTask (h : Distinct s.joinSet) {run : Nat} {result : Task → JoinResult} :
    Distinct (s.endTask run result).joinSet where
  ids := by
    rw [map_endTask fun _ _ => rfl]
    exact h.ids
  runs := by
    rw [map_endTask fun _ _ => rfl]
    exact h.runs

/-- Ending a task keeps the set. -/
theorem Closing.endTask (h : Closing s₀ s g) {run : Nat} {result : Task → JoinResult}
    (hSome : s.joinSet ≠ []) : Closing s₀ (s.endTask run result) g where
  distinct := h.distinct.endTask
  total := by
    simp only [Supervisor.endTask, List.length_map]
    exact h.total
  counted := by
    have hCounted := h.counted
    unfold Counted at hCounted ⊢
    simp only [Supervisor.endTask]
    split at hCounted
    · simp [*]
    · simp [*]
    · exact absurd hCounted.1 hSome
    · cases hCounted

/-- What does not touch the tasks or the states of the workers does not matter. -/
theorem Closing.of_same (h : Closing s₀ s g) (hTasks : s'.joinSet = s.joinSet)
    (hPhase : s'.phase = s.phase) (hIds : s'.ids = s.ids)
    (hState : ∀ i, (s'.worker i).handle.state = (s.worker i).handle.state) :
    Closing s₀ s' g where
  distinct := hTasks ▸ h.distinct
  total := hTasks ▸ h.total
  counted := by
    have hCounted := h.counted
    unfold Counted at hCounted ⊢
    rw [hPhase, hTasks, hIds]
    simpa only [hState] using hCounted

/-- One more task is joined. -/
theorem Closing.remove (h : Closing s₀ s g) {task : Task} (hMem : task ∈ s.joinSet)
    {g' : Joins} {phase : SupervisorPhase} (hMore : g'.all.length = g.all.length + 1)
    (hCounted : Counted { s.removeTask task with phase := phase } g') :
    Closing s₀ { s.removeTask task with phase := phase } g' where
  distinct := h.distinct.sublist List.filter_sublist
  total := by
    have hLess := removeTask_length h.distinct.ids hMem
    have hTotal := h.total
    show g'.all.length + (s.removeTask task).joinSet.length = s₀.joinSet.length
    omega
  counted := hCounted

/-- The last loop of `shutdown_all` leaves every worker stopped. -/
theorem markStopped_state (ids : List WorkerId) (h : id ∈ ids ∨
    (s.worker id).handle.state = .stopped) :
    ((ids.foldl markStopped s).worker id).handle.state = .stopped := by
  induction ids generalizing s with
  | nil => exact h.resolve_left List.not_mem_nil
  | cons first rest ih =>
      apply ih
      by_cases hHere : id = first
      · subst hHere
        exact Or.inr (by simp [markStopped, setState, modifyWorker, emit, log])
      · refine h.imp (fun hMem => ?_) fun hStopped => ?_
        · exact (List.mem_cons.mp hMem).resolve_left hHere
        · simpa [markStopped, setState, modifyWorker, emit, log, hHere] using hStopped

/-- The shutdown ends when the set is empty. -/
theorem Closing.returns (h : Closing s₀ s g) (hEmpty : s.joinSet = []) {drained aborted : Nat}
    (hTally : (drained, aborted) = tally g.all) :
    Closing s₀ { s.ids.foldl markStopped s with phase := .returned drained aborted } g := by
  obtain ⟨hFrame, hTasks⟩ := closing_spec (s := s) (f := markStopped)
    fun st key => ⟨by simp [markStopped], by simp [markStopped]⟩
  have hSet : (s.ids.foldl markStopped s).joinSet = s.joinSet := congrArg TaskTable.joinSet hTasks
  refine ⟨hSet ▸ h.distinct, hSet ▸ h.total, hSet.trans hEmpty, hTally, fun id hMem => ?_⟩
  have hIds : (s.ids.foldl markStopped s).ids = s.ids := congrArg Frame.ids hFrame
  exact markStopped_state s.ids (Or.inl (hIds ▸ hMem))

/-- The step in which the loop observes cancellation begins the shutdown. -/
theorem Closing.begins {now : Instant} (hDistinct : Distinct s.joinSet)
    (hStep : SupervisorStep T s (.cancelObserved now) s') : Closing s s' .none := by
  cases takes_of_step hStep with
  | cancelObserved hPhase hCancelled hClock =>
      obtain ⟨-, hTasks⟩ := closing_spec (s := s) (f := stopWorker)
        fun st key => ⟨by simp [stopWorker], by simp [stopWorker]⟩
      have hSet : (s.ids.foldl stopWorker s).joinSet = s.joinSet := congrArg TaskTable.joinSet hTasks
      refine ⟨hSet ▸ hDistinct, ?_, rfl, rfl⟩
      show 0 + (s.ids.foldl stopWorker s).joinSet.length = s.joinSet.length
      rw [hSet, Nat.zero_add]

/-- Every step keeps the account of the shutdown. -/
theorem Closing.step (h : Closing s₀ s g) (hStep : SupervisorStep T s label s') :
    Closing s₀ s' (g.update s label s') := by
  have hCounted := h.counted
  cases takes_of_step hStep with
  | start hPhase => exact absurd rfl (h.phase hPhase).1
  | tick hPhase =>
      rcases hPhase with ⟨hPhase, -⟩ | hPhase
      · exact absurd rfl (h.phase hPhase).2.1
      · exact absurd rfl (h.phase hPhase).2.2.1
  | join hPhase => exact absurd rfl (h.phase hPhase).2.1
  | joinNone hPhase => exact absurd rfl (h.phase hPhase).2.1
  | backoffElapsed hPhase => exact absurd rfl ((h.phase hPhase).2.2.2 _ _ _ _)
  | backoffCancelled hPhase => exact absurd rfl ((h.phase hPhase).2.2.2 _ _ _ _)
  | cancelObserved hPhase =>
      rcases hPhase with hPhase | hPhase
      · exact absurd rfl (h.phase hPhase).2.1
      · exact absurd rfl (h.phase hPhase).2.2.1
  | @drain run drained aborted deadline task result hPhase hTask hResult =>
      have hUpdate (after) : g.update s (.drain run) after = { g with before := g.before ++ [result] } := by
        simp only [Joins.update, hTask, hPhase, Option.bind_some, hResult]
      rw [Counted, hPhase] at hCounted
      rw [hUpdate]
      refine h.remove (findTask_mem hTask).1 ?_ ⟨hCounted.1, ?_⟩
      · simp [Joins.all]
        omega
      · rw [tally_concat, ← hCounted.2]
  | @drainAborting run drained aborted task result hPhase hTask hResult =>
      have hUpdate (after) : g.update s (.drain run) after = { g with after := g.after ++ [result] } := by
        simp only [Joins.update, hTask, hPhase, Option.bind_some, hResult]
      rw [Counted, hPhase] at hCounted
      rw [hUpdate]
      refine h.remove (findTask_mem hTask).1 ?_ ?_
      · simp [Joins.all]
        omega
      · show _ = tally (g.before ++ (g.after ++ [result]))
        rw [← List.append_assoc, tally_concat]
        show _ = countJoined result (tally g.all).1 (tally g.all).2
        rw [← hCounted]
  | graceExpired hPhase hDue hClock =>
      rw [Counted, hPhase] at hCounted
      refine ⟨h.distinct, h.total, ?_⟩
      show _ = tally (g.before ++ g.after)
      rw [hCounted.1, List.append_nil]
      exact hCounted.2
  | @drained drained aborted hPhase hEmpty =>
      apply h.returns hEmpty
      rcases hPhase with hPhase | ⟨deadline, hPhase⟩
      · rw [Counted, hPhase] at hCounted
        exact hCounted
      · rw [Counted, hPhase] at hCounted
        show _ = tally (g.before ++ g.after)
        rw [hCounted.1, List.append_nil]
        exact hCounted.2
  | finish hTask hRunning => exact h.endTask (List.ne_nil_of_mem (findTask_mem hTask).1)
  | abort hPhase hTask hRunning => exact h.endTask (List.ne_nil_of_mem (findTask_mem hTask).1)
  | @heartbeat run wall id hContext =>
      refine h.of_same rfl rfl rfl fun i => ?_
      simp only [log, modifyWorker]
      by_cases hHere : i = id
      · simp [hHere]
      · simp [hHere]
  | cancel => exact h.of_same rfl rfl rfl fun _ => rfl
  | @cancelWorker id hMem =>
      refine h.of_same rfl rfl rfl fun i => ?_
      simp only [log, cancelWorkerToken, modifyWorker]
      by_cases hHere : i = id
      · simp [hHere]
      · simp [hHere]

/-- The supervisor is out of its loop, or will leave it at its next turn. -/
def Leaving (s : Supervisor) : Prop :=
  match s.phase with
  | .head => s.cancelled = true
  | .draining _ _ _ => True
  | .aborting _ _ => True
  | .returned _ _ => True
  | _ => False

/-- Once cancellation was observed, nothing is spawned. -/
theorem Leaving.step (h : s.Leaving) (hStep : SupervisorStep T s label s') :
    s'.Leaving ∧ s'.contexts = s.contexts := by
  unfold Leaving at h
  cases takes_of_step hStep with
  | start hPhase => simp [hPhase] at h
  | tick hPhase =>
      rcases hPhase with ⟨hPhase, hRunning⟩ | hPhase
      · simp [hPhase, hRunning] at h
      · simp [hPhase] at h
  | join hPhase hRunning => simp [hPhase, hRunning] at h
  | joinNone hPhase =>
      have hRunning : s.cancelled = false := by
        simp only [SupervisorStep, exec, Option.ite_none_right_eq_some] at hStep
        exact hStep.1.2.1
      simp [hPhase, hRunning] at h
  | backoffElapsed hPhase => simp [hPhase] at h
  | backoffCancelled hPhase => simp [hPhase] at h
  | cancelObserved =>
      obtain ⟨-, hTasks⟩ := closing_spec (s := s) (f := stopWorker)
        fun st key => ⟨by simp [stopWorker], by simp [stopWorker]⟩
      exact ⟨trivial, congrArg TaskTable.contexts hTasks⟩
  | drained =>
      obtain ⟨-, hTasks⟩ := closing_spec (s := s) (f := markStopped)
        fun st key => ⟨by simp [markStopped], by simp [markStopped]⟩
      exact ⟨trivial, congrArg TaskTable.contexts hTasks⟩
  | drain | drainAborting | graceExpired => exact ⟨trivial, rfl⟩
  | finish | abort | heartbeat | cancelWorker => exact ⟨h, rfl⟩
  | cancel =>
      refine ⟨?_, rfl⟩
      show Leaving { s with cancelled := true }
      unfold Leaving
      split at h <;> simp_all

end Closing

section Progress

variable {T : TaskIds} {s s' : Supervisor} {g g' : Joins} {task : Task} {rest front back : List Task}
  {drained aborted : Nat} {deadline : Instant}

/-- A step of the supervisor, with the tasks its shutdown has joined. -/
abbrev ShutdownStep (T : TaskIds) : Supervisor × Joins → SupervisorLabel → Supervisor × Joins → Prop :=
  Ghosted (SupervisorStep T) Joins.update

theorem findTask_first (hSet : s.joinSet = task :: rest) : s.findTask task.run = some task := by
  simp [findTask, hSet]

theorem removeTask_first (hSet : s.joinSet = task :: rest) (hDistinct : Distinct s.joinSet) :
    (s.removeTask task).joinSet = rest := by
  rw [hSet] at hDistinct
  have hOthers : ∀ other ∈ rest, other.id ≠ task.id := by
    intro other hMem hSame
    exact (List.nodup_cons.mp hDistinct.ids).1 (hSame ▸ List.mem_map_of_mem hMem)
  simp only [removeTask, hSet, List.filter_cons]
  rw [List.filter_eq_self.mpr fun other hMem => by simpa using hOthers other hMem]
  simp

/-- Before the grace period expires, the first task is joined if it has ended. -/
theorem drain_first {result : JoinResult} (hSet : s.joinSet = task :: rest)
    (hDistinct : Distinct s.joinSet) (hResult : task.result = some result)
    (hPhase : s.phase = .draining drained aborted deadline) :
    ∃ s' drained' aborted', ShutdownStep T (s, g) (.drain task.run)
        (s', { g with before := g.before ++ [result] }) ∧
      s'.joinSet = rest ∧ s'.phase = .draining drained' aborted' deadline := by
  have hFind := findTask_first hSet
  refine ⟨{ s.removeTask task with
    phase := .draining (countJoined result drained aborted).1 (countJoined result drained aborted).2
      deadline }, _, _, ⟨?_, ?_⟩, removeTask_first hSet hDistinct, rfl⟩
  · simp [SupervisorStep, exec, hFind, hResult, hPhase]
  · simp [Joins.update, hFind, hResult, hPhase]

/-- After the abort, the first task is joined, as cancelled if it had not ended. -/
theorem drain_first_aborting (hSet : s.joinSet = task :: rest) (hDistinct : Distinct s.joinSet)
    (hPhase : s.phase = .aborting drained aborted) :
    ∃ labels s' drained' aborted', Runs (ShutdownStep T) (s, g) labels
        (s', { g with after := g.after ++ [task.result.getD .cancelled] }) ∧
      s'.joinSet = rest ∧ s'.phase = .aborting drained' aborted' := by
  have hFind := findTask_first hSet
  cases hResult : task.result with
  | some result =>
      refine ⟨[.drain task.run], { s.removeTask task with
        phase := .aborting (countJoined result drained aborted).1
          (countJoined result drained aborted).2 }, _, _, Runs.single ⟨?_, ?_⟩,
        removeTask_first hSet hDistinct, rfl⟩
      · simp [SupervisorStep, exec, hFind, hResult, hPhase]
      · simp [Joins.update, hFind, hResult, hPhase]
  | none =>
      -- The task is aborted first; no other task of the set has its run.
      let s₁ := s.endTask task.run fun _ => .cancelled
      let ended : Task := { task with result := some .cancelled }
      have hSet₁ : s₁.joinSet = ended :: rest := by
        rw [hSet] at hDistinct
        have hOthers : ∀ other ∈ rest, other.run ≠ task.run := by
          intro other hMem hSame
          exact (List.nodup_cons.mp hDistinct.runs).1 (hSame ▸ List.mem_map_of_mem hMem)
        have hRest : rest.map (fun t =>
            if t.run = task.run then { t with result := some .cancelled } else t) = rest := by
          conv_rhs => rw [← List.map_id rest]
          exact List.map_congr_left fun other hMem => if_neg (hOthers other hMem)
        simp only [s₁, endTask, hSet, List.map_cons, hRest]
        rfl
      have hDistinct₁ : Distinct s₁.joinSet := hDistinct.endTask
      have hFind₁ : s₁.findTask task.run = some ended := findTask_first hSet₁
      have hPhase₁ : s₁.phase = .aborting drained aborted := hPhase
      have hAbort : ShutdownStep T (s, g) (.abort task.run) (s₁, g) := by
        refine ⟨?_, rfl⟩
        simp [SupervisorStep, exec, hFind, hResult, hPhase, s₁]
      refine ⟨[.abort task.run, .drain task.run], { s₁.removeTask ended with
        phase := .aborting (countJoined .cancelled drained aborted).1
          (countJoined .cancelled drained aborted).2 }, _, _, ?_,
        removeTask_first hSet₁ hDistinct₁, rfl⟩
      refine Runs.cons hAbort (Runs.single ⟨?_, ?_⟩)
      · simp [SupervisorStep, exec, hFind₁, hPhase₁, ended]
      · simp [Joins.update, hFind₁, hPhase₁, ended]

/-- The tasks at the front of the set can be joined before the grace period expires. -/
theorem drain_front (hSet : s.joinSet = front ++ back) (hDistinct : Distinct s.joinSet)
    {results : List JoinResult} (hEnded : front.map Task.result = results.map some)
    (hPhase : s.phase = .draining drained aborted deadline) :
    ∃ labels s' drained' aborted', Runs (ShutdownStep T) (s, g) labels
        (s', { g with before := g.before ++ results }) ∧
      s'.joinSet = back ∧ s'.phase = .draining drained' aborted' deadline := by
  induction front generalizing s g results drained aborted with
  | nil =>
      obtain rfl : results = [] := by simpa using hEnded.symm
      exact ⟨[], s, _, _, by simpa using Runs.zero (s, g), hSet, hPhase⟩
  | cons task front ih =>
      cases results with
      | nil => cases hEnded
      | cons result results =>
          obtain ⟨hResult, hRest⟩ := List.cons.inj hEnded
          obtain ⟨s₁, d₁, a₁, hStep, hSet₁, hPhase₁⟩ :=
            drain_first (T := T) (g := g) hSet hDistinct hResult hPhase
          have hDistinct₁ : Distinct s₁.joinSet := by
            rw [hSet] at hDistinct
            rw [hSet₁]
            exact hDistinct.sublist (List.sublist_cons_self _ _)
          obtain ⟨labels, s₂, d₂, a₂, hRuns, hSet₂, hPhase₂⟩ :=
            ih (g := { g with before := g.before ++ [result] }) hSet₁ hDistinct₁ hRest hPhase₁
          refine ⟨.drain task.run :: labels, s₂, d₂, a₂, Runs.cons hStep ?_, hSet₂, hPhase₂⟩
          simpa using hRuns

/-- After the abort the shutdown can return, having joined everything that was left. -/
theorem return_aborting (hDistinct : Distinct s.joinSet)
    (hPhase : s.phase = .aborting drained aborted) :
    ∃ labels s' drained' aborted', Runs (ShutdownStep T) (s, g) labels
        (s', { g with after := g.after ++ s.joinSet.map fun t => t.result.getD .cancelled }) ∧
      s'.phase = .returned drained' aborted' := by
  generalize hSet : s.joinSet = tasks
  induction tasks generalizing s g drained aborted with
  | nil =>
      refine ⟨[.drained], { s.ids.foldl markStopped s with phase := .returned drained aborted }, _, _,
        Runs.single ⟨?_, ?_⟩, rfl⟩
      · simp [SupervisorStep, exec, hPhase, hSet]
      · simp [Joins.update]
  | cons task rest ih =>
      obtain ⟨first, s₁, d₁, a₁, hFirst, hSet₁, hPhase₁⟩ :=
        drain_first_aborting (T := T) (g := g) hSet hDistinct hPhase
      have hDistinct₁ : Distinct s₁.joinSet := by
        rw [hSet] at hDistinct
        rw [hSet₁]
        exact hDistinct.sublist (List.sublist_cons_self _ _)
      obtain ⟨labels, s₂, d₂, a₂, hRuns, hPhase₂⟩ :=
        ih (g := { g with after := g.after ++ [task.result.getD .cancelled] }) hDistinct₁ hPhase₁ hSet₁
      refine ⟨first ++ labels, s₂, d₂, a₂, hFirst.trans ?_, hPhase₂⟩
      simpa using hRuns

/-- From before the deadline the shutdown can return after any further joins. -/
theorem return_draining (hSet : s.joinSet = front ++ back) (hDistinct : Distinct s.joinSet)
    {results : List JoinResult} (hEnded : front.map Task.result = results.map some)
    (hPhase : s.phase = .draining drained aborted deadline) :
    ∃ labels s' drained' aborted', Runs (ShutdownStep T) (s, g) labels
        (s', ⟨g.before ++ results, g.after ++ back.map fun t => t.result.getD .cancelled⟩) ∧
      s'.phase = .returned drained' aborted' := by
  obtain ⟨labels, s₁, d₁, a₁, hRuns, hSet₁, hPhase₁⟩ :=
    drain_front (T := T) (g := g) hSet hDistinct hEnded hPhase
  by_cases hEmpty : back = []
  · subst hEmpty
    refine ⟨labels ++ [.drained], { s₁.ids.foldl markStopped s₁ with phase := .returned d₁ a₁ }, _, _,
      Runs.succ hRuns ⟨?_, ?_⟩, rfl⟩
    · simp [SupervisorStep, exec, hPhase₁, hSet₁]
    · simp [Joins.update]
  · let late := max deadline s₁.clock
    let s₂ : Supervisor := { s₁ with phase := .aborting d₁ a₁, clock := late }
    have hExpired : ShutdownStep T (s₁, { g with before := g.before ++ results }) (.graceExpired late)
        (s₂, { g with before := g.before ++ results }) := by
      refine ⟨?_, rfl⟩
      have hDue : deadline ≤ late := Nat.le_max_left _ _
      have hClock : s₁.clock ≤ late := Nat.le_max_right _ _
      simp [SupervisorStep, exec, hPhase₁, hSet₁, hEmpty, hDue, hClock, s₂]
    have hDistinct₂ : Distinct s₂.joinSet := by
      show Distinct s₁.joinSet
      rw [hSet₁]
      rw [hSet] at hDistinct
      exact hDistinct.sublist (List.sublist_append_right _ _)
    obtain ⟨more, s₃, d₃, a₃, hMore, hPhase₃⟩ :=
      return_aborting (T := T) (g := { g with before := g.before ++ results }) hDistinct₂ rfl
    rw [show s₂.joinSet = back from hSet₁] at hMore
    exact ⟨_, s₃, d₃, a₃, (Runs.succ hRuns hExpired).trans hMore, hPhase₃⟩

end Progress

end Supervisor

end ServiceKernel
