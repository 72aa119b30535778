import ServiceKernel.Worker.Bookkeeping

/-! Whether the loop of `run` ends when nothing is left to supervise. Its two selects return
on cancellation only; without tasks and without open breakers they take turns for ever. -/
namespace ServiceKernel

open Execution

/-- A step of the supervisor's own task; the others are its environment's. -/
def SupervisorLabel.isOwn : SupervisorLabel → Bool
  | .finish _ _ => false
  | .abort _ => false
  | .heartbeat _ _ => false
  | .cancel => false
  | .cancelWorker _ => false
  | _ => true

/-- A step that does not cancel the supervisor's token. -/
def Uncancelled (_ : Supervisor) (label : SupervisorLabel) : Prop := label ≠ .cancel

namespace Supervisor

variable {T : TaskIds} {s s' : Supervisor} {label : SupervisorLabel}

/-- The loop runs, no task is in flight and no breaker is open or on trial. -/
structure NothingLeft (s : Supervisor) : Prop where
  loop : s.phase = .head ∨ s.phase = .idle
  running : s.cancelled = false
  empty : s.joinSet = []
  closed : ∀ i ∈ s.ids, ∀ b, (s.worker i).circuit = some b → b.state = .closed

/-- After some number of its own steps `run` has returned, whatever else happens short of
the cancellation of its token. -/
def EndsByItself (T : TaskIds) (s : Supervisor) : Prop :=
  ∃ bound, ∀ labels s', Runs (Restrict (SupervisorStep T) Uncancelled) s labels s' →
    bound ≤ labels.countP (·.isOwn) → ∃ drained aborted, s'.phase = .returned drained aborted

theorem NothingLeft.of_same (h : s.NothingLeft) (hLoop : s'.phase = .head ∨ s'.phase = .idle)
    (hFrame : s'.frame.ids = s.frame.ids ∧ s'.frame.cancelled = s.frame.cancelled)
    (hTasks : s'.tasks = s.tasks) (hLedger : ∀ i ∈ s.ids, (s'.ledger i).breaker = (s.ledger i).breaker) :
    s'.NothingLeft where
  loop := hLoop
  running := hFrame.2.trans h.running
  empty := (congrArg TaskTable.joinSet hTasks).trans h.empty
  closed i hMem b hBreaker := by
    have hIds : s'.ids = s.ids := hFrame.1
    rw [hIds] at hMem
    exact h.closed i hMem b ((hLedger i hMem).symm.trans hBreaker)

theorem NothingLeft.findTask (h : s.NothingLeft) (run : Nat) : s.findTask run = none := by
  rw [Supervisor.findTask, h.empty]
  rfl

/-- A tick finds no breaker to half-open. -/
theorem NothingLeft.tick (h : s.NothingLeft) (wall : Option Nat) (nows : WorkerId → Instant)
    (after : Instant) :
    { s.watchdogTick T wall nows with phase := .head, clock := after }.NothingLeft := by
  have hNone : s.closedToHalfOpen nows = [] := by
    rw [List.eq_nil_iff_forall_not_mem]
    intro i hHalf
    obtain ⟨hMem, b, hBreaker, hOpen, -⟩ := mem_closedToHalfOpen.mp hHalf
    rw [h.closed i hMem b hBreaker] at hOpen
    cases hOpen
  have hTick : s.watchdogTick T wall nows =
      (Watchdog.check s.watchdogTargets (unixNanos wall)).foldl reportTimeout (s.tickBreakers nows) := by
    simp only [watchdogTick, hNone, List.foldl_nil]
  obtain ⟨hFrame, hTasks, hLedger⟩ := reportTimeouts_spec (s := s.tickBreakers nows)
    (Watchdog.check s.watchdogTargets (unixNanos wall))
  rw [← hTick] at hFrame hTasks hLedger
  rw [frame_tickBreakers] at hFrame
  have hIds := congrArg Frame.ids hFrame
  have hCancelled := congrArg Frame.cancelled hFrame
  refine h.of_same (Or.inl rfl) ⟨hIds, hCancelled⟩ hTasks fun i hMem => ?_
  have hBreaker := congrArg Ledger.breaker (hLedger i)
  apply hBreaker.trans
  rw [ledger_tickBreakers, if_pos hMem]
  simp only [Ledger.tickBreaker, ledger]
  cases hCircuit : (s.worker i).circuit with
  | none => rfl
  | some b =>
      have hClosed := h.closed i hMem b hCircuit
      rw [Option.map_some, CircuitBreaker.tick_of_ne_opened (by rw [hClosed]; decide)]

/-- Without a cancellation nothing is left after a step either. -/
theorem NothingLeft.step (h : s.NothingLeft) (hStep : SupervisorStep T s label s')
    (hLabel : label ≠ .cancel) : s'.NothingLeft := by
  have hLoop := h.loop
  cases takes_of_step hStep with
  | tick => exact h.tick ..
  | joinNone => exact h.of_same (Or.inr rfl) ⟨rfl, rfl⟩ rfl fun _ _ => rfl
  | heartbeat =>
      refine h.of_same hLoop ⟨rfl, rfl⟩ rfl fun i _ => ?_
      rw [ledger_log, ledger_modifyWorker rfl]
      rfl
  | cancelWorker =>
      refine h.of_same hLoop ⟨rfl, rfl⟩ rfl fun i _ => ?_
      rw [ledger_log, ledger_cancelWorkerToken]
      rfl
  | cancel => exact absurd rfl hLabel
  | cancelObserved _ hCancelled =>
      rw [h.running] at hCancelled
      cases hCancelled
  | join _ _ _ hTask | finish hTask =>
      rw [h.findTask] at hTask
      cases hTask
  | start hPhase | backoffElapsed hPhase | backoffCancelled hPhase | drain hPhase
  | drainAborting hPhase | graceExpired hPhase | abort hPhase =>
      rw [hPhase] at hLoop
      rcases hLoop with hHead | hIdle
      · cases hHead
      · cases hIdle
  | drained hPhase =>
      rcases hPhase with hPhase | ⟨deadline, hPhase⟩ <;> rw [hPhase] at hLoop <;>
        rcases hLoop with hHead | hIdle
      · cases hHead
      · cases hIdle
      · cases hHead
      · cases hIdle

/-- The supervisor always has a next step: it finds no task to join, or its timer ticks. -/
theorem NothingLeft.next (T : TaskIds) (h : s.NothingLeft) : ∃ label s',
    Restrict (SupervisorStep T) (fun _ label => label.isOwn = true) s label s' ∧ s'.NothingLeft := by
  rcases h.loop with hHead | hIdle
  · have hStep : SupervisorStep T s .joinNone { s with phase := .idle } :=
      if_pos ⟨hHead, h.running, h.empty⟩
    exact ⟨_, _, ⟨hStep, rfl⟩, h.step hStep (by simp)⟩
  · have hStep : SupervisorStep T s (.tick none (fun _ => s.clock) s.clock)
        { s.watchdogTick T none (fun _ => s.clock) with phase := .head, clock := s.clock } :=
      if_pos ⟨Or.inr hIdle, fun _ _ => ⟨Nat.le_refl _, Nat.le_refl _⟩, Nat.le_refl _⟩
    exact ⟨_, _, ⟨hStep, rfl⟩, h.step hStep (by simp)⟩

theorem NothingLeft.run {labels : List SupervisorLabel} (h : s.NothingLeft)
    (run : Runs (Restrict (SupervisorStep T) Uncancelled) s labels s') : s'.NothingLeft :=
  run.reachable.invariant NothingLeft h fun _ _ _ hLeft hStep => hLeft.step hStep.1 hStep.2

theorem NothingLeft.not_returned (h : s.NothingLeft) (drained aborted : Nat) :
    s.phase ≠ .returned drained aborted := by
  rcases h.loop with hHead | hIdle
  · simp [hHead]
  · simp [hIdle]

/-- However many steps the supervisor takes, it has not returned. -/
theorem NothingLeft.not_ends (T : TaskIds) (h : s.NothingLeft) : ¬ EndsByItself T s := by
  rintro ⟨bound, hEnds⟩
  obtain ⟨labels, s', hLength, run, hLeft⟩ :=
    exists_run_of_length NothingLeft h (fun _ hState => hState.next T) bound
  have hOwn : labels.countP (·.isOwn) = bound := by
    rw [← hLength, List.countP_eq_length]
    exact run.labels_meet
  have hUncancelled : Runs (Restrict (SupervisorStep T) Uncancelled) s labels s' := by
    refine run.mono fun _ label _ hStep => ⟨hStep.1, fun hCancel => ?_⟩
    rw [hCancel] at hStep
    cases hStep.2
  obtain ⟨drained, aborted, hReturned⟩ := hEnds labels s' hUncancelled (Nat.le_of_eq hOwn.symm)
  exact hLeft.not_returned drained aborted hReturned

end Supervisor

/-- A worker that runs once. -/
def WorkerSpec.oneShot : WorkerSpec := { WorkerSpec.new "alpha" with restart := .never }

/-- A worker that runs once has stopped for good after its run. -/
theorem exists_oneShot_stopped : ∃ s,
    Reachable (SupervisorStep .counting) (.new (.single .oneShot .sync)) s ∧
    (s.worker 1).handle.state = .stopped ∧ s.NothingLeft := by
  obtain ⟨s, hRun, hState, hPhase, hRunning, hEmpty, hClosed⟩ : ∃ s : Supervisor,
      replay (Supervisor.exec .counting) (.new (.single .oneShot .sync))
        [.start, .finish 0 .ok, .join 0 (some 5) 7] = some s ∧
      (s.worker 1).handle.state = .stopped ∧ s.phase = .head ∧ s.cancelled = false ∧
      s.joinSet = [] ∧ ∀ i ∈ s.ids, (s.worker i).circuit = none :=
    ⟨_, rfl, rfl, rfl, rfl, rfl, by decide⟩
  refine ⟨s, (runs_of_replay hRun).reachable, hState, Or.inl hPhase, hRunning, hEmpty, ?_⟩
  intro i hMem b hBreaker
  rw [hClosed i hMem] at hBreaker
  cases hBreaker

/-- From every loop state in which nothing is left to supervise, `run` does not return unless
its token is cancelled: every other step finds and leaves nothing to supervise, and there
is always one to take. -/
theorem loop_never_ends (T : TaskIds) (s : Supervisor) (h : s.NothingLeft) :
    (∀ labels s', Runs (Restrict (SupervisorStep T) Uncancelled) s labels s' → s'.NothingLeft) ∧
      ¬ Supervisor.EndsByItself T s :=
  ⟨fun _ _ run => h.run run, h.not_ends T⟩

theorem loop_never_ends_oneShot : ∃ s,
    Reachable (SupervisorStep .counting) (.new (.single .oneShot .sync)) s ∧
    (s.worker 1).handle.state = .stopped ∧ ¬ Supervisor.EndsByItself .counting s := by
  obtain ⟨s, hReach, hState, hLeft⟩ := exists_oneShot_stopped
  exact ⟨s, hReach, hState, (loop_never_ends .counting s hLeft).2⟩

/-- The only worker has stopped for good, and the loop runs on. -/
theorem loop_runs_on : ¬ ∀ (T : TaskIds) (roster : Roster) (s : Supervisor),
    Reachable (SupervisorStep T) (.new roster) s → s.NothingLeft →
    Supervisor.EndsByItself T s := by
  intro hClaim
  obtain ⟨s, hReach, -, hLeft⟩ := exists_oneShot_stopped
  exact hLeft.not_ends .counting (hClaim _ _ s hReach hLeft)

end ServiceKernel
