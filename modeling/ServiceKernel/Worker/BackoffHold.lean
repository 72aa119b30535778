import ServiceKernel.Worker.ShutdownAll

/-! The wait before a restart is inside the handling of an outcome, so the supervisor
handles nothing else until it is over. -/
namespace ServiceKernel

open Execution Supervisor

/-- The step that takes up the outcome of this run. -/
def SupervisorLabel.TakesUp (run : Nat) : SupervisorLabel → Prop
  | .join r _ _ => r = run
  | _ => False

def SupervisorLabel.IsTick : SupervisorLabel → Prop
  | .tick _ _ _ => True
  | _ => False

/-- Some run from here takes such a step before the clock reads `due`. -/
def HandledBefore (T : TaskIds) (s : Supervisor) (due : Instant) (turn : SupervisorLabel → Prop) :
    Prop :=
  ∃ labels label s', Runs (SupervisorStep T) s (labels ++ [label]) s' ∧ turn label ∧ s'.clock < due

/-- A supervisor that waits for the backoff of one worker to be due does not hold up the
others: what they have ended with is handled meanwhile, and so are ticks. -/
structure Bulkhead (T : TaskIds) (s : Supervisor) (id : WorkerId) (due : Instant) : Prop where
  outcomes : ∀ task ∈ s.joinSet, task.worker ≠ id → task.result.isSome = true →
    HandledBefore T s due (SupervisorLabel.TakesUp task.run)
  ticks : HandledBefore T s due SupervisorLabel.IsTick

/-- Until its backoff is due, the supervisor of a waiting worker takes up no outcome and
no tick, and signals no shutdown. -/
structure HeldUp (T : TaskIds) (s : Supervisor) (id : WorkerId) (due : Instant) : Prop where
  outcomes : ∀ task ∈ s.joinSet, task.worker ≠ id → task.result.isSome = true →
    ¬ HandledBefore T s due (SupervisorLabel.TakesUp task.run)
  ticks : ¬ HandledBefore T s due SupervisorLabel.IsTick
  signals : ∀ s', Reachable (SupervisorStep T) s s' → s'.clock < due →
    .shutdownSignalled ∈ s'.history → .shutdownSignalled ∈ s.history

section Waiting

variable {T : TaskIds} {roster : Roster} {s₀ s s' : Supervisor} {label : SupervisorLabel}
  {id : WorkerId} {due : Instant}

/-- The supervisor still waits for this backoff, or was cancelled in it. -/
def StillWaits (id : WorkerId) (due : Instant) (s : Supervisor) : Prop :=
  (∃ name attempts, s.phase = .backoff id name attempts due) ∨ s.Leaving

/-- The loops of `shutdown_all` signal no shutdown. -/
theorem closing_signals {f : Supervisor → WorkerId → Supervisor} (ids : List WorkerId)
    (hPass : ∀ st key, .shutdownSignalled ∈ (f st key).history → .shutdownSignalled ∈ st.history) :
    .shutdownSignalled ∈ (ids.foldl f s).history → .shutdownSignalled ∈ s.history := by
  refine foldl_keeps (f := f)
    (fun st : Supervisor => .shutdownSignalled ∈ st.history → .shutdownSignalled ∈ s.history)
    (fun h => h) fun st key _ hSt hMem => ?_
  exact hSt (hPass st key hMem)

/-- What a waiting supervisor can do before its backoff is due. -/
theorem StillWaits.step (hBooks : Supervisor.Books s) (h : StillWaits id due s)
    (hStep : SupervisorStep T s label s') (hEarly : s'.clock < due) :
    StillWaits id due s' ∧ (∀ run, ¬ label.TakesUp run) ∧ ¬ label.IsTick ∧
      (.shutdownSignalled ∈ s'.history → .shutdownSignalled ∈ s.history) := by
  rcases h with ⟨name, attempts, hWait⟩ | hLeaving
  · cases takes_of_step hStep with
    | start hPhase => simp [hPhase] at hWait
    | tick hPhase => rcases hPhase with ⟨hPhase, -⟩ | hPhase <;> simp [hPhase] at hWait
    | cancelObserved hPhase => rcases hPhase with hPhase | hPhase <;> simp [hPhase] at hWait
    | drained hPhase => rcases hPhase with hPhase | ⟨_, hPhase⟩ <;> simp [hPhase] at hWait
    | join hPhase | joinNone hPhase | drain hPhase | drainAborting hPhase | graceExpired hPhase
    | abort hPhase =>
        simp [hPhase] at hWait
    | @backoffElapsed worker other count due' now hPhase hDue hClock =>
        -- The wait is over only when it is due.
        obtain ⟨-, -, -, rfl⟩ := SupervisorPhase.backoff.inj (hPhase.symm.trans hWait)
        have hSpec := restartNow_spec (T := T) (s := { s with clock := now })
          (hBooks.waiting _ _ _ _ hPhase).1 other count
        rw [clock_eq hSpec.1] at hEarly
        exact absurd hDue (Nat.not_le_of_lt hEarly)
    | backoffCancelled hPhase hCancelled =>
        exact ⟨Or.inr hCancelled, fun _ h => h, fun h => h, fun h => h⟩
    | finish => exact ⟨Or.inl ⟨name, attempts, hWait⟩, fun _ h => h, fun h => h, fun h => h⟩
    | heartbeat =>
        exact ⟨Or.inl ⟨name, attempts, hWait⟩, fun _ h => h, fun h => h, fun h => by
          simpa [log, modifyWorker] using h⟩
    | cancel =>
        exact ⟨Or.inl ⟨name, attempts, hWait⟩, fun _ h => h, fun h => h, fun h => by
          simpa [log] using h⟩
    | cancelWorker =>
        exact ⟨Or.inl ⟨name, attempts, hWait⟩, fun _ h => h, fun h => h, fun h => by
          simpa [log, cancelWorkerToken, modifyWorker] using h⟩
  · have hNext := (hLeaving.step hStep).1
    unfold Leaving at hLeaving
    cases takes_of_step hStep with
    | start hPhase => simp [hPhase] at hLeaving
    | tick hPhase =>
        rcases hPhase with ⟨hPhase, hRunning⟩ | hPhase
        · simp [hPhase, hRunning] at hLeaving
        · simp [hPhase] at hLeaving
    | join hPhase hRunning => simp [hPhase, hRunning] at hLeaving
    | backoffElapsed hPhase => simp [hPhase] at hLeaving
    | backoffCancelled hPhase => simp [hPhase] at hLeaving
    | joinNone | drain | drainAborting | graceExpired | finish | abort =>
        exact ⟨Or.inr hNext, fun _ h => h, fun h => h, fun h => h⟩
    | cancelObserved =>
        refine ⟨Or.inr hNext, fun _ h => h, fun h => h, closing_signals s.ids fun st key h => ?_⟩
        simpa [stopWorker, setState, emit, log, cancelWorkerToken, modifyWorker] using h
    | drained =>
        refine ⟨Or.inr hNext, fun _ h => h, fun h => h, closing_signals s.ids fun st key h => ?_⟩
        simpa [markStopped, setState, emit, log, modifyWorker] using h
    | heartbeat =>
        exact ⟨Or.inr hNext, fun _ h => h, fun h => h, fun h => by
          simpa [log, modifyWorker] using h⟩
    | cancel =>
        exact ⟨Or.inr hNext, fun _ h => h, fun h => h, fun h => by simpa [log] using h⟩
    | cancelWorker =>
        exact ⟨Or.inr hNext, fun _ h => h, fun h => h, fun h => by
          simpa [log, cancelWorkerToken, modifyWorker] using h⟩

/-- A whole run from the wait, up to a time before the backoff is due. -/
theorem StillWaits.run (hBooks : Supervisor.Books s) (h : StillWaits id due s) {labels : List SupervisorLabel}
    (run : Runs (SupervisorStep T) s labels s') (hEarly : s'.clock < due) :
    Supervisor.Books s' ∧ StillWaits id due s' ∧
      (∀ label ∈ labels, (∀ run, ¬ label.TakesUp run) ∧ ¬ label.IsTick) ∧
      (.shutdownSignalled ∈ s'.history → .shutdownSignalled ∈ s.history) := by
  induction run with
  | zero => exact ⟨hBooks, h, fun _ hMem => absurd hMem List.not_mem_nil, fun h => h⟩
  | @succ middle finish labels label prior last ih =>
      have hMiddle : Supervisor.Books middle :=
        prior.reachable.invariant Supervisor.Books hBooks fun _ _ _ => books_step
      have hClock : middle.clock < due :=
        Nat.lt_of_le_of_lt (steady_step hMiddle last).clock hEarly
      obtain ⟨-, hHolds, hLabels, hSignals⟩ := ih hClock
      obtain ⟨hNext, hTake, hTick, hSignal⟩ := hHolds.step hMiddle last hEarly
      refine ⟨books_step hMiddle last, hNext, fun other hMem => ?_, fun hNew => ?_⟩
      · rcases List.mem_append.mp hMem with hBefore | hHere
        · exact hLabels other hBefore
        · obtain rfl := List.mem_singleton.mp hHere
          exact ⟨hTake, hTick⟩
      · exact hSignals (hSignal hNew)

theorem held_of_waiting {name : String} {attempts : UInt32} (hBooks : Supervisor.Books s)
    (hWait : s.phase = .backoff id name attempts due) : HeldUp T s id due where
  outcomes task _ _ _ := by
    rintro ⟨labels, label, s', hRun, hTurn, hEarly⟩
    have hHolds : StillWaits id due s := Or.inl ⟨name, attempts, hWait⟩
    exact ((hHolds.run hBooks hRun hEarly).2.2.1 label (by simp)).1 _ hTurn
  ticks := by
    rintro ⟨labels, label, s', hRun, hTurn, hEarly⟩
    have hHolds : StillWaits id due s := Or.inl ⟨name, attempts, hWait⟩
    exact ((hHolds.run hBooks hRun hEarly).2.2.1 label (by simp)).2 hTurn
  signals := by
    rintro s' ⟨labels, hRun⟩ hEarly
    have hHolds : StillWaits id due s := Or.inl ⟨name, attempts, hWait⟩
    exact (hHolds.run hBooks hRun hEarly).2.2.2

end Waiting

/-- In every state in which one worker waits out its backoff, all others are held up
until it is due. -/
theorem others_held_up (T : TaskIds) (roster : Roster) (s : Supervisor)
    (reach : Reachable (SupervisorStep T) (.new roster) s) (id : WorkerId) (name : String)
    (attempts : UInt32) (due : Instant) (hWait : s.phase = .backoff id name attempts due) :
    HeldUp T s id due :=
  held_of_waiting (books_of_reachable reach) hWait

/-- A worker that restarts with a backoff, next to a critical one that does not restart. -/
def Roster.pair : Roster :=
  ⟨[1, 2], by decide, fun id => if id = 1 then .new "alpha" else
    { WorkerSpec.new "beta" with criticality := .critical, restart := .never }, fun _ => .sync⟩

/-- Both workers fail, and the outcome of the first is handled. -/
def pairFails : List SupervisorLabel :=
  [.start, .finish 0 (.err ⟨"disk full"⟩), .finish 1 (.err ⟨"disk full"⟩), .join 0 (some 5) 7]

/-- The final failure of the critical worker waits for the backoff of the other. -/
theorem others_held_up_critical : ∃ (s : Supervisor) (due : Instant) (task : Task),
    task ∈ s.joinSet ∧ task.result.isSome = true ∧
    (s.worker task.worker).spec.criticality = .critical ∧ s.clock < due ∧
    HeldUp .counting s 1 due := by
  obtain ⟨s, hRun, hWait, task, hMem, hEnded, hCritical, hClock⟩ :
      ∃ s, replay (exec .counting) (.new .pair) pairFails = some s ∧
        s.phase = .backoff 1 "alpha" 1 200000007 ∧ ∃ task, task ∈ s.joinSet ∧
        task.result.isSome = true ∧ (s.worker task.worker).spec.criticality = .critical ∧
        s.clock < 200000007 :=
    ⟨_, rfl, rfl, _, List.mem_singleton_self _, rfl, rfl, by decide⟩
  exact ⟨s, 200000007, task, hMem, hEnded, hCritical, hClock,
    others_held_up .counting .pair s (runs_of_replay hRun).reachable 1 "alpha" 1 _ hWait⟩

/-- Neither the failure nor a tick is handled before the backoff is due. -/
theorem bulkhead_broken : ¬ ∀ (T : TaskIds) (roster : Roster) (s : Supervisor) (id : WorkerId)
    (name : String) (attempts : UInt32) (due : Instant),
    Reachable (SupervisorStep T) (.new roster) s → s.phase = .backoff id name attempts due →
    Bulkhead T s id due := by
  intro hClaim
  obtain ⟨s, hRun, hWait, task, hMem, hOther, hEnded⟩ :
      ∃ s, replay (exec .counting) (.new .pair) pairFails = some s ∧
        s.phase = .backoff 1 "alpha" 1 200000007 ∧ ∃ task, task ∈ s.joinSet ∧
        task.worker ≠ 1 ∧ task.result.isSome = true :=
    ⟨_, rfl, rfl, _, List.mem_singleton_self _, by decide, rfl⟩
  have hReach := (runs_of_replay hRun).reachable
  have hHeld := held_of_waiting (T := .counting) (books_of_reachable hReach) hWait
  exact hHeld.outcomes task hMem hOther hEnded
    ((hClaim _ _ s _ _ _ _ hReach hWait).outcomes task hMem hOther hEnded)

end ServiceKernel
