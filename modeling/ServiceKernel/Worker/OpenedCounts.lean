import ServiceKernel.Worker.Circuit
import ServiceKernel.Worker.CircuitReports
import ServiceKernel.Worker.FailureTimes

/-! The failure count that a `CircuitOpened` event carries against the one that tripped the
breaker. The event takes it from the `attempts` of the worker, which follow the wall clock
and look past a success; the breaker counts on its own clock and since the last success. -/
namespace ServiceKernel

open Execution

/-- The wall-clock times of the failures of one worker, and the breaker's readings of those
since its last success, latest first. -/
structure OutcomeLog where
  failures : List Int
  recent : List Instant

namespace Supervisor

variable {T : TaskIds} {s s' : Supervisor} {i : WorkerId} {label : SupervisorLabel}

/-- How the outcome of worker `i` that a step handles ends, and when, if it handles one. -/
def handledAt (s : Supervisor) (i : WorkerId) : SupervisorLabel → Option (Bool × Instant)
  | .join run _ now => (s.findTask run).bind fun task =>
    if task.worker = i then task.outcome.map fun outcome => (outcome.hasFailed, now) else none
  | _ => none

theorem handledAt_join {run : Nat} {task : Task} {outcome : SupervisorOutcome} (wall : Option Nat)
    (now : Instant) (hTask : s.findTask run = some task) (hOwner : task.worker = i)
    (hOutcome : task.outcome = some outcome) :
    s.handledAt i (.join run wall now) = some (outcome.hasFailed, now) := by
  simp [handledAt, hTask, hOwner, hOutcome]

theorem handledAt_of_spares (h : s.Spares i label) : s.handledAt i label = none := by
  cases label with
  | join run wall now =>
      cases hTask : s.findTask run with
      | none => simp [handledAt, hTask]
      | some task =>
          have hOther : task.worker ≠ i := h task hTask
          simp [handledAt, hTask, hOther]
  | _ => rfl

end Supervisor

namespace OutcomeLog

variable {T : TaskIds} {s s' : Supervisor} {g : OutcomeLog} {i : WorkerId} {label : SupervisorLabel}

def none : OutcomeLog := ⟨[], []⟩

def update (i : WorkerId) (g : OutcomeLog) (s : Supervisor) (label : SupervisorLabel)
    (_ : Supervisor) : OutcomeLog where
  failures := g.failures ++ (s.failureAt i label).toList
  recent := match s.handledAt i label with
    | some (hasFailed, now) => if hasFailed then now :: g.recent else []
    | Option.none => g.recent

/-- Both counters follow the failures in the log. -/
structure Kept (g : OutcomeLog) (i : WorkerId) (s : Supervisor) : Prop where
  window : (s.worker i).handle.window = WorkerHandle.windowOf g.failures
  attempts : (s.life i).attempts = if g.recent = [] then 0 else .ofNat (burst g.failures)
  breaker : ∀ b, (s.life i).breaker = some b → b.state = .closed → b.Counts g.recent

theorem kept_new (roster : Roster) (i : WorkerId) : none.Kept i (.new roster) where
  window := rfl
  attempts := rfl
  breaker b hBreaker _ := by
    simp only [Supervisor.life, Supervisor.new, RegisteredWorker.register,
      Option.map_eq_some_iff] at hBreaker
    obtain ⟨policy, -, rfl⟩ := hBreaker
    exact CircuitBreaker.counts_new policy

/-- What does not handle an outcome of the worker leaves its counters alone. -/
theorem Kept.aside (h : g.Kept i s)
    (hWindow : (s'.worker i).handle.window = WorkerHandle.windowOf (g.update i s label s').failures)
    (hFailure : s.failureAt i label = Option.none) (hHandled : s.handledAt i label = Option.none)
    (hAttempts : (s'.life i).attempts = (s.life i).attempts)
    (hBreaker : ∀ b, (s'.life i).breaker = some b → b.state = .closed →
      (s.life i).breaker = some b) : (g.update i s label s').Kept i s' := by
  have hFailures : (g.update i s label s').failures = g.failures := by simp [update, hFailure]
  have hRecent : (g.update i s label s').recent = g.recent := by simp [update, hHandled]
  refine ⟨hWindow, ?_, fun b hNew hClosed => ?_⟩
  · rw [hAttempts, h.attempts, hFailures, hRecent]
  · rw [hRecent]
    exact h.breaker b (hBreaker b hNew hClosed) hClosed

/-- A judged outcome is entered in the log and in both counters. -/
theorem Kept.judged (h : g.Kept i s) {run : Nat} {wall : Option Nat} {now : Instant} {task : Task}
    {outcome : SupervisorOutcome} {spec : WorkerSpec} {l : Life}
    (hWindow : (s'.worker i).handle.window =
      WorkerHandle.windowOf (g.update i s (.join run wall now) s').failures)
    (hTask : s.findTask run = some task) (hOwner : task.worker = i)
    (hOutcome : task.outcome = some outcome)
    (hSettled : Supervisor.Settled s' i spec outcome.hasFailed
      (l.judge i spec run outcome ((s.worker i).attemptsAfter outcome.hasFailed wall) now))
    (hBreaker : l.breaker = (s.life i).breaker) :
    (g.update i s (.join run wall now) s').Kept i s' := by
  have hCells : (s'.life i).attempts = (s.worker i).attemptsAfter outcome.hasFailed wall ∧
      (s'.life i).breaker = (s.life i).breaker.map (·.record outcome.hasFailed now) := by
    rw [← hBreaker]
    exact hSettled.cells
  have hRecent : (g.update i s (.join run wall now) s').recent =
      if outcome.hasFailed then now :: g.recent else [] := by
    simp only [update, Supervisor.handledAt_join wall now hTask hOwner hOutcome]
  have hFailures : (g.update i s (.join run wall now) s').failures =
      g.failures ++ (if outcome.hasFailed then some (unixNanos wall) else Option.none).toList := by
    simp only [update, Supervisor.failureAt_join wall now hTask hOwner hOutcome]
  refine ⟨hWindow, ?_, fun b hNew hClosed => ?_⟩
  · rw [hCells.1, hRecent, hFailures]
    cases hFailed : outcome.hasFailed with
    | false => rfl
    | true => simpa using Supervisor.attemptsAfter_failed h.window
  · rw [hCells.2] at hNew
    obtain ⟨old, hOld, rfl⟩ := Option.map_eq_some_iff.mp hNew
    rw [hRecent]
    exact CircuitBreaker.counts_record (h.breaker old hOld) hClosed

theorem Kept.step (h : g.Kept i s) (hBooks : Supervisor.Books s) (hMem : i ∈ s.ids)
    (hStep : SupervisorStep T s label s') : (g.update i s label s').Kept i s' := by
  have hWindow : (s'.worker i).handle.window =
      WorkerHandle.windowOf (g.update i s label s').failures := by
    rw [Supervisor.window_of_step hBooks hStep, update]
    cases s.failureAt i label with
    | none => simpa using h.window
    | some time => exact WorkerHandle.recordFailure_window h.window time
  cases Supervisor.lifeStep_of_step hBooks hStep hMem with
  | settled hFrom hTask hOwner hOutcome hSettled =>
      exact h.judged hWindow hTask hOwner hOutcome hSettled rfl
  | ticked _ _ _ hLife | tried _ _ _ hLife =>
      apply h.aside hWindow rfl rfl ((congrArg Life.attempts hLife).trans rfl)
      intro b hNew hClosed
      rw [hLife] at hNew
      exact Life.breaker_of_tick hNew (by rw [hClosed]; decide)
  | spared hSpares _ hLife =>
      have hFailure := Supervisor.failureAt_of_spares hSpares
      refine h.aside hWindow hFailure (Supervisor.handledAt_of_spares hSpares) (by rw [hLife])
        fun b hNew _ => ?_
      rw [← hLife]
      exact hNew
  | begun _ _ hLife | resumed _ _ hLife | stopping _ _ hLife | joinedLate _ _ hLife
  | stopped _ _ hLife =>
      apply h.aside hWindow rfl rfl ((congrArg Life.attempts hLife).trans rfl)
      intro b hNew _
      rw [hLife] at hNew
      exact hNew

end OutcomeLog

/-- The failure counts of the `CircuitOpened` events about the worker. -/
def openedCounts (i : WorkerId) (records : List SupervisorRecord) : List UInt32 :=
  records.filterMap fun record => match record with
    | .event (.circuitOpened id _ failures) => if id = i then some failures else none
    | _ => none

/-- A breaker that an outcome opens from `Closed` is announced once. -/
theorem openedCounts_reported {r : RegisteredWorker} {b : CircuitBreaker} {hasFailed : Bool}
    {now : Instant} (i : WorkerId) (wall : Option Nat) (hCircuit : r.circuit = some b)
    (hClosed : b.state = .closed) (hOpened : (b.record hasFailed now).state = .opened) :
    openedCounts i (r.reported i hasFailed wall now) = [saturatingAddU32 r.attempts 1] := by
  have hMove : r.circuitMove i hasFailed now =
      some (.circuitOpened i r.spec.name (saturatingAddU32 r.attempts 1)) := by
    simp only [RegisteredWorker.circuitMove, hCircuit, Option.bind_some, hClosed, hOpened,
      Supervisor.circuitEvent]
  rw [RegisteredWorker.reported, hMove]
  cases r.marked hasFailed wall now <;> simp [openedCounts]

theorem saturatingAddU32_toNat (a b : UInt32) :
    (saturatingAddU32 a b).toNat = min (a.toNat + b.toNat) 4294967295 := by
  rw [saturatingAddU32, UInt32.toNat_ofNat']
  exact Nat.mod_eq_of_lt (by omega)

namespace Supervisor

variable {T : TaskIds} {s s' : Supervisor} {g : OutcomeLog} {i : WorkerId} {label : SupervisorLabel}

/-- The reports a step adds. -/
def newReports (s s' : Supervisor) : List SupervisorRecord := s'.reports.drop s.reports.length

/-- If the step opens the worker's breaker from `Closed`, this is announced once, with the
count that the breaker has reached, and the count is at least the threshold. -/
def CountReported (i : WorkerId) (s s' : Supervisor) : Prop :=
  ∀ b b', (s.worker i).circuit = some b → (s'.worker i).circuit = some b' → b.state = .closed →
    b'.state = .opened →
      openedCounts i (newReports s s') = [b'.failures] ∧ b'.policy.failureThreshold ≤ b'.failures

/-- A failure that reaches a threshold of two or more ends a burst that was one short of it.
The burst is counted modulo the range of the handle's counter, and announced up to the
range of the event's. -/
def BurstBelow (i : WorkerId) (c : Supervisor × OutcomeLog) (label : SupervisorLabel) : Prop :=
  ∀ handled ∈ c.1.handledAt i label, handled.1 = true →
    ∀ b ∈ (c.1.worker i).circuit, b.state = .closed → 2 ≤ b.policy.failureThreshold.toNat →
      b.policy.failureThreshold.toNat ≤
        streak b.policy.failureWindow.nanos (handled.2 :: c.2.recent) →
      min (burst c.2.failures % 4294967296 + 1) 4294967295 = b.policy.failureThreshold.toNat

instance (i : WorkerId) (c : Supervisor × OutcomeLog) (label : SupervisorLabel) :
    Decidable (BurstBelow i c label) := by
  unfold BurstBelow
  infer_instance

/-- What is announced of a failure that trips the breaker is what the breaker has counted,
unless the burst before it was not one short of the threshold. -/
theorem announced_iff {b : CircuitBreaker} {now : Instant} (hKept : g.Kept i s)
    (hCircuit : (s.worker i).circuit = some b) (hClosed : b.state = .closed)
    (hOpened : (b.recordFailure now).state = .opened) :
    saturatingAddU32 (s.worker i).attempts 1 = (b.recordFailure now).failures ↔
      (2 ≤ b.policy.failureThreshold.toNat →
        min (burst g.failures % 4294967296 + 1) 4294967295 = b.policy.failureThreshold.toNat) := by
  have hCounts := hKept.breaker b hCircuit hClosed
  have hAttempts : (s.worker i).attempts = if g.recent = [] then 0 else .ofNat (burst g.failures) :=
    hKept.attempts
  have hReached := (hCounts.opens_iff hClosed now).mp hOpened
  have hCounted := hCounts.counted
  have hBelow := hCounts.below
  rw [← UInt32.toNat_inj, saturatingAddU32_toNat, hCounts.tripped hClosed hOpened, hAttempts]
  cases hRecent : g.recent with
  | nil =>
      -- The first failure since a success trips a threshold of at most one.
      rw [hRecent] at hReached
      have hOne : b.policy.failureThreshold.toNat ≤ 1 := hReached
      rw [if_pos rfl]
      refine iff_of_true ?_ (by omega)
      rw [Nat.max_eq_left hOne]
      rfl
  | cons last rest =>
      have hPos := streak_cons_pos b.policy.failureWindow.nanos last rest
      rw [hRecent] at hCounted
      have hTwo : 2 ≤ b.policy.failureThreshold.toNat := by omega
      have hMax : max 1 b.policy.failureThreshold.toNat = b.policy.failureThreshold.toNat := by omega
      rw [if_neg (by simp), UInt32.toNat_ofNat', hMax]
      exact ⟨fun h _ => h, fun h => h hTwo⟩

/-- A step that handles no outcome of the worker opens no breaker of it. -/
theorem countReported_aside (hHandled : s.handledAt i label = none)
    (hBreaker : ∀ b', (s'.life i).breaker = some b' → b'.state = .opened →
      (s.life i).breaker = some b') : CountReported i s s' ↔ BurstBelow i (s, g) label := by
  refine iff_of_true (fun b b' hOld hAfter hClosed hOpened => ?_) fun handled hIn => ?_
  · have hSame := Option.some.inj ((hBreaker b' hAfter hOpened).symm.trans hOld)
    rw [hSame, hClosed] at hOpened
    cases hOpened
  · rw [hHandled] at hIn
    cases hIn

theorem countReported_handled {hasFailed : Bool} {now : Instant} (wall : Option Nat)
    (hKept : g.Kept i s) (hHandled : s.handledAt i label = some (hasFailed, now))
    (hBreaker : (s'.worker i).circuit = (s.worker i).circuit.map (·.record hasFailed now))
    (hReported : newReports s s' = (s.worker i).reported i hasFailed wall now) :
    CountReported i s s' ↔ BurstBelow i (s, g) label := by
  constructor
  · intro hGood handled hIn hFailed b hCircuit hClosed hTwo hReached
    obtain rfl := Option.some.inj (hHandled.symm.trans hIn)
    obtain rfl : hasFailed = true := hFailed
    have hCounts := hKept.breaker b hCircuit hClosed
    have hOpened : (b.record true now).state = .opened :=
      (hCounts.opens_iff hClosed now).mpr hReached
    have hAfter : (s'.worker i).circuit = some (b.recordFailure now) := by
      rw [hBreaker, show (s.worker i).circuit = some b from hCircuit]
      rfl
    have hCount := (hGood b _ hCircuit hAfter hClosed hOpened).1
    rw [hReported, openedCounts_reported i wall hCircuit hClosed hOpened,
      List.singleton_inj] at hCount
    exact (announced_iff hKept hCircuit hClosed hOpened).mp hCount hTwo
  · intro hCond b b' hCircuit hAfter hClosed hOpened
    rw [hBreaker, hCircuit, Option.map_some, Option.some.injEq] at hAfter
    subst hAfter
    have hCounts := hKept.breaker b hCircuit hClosed
    cases hasFailed with
    | false => cases hOpened
    | true =>
        have hReached := (hCounts.opens_iff hClosed now).mp hOpened
        have hAnnounced := (announced_iff hKept hCircuit hClosed hOpened).mpr fun hTwo =>
          hCond _ hHandled rfl b hCircuit hClosed hTwo hReached
        rw [hReported, openedCounts_reported i wall hCircuit hClosed hOpened]
        refine ⟨congrArg (fun count => [count]) hAnnounced, ?_⟩
        show (b.recordFailure now).policy.failureThreshold ≤ (b.recordFailure now).failures
        rw [CircuitBreaker.recordFailure_policy, UInt32.le_iff_toNat_le,
          hCounts.tripped hClosed hOpened]
        exact Nat.le_max_right _ _

/-- A step announces the right count exactly if it does not find a burst of another length. -/
theorem countReported_iff (hKept : g.Kept i s) (hBooks : Books s) (hMem : i ∈ s.ids)
    (hStep : SupervisorStep T s label s') : CountReported i s s' ↔ BurstBelow i (s, g) label := by
  have hNew : newReports s s' = s.reportedBy label := by
    rw [newReports, reports_of_step hBooks hStep, List.drop_left]
  cases lifeStep_of_step hBooks hStep hMem with
  | @settled run wall now task outcome hFrom hTask hOwner hOutcome hSettled =>
      refine countReported_handled wall hKept (handledAt_join wall now hTask hOwner hOutcome)
        hSettled.cells.2 ?_
      rw [hNew]
      simp only [reportedBy, hTask, Option.bind_some, hOutcome, Option.map_some, Option.getD_some,
        hOwner]
  | ticked _ _ _ hLife | tried _ _ _ hLife =>
      apply countReported_aside rfl
      intro b' hAfter hOpened
      rw [hLife] at hAfter
      exact Life.breaker_of_tick hAfter (by rw [hOpened]; decide)
  | spared hSpares _ hLife =>
      apply countReported_aside (handledAt_of_spares hSpares)
      intro b' hAfter _
      rw [← hLife]
      exact hAfter
  | begun _ _ hLife | resumed _ _ hLife | stopping _ _ hLife | joinedLate _ _ hLife
  | stopped _ _ hLife =>
      apply countReported_aside rfl
      intro b' hAfter _
      rw [hLife] at hAfter
      exact hAfter

end Supervisor

/-- The runs that announce every opening of the worker's breaker with the count that tripped
it are exactly the runs in which every failure that trips a threshold of two or more ends a
burst, on the wall clock and past successes, that was one short of the threshold. -/
theorem opened_counts_iff (T : TaskIds) (roster : Roster) (i : WorkerId) (hMem : i ∈ roster.ids)
    (labels : List SupervisorLabel) (finish : Supervisor × OutcomeLog) :
    Runs (Guarded (Ghosted (SupervisorStep T) (OutcomeLog.update i)) fun c _ c' =>
      Supervisor.CountReported i c.1 c'.1) (.new roster, .none) labels finish ↔
    Runs (Restrict (Ghosted (SupervisorStep T) (OutcomeLog.update i)) (Supervisor.BurstBelow i))
      (.new roster, .none) labels finish := by
  refine runs_guarded_iff_restrict
    (fun c => Supervisor.Books c.1 ∧ i ∈ c.1.ids ∧ c.2.Kept i c.1)
    ⟨Supervisor.books_new roster, hMem, OutcomeLog.kept_new roster i⟩ ?_ ?_
  · intro c label c' hBase hStep
    obtain ⟨hBooks, hIn, hKept⟩ := hBase
    have hSteady := Supervisor.steady_step hBooks hStep.1
    rw [hSteady.ids, hStep.2]
    exact ⟨Supervisor.books_step hBooks hStep.1, hIn, hKept.step hBooks hIn hStep.1⟩
  · intro c label c' hBase hStep
    exact Supervisor.countReported_iff hBase.2.2 hBase.1 hBase.2.1 hStep.1

/-- A worker that is always restarted at once, with a breaker that opens at the second
failure within a minute. -/
def WorkerSpec.doubleTrip : WorkerSpec :=
  { WorkerSpec.new "alpha" with
    restart := .always
    backoff := .none
    circuit := some ⟨2, .fromSecs 60, .fromSecs 30⟩ }

/-- Two failures in a row open the breaker, and the event says so. -/
theorem opened_counts_twice : ∃ finish, Runs
    (Guarded (Ghosted (SupervisorStep .counting) (OutcomeLog.update 1)) fun c _ c' =>
      Supervisor.CountReported 1 c.1 c'.1) (.new (.single .doubleTrip .sync), .none)
      [.start, .finish 0 (.err ⟨"disk full"⟩), .join 0 (some 5) 0, .finish 1 (.err ⟨"disk full"⟩),
        .join 1 (some 6) 0] finish ∧
    openedCounts 1 finish.1.reports = [2] := by
  obtain ⟨c, hRun, hOpened⟩ : ∃ c, replay (fun c label =>
        if Supervisor.BurstBelow 1 c label then
          ghostedExec (Supervisor.exec .counting) (OutcomeLog.update 1) c label else none)
        (.new (.single .doubleTrip .sync), .none)
        [.start, .finish 0 (.err ⟨"disk full"⟩), .join 0 (some 5) 0, .finish 1 (.err ⟨"disk full"⟩),
          .join 1 (some 6) 0] = some c ∧ openedCounts 1 c.1.reports = [2] := ⟨_, rfl, rfl⟩
  refine ⟨c, (opened_counts_iff .counting _ 1 (by decide) _ c).mpr ?_, hOpened⟩
  exact (restricted_of_replay hRun).mono fun _ _ _ hStep => ⟨ghosted_of_exec hStep.1, hStep.2⟩

/-- A failure, a success and two failures: the breaker opens at the second failure since the
success, and the event announces three. -/
theorem opened_counts_past_success : ¬ ∀ (T : TaskIds) (roster : Roster) (i : WorkerId)
    (s s' : Supervisor) (label : SupervisorLabel), i ∈ roster.ids →
    Reachable (SupervisorStep T) (.new roster) s → SupervisorStep T s label s' →
    Supervisor.CountReported i s s' := by
  intro hClaim
  obtain ⟨s, s', hRun, hStep, b, b', hOld, hNew, hClosed, hOpened, hCounts⟩ : ∃ s s',
      replay (Supervisor.exec .counting) (.new (.single .doubleTrip .sync))
        [.start, .finish 0 (.err ⟨"disk full"⟩), .join 0 (some 5) 0, .finish 1 .ok,
          .join 1 (some 6) 0, .finish 2 (.err ⟨"disk full"⟩), .join 2 (some 7) 0,
          .finish 3 (.err ⟨"disk full"⟩)] = some s ∧
      SupervisorStep .counting s (.join 3 (some 8) 0) s' ∧
      ∃ b b', (s.worker 1).circuit = some b ∧ (s'.worker 1).circuit = some b' ∧
        b.state = .closed ∧ b'.state = .opened ∧
        openedCounts 1 (Supervisor.newReports s s') ≠ [b'.failures] :=
    ⟨_, _, rfl, rfl, _, _, rfl, rfl, rfl, rfl, by decide⟩
  exact hCounts (hClaim .counting _ 1 s s' _ (by decide) (runs_of_replay hRun).reachable hStep b b'
    hOld hNew hClosed hOpened).1

end ServiceKernel
