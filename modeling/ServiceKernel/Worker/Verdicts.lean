import ServiceKernel.Worker.Bookkeeping
import ServiceKernel.Worker.Routine

/-! How the supervisor judges a joined task: what it counts, what it tells the
breaker and what it asks the restart policy. -/
namespace ServiceKernel

open Execution

namespace SupervisorRecord

/-- The records in which an outcome is judged. -/
def isVerdict : SupervisorRecord → Bool
  | .handled _ _ _ => true
  | .counter .workersFailed _ => true
  | .breakerUpdated _ _ => true
  | .consulted _ _ _ _ => true
  | _ => false

end SupervisorRecord

/-- The failure count the restart policy is asked about. -/
def RegisteredWorker.attemptsAfter (r : RegisteredWorker) (hasFailed : Bool) (wall : Option Nat) :
    UInt32 :=
  if hasFailed then (r.handle.recordFailure failureWindowNanos (unixNanos wall)).2 else 0

/-- What judging an outcome of this worker leaves in the history. -/
def RegisteredWorker.verdicts (r : RegisteredWorker) (id : WorkerId) (run : Nat)
    (outcome : SupervisorOutcome) (wall : Option Nat) : List SupervisorRecord :=
  [.handled id run outcome] ++
  (if outcome.hasFailed then [.counter .workersFailed r.spec.name] else []) ++
  (if r.circuit.isSome then [.breakerUpdated id outcome.hasFailed] else []) ++
  [.consulted id outcome.hasFailed (r.attemptsAfter outcome.hasFailed wall)
    (r.spec.restart.shouldRestart outcome.hasFailed (r.attemptsAfter outcome.hasFailed wall))]

section Verdicts

variable {r : RegisteredWorker} {id i : WorkerId} {run : Nat} {outcome : SupervisorOutcome}
  {wall : Option Nat} {hasFailed allowed : Bool} {attempts : UInt32}

theorem RegisteredWorker.consulted_mem : .consulted id outcome.hasFailed
    (r.attemptsAfter outcome.hasFailed wall)
    (r.spec.restart.shouldRestart outcome.hasFailed (r.attemptsAfter outcome.hasFailed wall)) ∈
      r.verdicts id run outcome wall :=
  List.mem_append_right _ (List.mem_singleton_self _)

/-- The policy and the breaker are told of the outcome as it is. -/
theorem RegisteredWorker.hasFailed_of_consulted
    (h : .consulted i hasFailed attempts allowed ∈ r.verdicts id run outcome wall) :
    hasFailed = outcome.hasFailed := by
  simp only [verdicts, List.mem_append, List.mem_singleton] at h
  split_ifs at h <;> simp_all

theorem RegisteredWorker.hasFailed_of_breakerUpdated
    (h : .breakerUpdated i hasFailed ∈ r.verdicts id run outcome wall) :
    hasFailed = outcome.hasFailed := by
  simp only [verdicts, List.mem_append, List.mem_singleton] at h
  split_ifs at h <;> simp_all

theorem RegisteredWorker.counter_mem (h : outcome.hasFailed = true) :
    .counter .workersFailed r.spec.name ∈ r.verdicts id run outcome wall := by
  simp [verdicts, h]

end Verdicts

/-- The failure window after judging an outcome of this worker. -/
def RegisteredWorker.windowAfter (r : RegisteredWorker) (hasFailed : Bool) (wall : Option Nat) :
    UInt32 × Int :=
  if hasFailed then (r.handle.recordFailure failureWindowNanos (unixNanos wall)).1.window
  else r.handle.window

namespace Supervisor

/-- The judgements so far, and every worker's failure window. -/
structure Judgements where
  verdicts : List SupervisorRecord
  window : WorkerId → UInt32 × Int

def judgements (s : Supervisor) : Judgements :=
  ⟨s.history.filter (·.isVerdict), fun i => (s.worker i).handle.window⟩

variable {T : TaskIds} {s s' : Supervisor} {id : WorkerId}

theorem judgements_log {record : SupervisorRecord} (h : record.isVerdict = false) :
    (s.log record).judgements = s.judgements := by
  simp [judgements, log, h]

/-- Routine judges nothing. -/
theorem judgements_of_routine (h : s.Routinely s') : s'.judgements = s.judgements := by
  have hVerdicts : s'.history.filter (·.isVerdict) = s.history.filter (·.isVerdict) := by
    apply h.filter_eq
    intro record hRecord
    cases record with
    | counter metric name =>
        cases metric with
        | workersFailed => exact hRecord.elim
        | workersRestarted => rfl
    | _ => first | rfl | exact hRecord.elim
  rw [judgements, hVerdicts, funext h.window]
  rfl

theorem judgements_applyCriticality (name : String) (criticality : Criticality) :
    (s.applyCriticality name criticality).judgements = s.judgements := by
  cases criticality with
  | background => rfl
  | _ => exact judgements_log rfl

theorem judgements_retire (hasFailed : Bool) :
    (s.retire id hasFailed).judgements = s.judgements := by
  have hStopped : ((s.setState id .stopped).emit (.stopped id (s.worker id).spec.name)).judgements =
      s.judgements := judgements_of_routine ((routinely_setState _).log trivial)
  unfold retire
  simp only []
  split_ifs
  · rw [judgements_applyCriticality, judgements_log rfl, hStopped]
  · exact hStopped

theorem announceOutcome_worker (run : Nat) (outcome : SupervisorOutcome) :
    (s.announceOutcome id run outcome).worker = s.worker := by
  cases outcome <;> rfl

theorem announceOutcome_verdicts (run : Nat) (outcome : SupervisorOutcome) :
    (s.announceOutcome id run outcome).judgements.verdicts = s.judgements.verdicts ++
      ([.handled id run outcome] ++
        if outcome.hasFailed then [.counter .workersFailed (s.worker id).spec.name] else []) := by
  cases outcome <;> simp [judgements, announceOutcome, log, emit, SupervisorOutcome.hasFailed,
    SupervisorOutcome.event, SupervisorRecord.isVerdict]

/-- Advancing the circuit concerns the breaker and leaves the rest of the worker. -/
theorem advanceCircuit_judgements (h : id ∈ s.ids) (hasFailed : Bool) :
    (s.advanceCircuit id hasFailed).1.judgements.verdicts = s.judgements.verdicts ++
      (if (s.worker id).circuit.isSome then [.breakerUpdated id hasFailed] else []) ∧
    ((s.advanceCircuit id hasFailed).1.worker id).handle = (s.worker id).handle ∧
    ((s.advanceCircuit id hasFailed).1.worker id).spec = (s.worker id).spec := by
  cases hCircuit : (s.worker id).circuit with
  | none => simp [advanceCircuit, h, hCircuit]
  | some breaker =>
      have hStored : ∀ after : CircuitBreaker,
          (s.storeBreaker id hasFailed after).judgements.verdicts =
            s.judgements.verdicts ++ [SupervisorRecord.breakerUpdated id hasFailed] ∧
          ((s.storeBreaker id hasFailed after).worker id).handle = (s.worker id).handle ∧
          ((s.storeBreaker id hasFailed after).worker id).spec = (s.worker id).spec := by
        intro after
        simp [judgements, storeBreaker, modifyWorker, log, SupervisorRecord.isVerdict]
      simp only [advanceCircuit, if_pos h, hCircuit, Option.isSome_some, if_true]
      split
      · rename_i event hEvent
        rw [emit, judgements_log (by cases event <;> rfl)]
        exact hStored _
      · exact hStored _

theorem consultPolicy_judgements (s : Supervisor) (id : WorkerId) (hasFailed : Bool) (wall : Option Nat) :
    (s.consultPolicy id hasFailed wall).1.judgements.verdicts = s.judgements.verdicts ++
      [.consulted id hasFailed ((s.worker id).attemptsAfter hasFailed wall)
        ((s.worker id).spec.restart.shouldRestart hasFailed
          ((s.worker id).attemptsAfter hasFailed wall))] ∧
    (s.consultPolicy id hasFailed wall).1.judgements.window id =
      (s.worker id).windowAfter hasFailed wall := by
  cases hasFailed <;> simp [judgements, consultPolicy, modifyWorker, log,
    SupervisorRecord.isVerdict, RegisteredWorker.attemptsAfter, RegisteredWorker.windowAfter]

/-- An outcome is judged once, and the failure window of its worker follows. -/
theorem handleOutcome_judgements (h : id ∈ s.ids) (run : Nat) (outcome : SupervisorOutcome)
    (wall : Option Nat) :
    (s.handleOutcome T id run outcome wall).judgements.verdicts =
      s.judgements.verdicts ++ (s.worker id).verdicts id run outcome wall ∧
    (s.handleOutcome T id run outcome wall).judgements.window id =
      (s.worker id).windowAfter outcome.hasFailed wall := by
  let announced := s.announceOutcome id run outcome
  have hWorker : announced.worker = s.worker := announceOutcome_worker run outcome
  have hMem : id ∈ announced.ids := by
    rw [ids_eq (frame_announceOutcome run outcome)]
    exact h
  obtain ⟨hAdvanced, hHandle, hSpec⟩ := advanceCircuit_judgements hMem outcome.hasFailed
  let advanced := (announced.advanceCircuit id outcome.hasFailed).1
  have hMem' : id ∈ advanced.ids := by
    rw [ids_eq (advanceCircuit_spec hMem outcome.hasFailed).1]
    exact hMem
  obtain ⟨hConsulted, hWindow⟩ := consultPolicy_judgements advanced id
    outcome.hasFailed wall
  have hDecided : (s.handleOutcome T id run outcome wall).judgements =
      (advanced.consultPolicy id outcome.hasFailed wall).1.judgements := by
    simp only [handleOutcome, if_pos h, maybeRestart]
    rw [if_pos hMem']
    simp only [decideRestart]
    split_ifs
    · exact judgements_of_routine (routinely_beginRestart _)
    · exact judgements_retire _
  have hHandle' : (advanced.worker id).handle = (s.worker id).handle := by rw [hHandle, hWorker]
  have hSpec' : (advanced.worker id).spec = (s.worker id).spec := by rw [hSpec, hWorker]
  have hAttempts : (advanced.worker id).attemptsAfter outcome.hasFailed wall =
      (s.worker id).attemptsAfter outcome.hasFailed wall := by
    simp only [RegisteredWorker.attemptsAfter, hHandle']
  rw [hDecided, hConsulted, hWindow, hAdvanced, announceOutcome_verdicts, hAttempts, hSpec', hWorker]
  refine ⟨?_, by simp only [RegisteredWorker.windowAfter, hHandle']⟩
  simp only [RegisteredWorker.verdicts, List.append_assoc]

theorem joined_judgements (hTasks : s.tasks.Consistent) {task : Task} (hMem : task ∈ s.joinSet)
    {result : JoinResult} (hResult : task.result = some result) {outcome : SupervisorOutcome}
    (hOutcome : result.outcome = some outcome) (wall : Option Nat) (now : Instant) :
    ({ s with clock := now }.joined T task result wall).judgements.verdicts =
      s.judgements.verdicts ++
        (s.worker task.worker).verdicts task.worker task.run outcome wall ∧
    ({ s with clock := now }.joined T task result wall).judgements.window task.worker =
      (s.worker task.worker).windowAfter outcome.hasFailed wall := by
  let ready : Supervisor := { s with clock := now }
  have hOwner : task.worker ∈ (ready.removeTask task).ids := hTasks.known task hMem
  rw [joined_eq (s := ready) hTasks hMem hResult hOutcome]
  exact handleOutcome_judgements hOwner task.run outcome wall

/-- The judgements a step adds. -/
def newVerdicts (s s' : Supervisor) : List SupervisorRecord :=
  s'.judgements.verdicts.drop s.judgements.verdicts.length

/-- The step treats the worker's outcome as a failure, read at `wall` and `now`: the
metric and the failure count advance, the breaker gets a failure and no success,
and the restart policy is asked about a failure. -/
structure FailureCounted (s s' : Supervisor) (id : WorkerId) (wall : Option Nat) (now : Instant) :
    Prop where
  metric : .counter .workersFailed (s.worker id).spec.name ∈ newVerdicts s s'
  failures : s'.judgements.window id =
    ((s.worker id).handle.recordFailure failureWindowNanos (unixNanos wall)).1.window
  breaker : (s'.worker id).circuit = (s.worker id).circuit.map (·.recordFailure now)
  noSuccess : .breakerUpdated id false ∉ newVerdicts s s'
  policy : ∃ attempts allowed, .consulted id true attempts allowed ∈ newVerdicts s s'
  onlyFailure : ∀ hasFailed attempts allowed,
    .consulted id hasFailed attempts allowed ∈ newVerdicts s s' → hasFailed = true

/-- A joined task counts as a failure exactly if its outcome is one. -/
theorem failureCounted_iff (hTasks : s.tasks.Consistent) {task : Task} (hMem : task ∈ s.joinSet)
    {result : JoinResult} (hResult : task.result = some result) {outcome : SupervisorOutcome}
    (hOutcome : result.outcome = some outcome) (wall : Option Nat) (now : Instant) :
    FailureCounted s ({ s with clock := now }.joined T task result wall) task.worker wall now ↔
      outcome.hasFailed = true := by
  obtain ⟨hVerdicts, hWindow⟩ :=
    joined_judgements (T := T) hTasks hMem hResult hOutcome wall now
  obtain ⟨-, mid, _, -, -, hSettled, -, hAfter⟩ :=
    joined_spec (T := T) hTasks hMem hResult hOutcome wall now
  have hNew : newVerdicts s ({ s with clock := now }.joined T task result wall) =
      (s.worker task.worker).verdicts task.worker task.run outcome wall := by
    rw [newVerdicts, hVerdicts, List.drop_left]
  have hBreaker : (({ s with clock := now }.joined T task result wall).worker task.worker).circuit =
      (s.worker task.worker).circuit.map (·.record outcome.hasFailed now) := by
    have hMoved := hAfter.breaker (i := task.worker)
    rw [hSettled, if_pos rfl] at hMoved
    exact hMoved
  constructor
  · intro hCounted
    exact hCounted.onlyFailure _ _ _ (hNew ▸ RegisteredWorker.consulted_mem)
  · intro hFailed
    rw [hFailed] at hWindow hBreaker
    refine ⟨hNew ▸ RegisteredWorker.counter_mem hFailed, hWindow, hBreaker, fun hIn => ?_, ?_,
      fun hasFailed attempts allowed hIn => ?_⟩
    · have hSame := RegisteredWorker.hasFailed_of_breakerUpdated (hNew ▸ hIn)
      rw [hFailed] at hSame
      cases hSame
    · rw [hNew, ← hFailed]
      exact ⟨_, _, RegisteredWorker.consulted_mem⟩
    · exact (RegisteredWorker.hasFailed_of_consulted (hNew ▸ hIn)).trans hFailed

end Supervisor

/-- The run was spawned and its worker was reported since. For a task that is still
in the join set this means that it was reported while in flight. -/
def reportedInFlight (history : List SupervisorRecord) (id : WorkerId) (run : Nat) : Bool :=
  (history.dropWhile fun record => !record.isSpawn id run).any (·.isTimeout id)

/-- A joined task that was reported in flight counts as a failure. -/
def TimeoutFails (s : Supervisor) (label : SupervisorLabel) (s' : Supervisor) : Prop :=
  match label with
  | .join run wall now => ∀ task, s.findTask run = some task →
      reportedInFlight s.history task.worker run = true →
        Supervisor.FailureCounted s s' task.worker wall now
  | _ => True

/-- A joined task that was reported in flight did not return `Ok(())`. -/
def TimedOutNotOk (s : Supervisor) (label : SupervisorLabel) : Prop :=
  match label with
  | .join run _ _ => ∀ task, s.findTask run = some task →
      reportedInFlight s.history task.worker run = true →
        task.result ≠ some (.returned task.worker .completed)
  | _ => True

theorem timeoutFails_iff {T : TaskIds} {s s' : Supervisor} {label : SupervisorLabel}
    (h : s.Books) (hStep : SupervisorStep T s label s') :
    TimeoutFails s label s' ↔ TimedOutNotOk s label := by
  cases Supervisor.takes_of_step hStep with
  | @join run wall now task result hPhase hRunning hClock hTask hResult =>
      have hMem := (Supervisor.findTask_mem hTask).1
      obtain ⟨outcome, hOutcome⟩ :=
        (h.balanced (.of_phase hPhase (Or.inl rfl))).1.outcome hMem hResult
      have hCounted := Supervisor.failureCounted_iff (T := T) h.consistent hMem hResult hOutcome
        wall now
      have hOk : outcome.hasFailed = true ↔
          task.result ≠ some (.returned task.worker .completed) := by
        rw [hResult, Ne, Option.some.injEq]
        cases result with
        | returned worker o =>
            obtain rfl := Option.some.inj hOutcome
            obtain rfl := h.consistent.owned task hMem worker o hResult
            cases o <;> simp [SupervisorOutcome.hasFailed]
        | panicked reason =>
            obtain rfl := Option.some.inj hOutcome
            simp [SupervisorOutcome.hasFailed]
        | cancelled => cases hOutcome
      simp only [TimeoutFails, TimedOutNotOk, hTask, Option.some.injEq, forall_eq', hCounted, hOk]
  | _ => exact Iff.rfl

/-- The runs in which every timed-out task counts as a failure are exactly the runs
in which no timed-out task returns `Ok(())`. -/
theorem timed_out_fails_iff (T : TaskIds) (roster : Roster) (labels : List SupervisorLabel)
    (finish : Supervisor) :
    Runs (Guarded (SupervisorStep T) TimeoutFails) (.new roster) labels finish ↔
      Runs (Restrict (SupervisorStep T) TimedOutNotOk) (.new roster) labels finish :=
  runs_guarded_iff_restrict Supervisor.Books (Supervisor.books_new roster)
    (fun _ _ _ h hStep => Supervisor.books_step h hStep) fun _ _ _ h hStep => timeoutFails_iff h hStep

/-- A worker is reported after five silent seconds, notices its cancellation and
returns `Ok(())`: the restart policy is asked about a success. -/
theorem timed_out_success : ¬ ∀ s label s',
    Reachable (SupervisorStep .counting) (.new (.single .watched .sync)) s →
      SupervisorStep .counting s label s' → TimeoutFails s label s' := by
  intro hClaim
  obtain ⟨s, s', hRun, hStep, hTask, hReported, hJudged⟩ : ∃ s s',
      replay (Supervisor.exec .counting) (.new (.single .watched .sync))
        [.start, .heartbeat 0 (some 1), .tick (some 5000000001) (fun _ => 1) 1, .finish 0 .ok] =
          some s ∧
      SupervisorStep .counting s (.join 0 (some 5000000002) 2) s' ∧
      (s.findTask 0).map Task.worker = some 1 ∧ reportedInFlight s.history 1 0 = true ∧
      .consulted 1 false 0 true ∈ Supervisor.newVerdicts s s' :=
    ⟨_, _, rfl, rfl, rfl, rfl, by decide⟩
  obtain ⟨task, hFound, hWorker⟩ := Option.map_eq_some_iff.mp hTask
  have hCounted := hClaim s _ s' (runs_of_replay hRun).reachable hStep task hFound
    (hWorker ▸ hReported)
  exact absurd (hCounted.onlyFailure false 0 true (hWorker ▸ hJudged)) (by decide)

end ServiceKernel
