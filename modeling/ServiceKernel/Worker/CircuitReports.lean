import ServiceKernel.Worker.LifeSteps

/-! What the supervisor tells of a worker in trouble: that its breaker opened or closed, and
the health mark it gets when it is retired after a failure. Only a joined outcome is
reported, and the report is told from the worker as it was before. -/
namespace ServiceKernel

open Execution

/-- A breaker has opened or closed, or a worker is marked in the health registry. -/
def SupervisorRecord.isReport : SupervisorRecord → Bool
  | .event (.circuitOpened _ _ _) => true
  | .event (.circuitClosed _ _) => true
  | .healthReported _ _ => true
  | _ => false

/-- The health status of a worker that is retired after a failure. -/
def Criticality.mark : Criticality → Option HealthStatus
  | .essential => some .unhealthy
  | .optional => some .degraded
  | _ => none

namespace RegisteredWorker

variable (r : RegisteredWorker) (id : WorkerId) (hasFailed : Bool) (wall : Option Nat) (now : Instant)

/-- The outcome leaves the worker's breaker open. -/
def opens : Bool := r.circuit.any fun b => decide ((b.record hasFailed now).state = .opened)

/-- The worker is restarted after the outcome. -/
def restarts : Bool :=
  r.spec.restart.shouldRestart hasFailed (r.attemptsAfter hasFailed wall) && !r.opens hasFailed now

/-- How the outcome moves the breaker. -/
def circuitMove : Option WorkerLifecycleEvent :=
  r.circuit.bind fun b => Supervisor.circuitEvent id r.spec.name (saturatingAddU32 r.attempts 1)
    b.state (b.record hasFailed now).state

/-- The mark of a worker that a failure retires. -/
def marked : Option HealthStatus :=
  if hasFailed && !r.restarts hasFailed wall now then r.spec.criticality.mark else none

/-- What judging an outcome of this worker reports. -/
def reported : List SupervisorRecord :=
  (r.circuitMove id hasFailed now).toList.map .event ++
    (r.marked hasFailed wall now).toList.map (.healthReported r.spec.name)

end RegisteredWorker

namespace Supervisor

variable {T : TaskIds} {s s' : Supervisor} {id i : WorkerId} {label : SupervisorLabel}

def reports (s : Supervisor) : List SupervisorRecord := s.history.filter (·.isReport)

section Quiet

theorem reports_log {record : SupervisorRecord} (h : record.isReport = false) :
    (s.log record).reports = s.reports := by
  simp [reports, log, h]

/-- Routine reports nothing. -/
theorem reports_of_routine (h : s.Routinely s') : s'.reports = s.reports := by
  apply h.filter_eq
  intro record hRecord
  cases record with
  | event event => cases event <;> first | rfl | exact hRecord.elim
  | _ => first | rfl | exact hRecord.elim

theorem reports_announceOutcome (run : Nat) (outcome : SupervisorOutcome) :
    (s.announceOutcome id run outcome).reports = s.reports := by
  cases outcome <;> simp [announceOutcome, reports, log, emit, SupervisorOutcome.event,
    SupervisorOutcome.hasFailed, SupervisorRecord.isReport]

theorem reports_consultPolicy (hasFailed : Bool) (wall : Option Nat) :
    (s.consultPolicy id hasFailed wall).1.reports = s.reports :=
  reports_log (s := s.modifyWorker id _) rfl

theorem reports_reportTimeout (timeout : WatchdogTimeout) :
    (s.reportTimeout timeout).reports = s.reports := by
  have hEvent : (s.emit (.timeout timeout.id timeout.name timeout.silentFor)).reports = s.reports :=
    reports_log rfl
  unfold reportTimeout
  simp only []
  split_ifs
  · exact hEvent
  · exact hEvent

theorem reports_watchdogTick (wall : Option Nat) (nows : WorkerId → Instant) :
    (s.watchdogTick T wall nows).reports = s.reports :=
  foldl_keeps (fun st : Supervisor => st.reports = s.reports)
    (reports_of_routine (routinely_trials nows))
    fun _ timeout _ hSt => (reports_reportTimeout timeout).trans hSt

end Quiet

section Judged

/-- Advancing the circuit reports how the breaker moved. -/
theorem reports_advanceCircuit (h : id ∈ s.ids) (hasFailed : Bool) :
    (s.advanceCircuit id hasFailed).1.reports =
      s.reports ++ ((s.worker id).circuitMove id hasFailed s.clock).toList.map .event ∧
    (s.advanceCircuit id hasFailed).2 = (s.worker id).opens hasFailed s.clock := by
  cases hCircuit : (s.worker id).circuit with
  | none => simp [advanceCircuit, h, hCircuit, RegisteredWorker.circuitMove, RegisteredWorker.opens]
  | some breaker =>
      have hStored : ∀ after : CircuitBreaker,
          (s.storeBreaker id hasFailed after).reports = s.reports := fun after =>
        reports_log (s := s.modifyWorker id _) rfl
      simp only [advanceCircuit, if_pos h, hCircuit, RegisteredWorker.circuitMove,
        RegisteredWorker.opens, Option.bind_some, Option.any_some, and_true]
      split
      · rename_i event hEvent
        have hReport : (SupervisorRecord.event event).isReport = true := by
          revert hEvent
          cases breaker.state <;> cases (breaker.record hasFailed s.clock).state <;>
            rintro ⟨⟩ <;> rfl
        rw [hEvent, ← hStored (breaker.record hasFailed s.clock)]
        simp [reports, emit, log, hReport]
      · rename_i hNone
        rw [hNone, hStored]
        simp

/-- Retiring a worker after a failure reports its mark. -/
theorem reports_retire (s : Supervisor) (id : WorkerId) (hasFailed : Bool) :
    (s.retire id hasFailed).reports = s.reports ++
      (if hasFailed then (s.worker id).spec.criticality.mark else none).toList.map
        (.healthReported (s.worker id).spec.name) := by
  have hStopped : ((s.setState id .stopped).emit (.stopped id (s.worker id).spec.name)).reports =
      s.reports := reports_of_routine ((routinely_setState _).log trivial)
  cases hasFailed with
  | false => simpa [retire] using hStopped
  | true =>
      have hApplied : (((s.setState id .stopped).emit (.stopped id (s.worker id).spec.name)).log
          (.criticalityApplied id)).reports = s.reports := (reports_log rfl).trans hStopped
      rw [← hApplied]
      simp only [retire, if_true]
      cases (s.worker id).spec.criticality <;>
        simp [applyCriticality, Criticality.mark, reports, log, SupervisorRecord.isReport]

/-- Handling an outcome reports what the worker, as it was, makes of it. -/
theorem reports_handleOutcome (h : id ∈ s.ids) (run : Nat) (outcome : SupervisorOutcome)
    (wall : Option Nat) : (s.handleOutcome T id run outcome wall).reports =
      s.reports ++ (s.worker id).reported id outcome.hasFailed wall s.clock := by
  let announced := s.announceOutcome id run outcome
  have hFrame : announced.frame = s.frame := frame_announceOutcome run outcome
  have hWorker : announced.worker = s.worker := announceOutcome_worker run outcome
  have hMem : id ∈ announced.ids := ids_eq hFrame ▸ h
  obtain ⟨hMoved, hOpens⟩ := reports_advanceCircuit hMem outcome.hasFailed
  rw [hWorker, clock_eq hFrame] at hMoved hOpens
  obtain ⟨-, hHandle, hSpec⟩ := advanceCircuit_judgements hMem outcome.hasFailed
  rw [hWorker] at hHandle hSpec
  let advanced := (announced.advanceCircuit id outcome.hasFailed).1
  have hMem' : id ∈ advanced.ids := by
    rw [ids_eq (advanceCircuit_spec hMem outcome.hasFailed).1]
    exact hMem
  let consulted := (advanced.consultPolicy id outcome.hasFailed wall).1
  have hConsulted : consulted.reports = s.reports ++
      ((s.worker id).circuitMove id outcome.hasFailed s.clock).toList.map .event := by
    rw [reports_consultPolicy, hMoved, reports_announceOutcome]
  have hSpec' : (consulted.worker id).spec = (s.worker id).spec :=
    (congrFun (congrArg Frame.spec (frame_consultPolicy outcome.hasFailed wall)) id).trans hSpec
  have hAttempts : (advanced.worker id).attemptsAfter outcome.hasFailed wall =
      (s.worker id).attemptsAfter outcome.hasFailed wall := by
    simp only [RegisteredWorker.attemptsAfter, advanced, announced, hHandle]
  have hAllows : (advanced.consultPolicy id outcome.hasFailed wall).2.1 =
      (s.worker id).spec.restart.shouldRestart outcome.hasFailed
        ((s.worker id).attemptsAfter outcome.hasFailed wall) := by
    rw [consultPolicy_allows, hAttempts, hSpec]
  simp only [handleOutcome, if_pos h, maybeRestart]
  rw [if_pos hMem']
  simp only [decideRestart]
  have hRestarts : ((advanced.consultPolicy id outcome.hasFailed wall).2.1 &&
      !(announced.advanceCircuit id outcome.hasFailed).2) =
        (s.worker id).restarts outcome.hasFailed wall s.clock := by
    rw [hAllows, hOpens, RegisteredWorker.restarts]
  rw [hRestarts, RegisteredWorker.reported, RegisteredWorker.marked, ← List.append_assoc,
    ← hConsulted]
  cases (s.worker id).restarts outcome.hasFailed wall s.clock with
  | true =>
      rw [if_pos rfl, reports_of_routine (routinely_beginRestart _)]
      simp [consulted, advanced, announced]
  | false =>
      rw [if_neg (by decide), reports_retire, hSpec', Bool.not_false, Bool.and_true]

/-- What a step reports, told from the state before it. -/
def reportedBy (s : Supervisor) : SupervisorLabel → List SupervisorRecord
  | .join run wall now => ((s.findTask run).bind fun task => task.outcome.map fun outcome =>
      (s.worker task.worker).reported task.worker outcome.hasFailed wall now).getD []
  | _ => []

/-- Only a joined outcome is reported. -/
theorem reports_of_step (hBooks : Books s) (hStep : SupervisorStep T s label s') :
    s'.reports = s.reports ++ s.reportedBy label := by
  have hQuiet {t : Supervisor} (h : t.reports = s.reports) : t.reports = s.reports ++ [] := by
    rw [h, List.append_nil]
  cases label with
  | tick wall nows after =>
      cases takes_of_step hStep with
      | tick => exact hQuiet (t := s.watchdogTick T wall nows) (reports_watchdogTick ..)
  | join run wall now =>
      cases takes_of_step hStep with
      | @join _ _ _ task result hPhase hRunning hClock hTask hResult =>
          have hIn := (findTask_mem hTask).1
          obtain ⟨outcome, hOutcome, hEnded⟩ := hBooks.outcome_of_head hPhase hIn hResult
          have hOwner : task.worker ∈ ({ s with clock := now }.removeTask task).ids :=
            hBooks.consistent.known task hIn
          rw [joined_eq (s := { s with clock := now }) hBooks.consistent hIn hResult hOutcome]
          simp only [reportedBy, hTask, Option.bind_some, hEnded, Option.map_some, Option.getD_some]
          exact reports_handleOutcome hOwner task.run outcome wall
  | _ =>
      refine hQuiet (reports_of_routine (routinely_of_step hStep ?_ ?_))
      · simp
      · simp

end Judged

end Supervisor

end ServiceKernel
