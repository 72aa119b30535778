import ServiceKernel.Worker.Steps

/-! A rule for invariants that speak of the history and of the cells workers share
with their contexts: what survives the supervisor's elementary effects survives
every step. -/
namespace ServiceKernel

open Execution

/-- Records that the supervisor makes one at a time and that no invariant of the
history has to account for. -/
def SupervisorRecord.Plain : SupervisorRecord → Prop
  | .event (.failed _ _ _) => False
  | .event (.panicked _ _ _) => False
  | .event (.restarted _ _ _) => False
  | .event (.timeout _ _ _) => False
  | .counter _ _ => False
  | .spawned _ _ _ => False
  | .handled _ _ _ => False
  | .criticalityApplied _ => False
  | .shutdownSignalled => False
  | .healthReported _ _ => False
  | .heartbeat _ _ _ => False
  | .cancelCalled => False
  | .workerCancelCalled _ => False
  | _ => True

/-- The records of an escalation. -/
def SupervisorRecord.Escalates : SupervisorRecord → Prop
  | .criticalityApplied _ => True
  | .shutdownSignalled => True
  | .healthReported _ _ => True
  | _ => False

/-- The token, the heartbeat cell and the registration are as they were. -/
structure RegisteredWorker.SameCells (r r' : RegisteredWorker) : Prop where
  cancelled : r'.handle.cancelled = r.handle.cancelled
  lastHeartbeat : r'.lastHeartbeat = r.lastHeartbeat
  handleId : r'.handle.id = r.handle.id
  spec : r'.spec = r.spec

theorem RegisteredWorker.SameCells.refl (r : RegisteredWorker) : r.SameCells r :=
  ⟨rfl, rfl, rfl, rfl⟩

namespace Supervisor

/-- The elementary effects of the supervisor and its environment keep `inv`. -/
structure Durable (T : TaskIds) (inv : Supervisor → Prop) : Prop where
  workers : ∀ {s} {worker : WorkerId → RegisteredWorker},
    (∀ i, (s.worker i).SameCells (worker i)) → inv s → inv { s with worker := worker }
  log : ∀ {s} {record : SupervisorRecord}, record.Plain → inv s → inv (s.log record)
  tasks : ∀ {s} {joinSet : List Task} {taskToWorker : AList fun _ : TaskId => WorkerId},
    inv s → inv { s with joinSet := joinSet, taskToWorker := taskToWorker }
  control : ∀ {s} {phase : SupervisorPhase} {clock : Instant},
    inv s → inv { s with phase := phase, clock := clock }
  spawn : ∀ {s} {id : WorkerId}, id ∈ s.ids → inv s → inv (s.spawnTask T id)
  announce : ∀ {s} {id : WorkerId} {run : Nat} {outcome : SupervisorOutcome},
    inv s → inv (s.announceOutcome id run outcome)
  restart : ∀ {s} {id : WorkerId} {name : String} {attempt : UInt32},
    inv s → inv ((s.emit (.restarted id name attempt)).log (.counter .workersRestarted name))
  escalate : ∀ {s} {id : WorkerId}, inv s → inv ((s.log (.criticalityApplied id)).applyCriticality
    (s.worker id).spec.name (s.worker id).spec.criticality)
  timeout : ∀ {s} {timeout : WatchdogTimeout}, inv s → inv (s.reportTimeout timeout)
  stopping : ∀ {s} {id : WorkerId}, s.cancelled = true → inv s → inv (s.cancelWorkerToken id)
  heartbeat : ∀ {s} {id : WorkerId} {run : Nat} {nanos : Int}, s.contexts[run]? = some id → inv s →
    inv ((s.modifyWorker id fun r => { r with lastHeartbeat := nanos }).log (.heartbeat id run nanos))
  cancel : ∀ {s}, inv s → inv ({ s with cancelled := true }.log .cancelCalled)
  cancelWorker : ∀ {s} {id : WorkerId}, id ∈ s.ids → inv s →
    inv ((s.cancelWorkerToken id).log (.workerCancelCalled id))

/-- What any record of an escalation keeps, an escalation keeps. -/
theorem escalate_keeps {inv : Supervisor → Prop} {s : Supervisor} {id : WorkerId} {name : String}
    {criticality : Criticality}
    (hLog : ∀ {s record}, record.Escalates → inv s → inv (s.log record)) (h : inv s) :
    inv ((s.log (.criticalityApplied id)).applyCriticality name criticality) := by
  have hApplied : inv (s.log (.criticalityApplied id)) := hLog trivial h
  cases criticality with
  | critical => exact hLog trivial hApplied
  | essential => exact hLog trivial hApplied
  | optional => exact hLog trivial hApplied
  | background => exact hApplied

namespace Durable

variable {T : TaskIds} {inv : Supervisor → Prop} {s : Supervisor} {id : WorkerId}

theorem modify (D : Durable T inv) (h : inv s) {f : RegisteredWorker → RegisteredWorker}
    (hCells : ∀ r : RegisteredWorker, r.SameCells (f r)) : inv (s.modifyWorker id f) := by
  refine D.workers (fun i => ?_) h
  rcases eq_or_ne i id with rfl | hne
  · simpa using hCells (s.worker i)
  · simpa [hne] using RegisteredWorker.SameCells.refl _

theorem setState (D : Durable T inv) (h : inv s) (state : WorkerState) :
    inv (s.setState id state) :=
  D.log trivial (D.modify h fun _ => ⟨rfl, rfl, rfl, rfl⟩)

theorem spawnOne (D : Durable T inv) (h : inv s) : inv (s.spawnOne T id) := by
  unfold Supervisor.spawnOne
  split_ifs with hMem
  · have hSpawned := D.spawn (s := s.setState id .starting) hMem (D.setState h .starting)
    exact D.log trivial (D.setState hSpawned .running)
  · exact h

theorem restartNow (D : Durable T inv) (h : inv s) (name : String) (attempts : UInt32) :
    inv (s.restartNow T id name attempts) :=
  D.control (D.spawnOne (D.restart h))

theorem storeBreaker (D : Durable T inv) (h : inv s) (hasFailed : Bool) (after : CircuitBreaker) :
    inv (s.storeBreaker id hasFailed after) :=
  D.log trivial (D.modify h fun _ => ⟨rfl, rfl, rfl, rfl⟩)

theorem advanceCircuit (D : Durable T inv) (h : inv s) (hasFailed : Bool) :
    inv (s.advanceCircuit id hasFailed).1 := by
  unfold Supervisor.advanceCircuit
  split_ifs
  · split
    · exact h
    · rename_i breaker hBreaker
      have hStored : inv (s.storeBreaker id hasFailed (breaker.record hasFailed s.clock)) :=
        D.storeBreaker h hasFailed _
      simp only []
      split
      · rename_i event hEvent
        refine D.log ?_ hStored
        revert hEvent
        cases breaker.state <;> cases (breaker.record hasFailed s.clock).state <;>
          rintro ⟨⟩ <;> trivial
      · exact hStored
  · exact h

theorem consultPolicy (D : Durable T inv) (h : inv s) (hasFailed : Bool) (wall : Option Nat) :
    inv (s.consultPolicy id hasFailed wall).1 := by
  refine D.log trivial (D.workers (fun i => ?_) h)
  rcases eq_or_ne i id with rfl | hne
  · simp only [Function.update_self]
    cases hasFailed <;> exact ⟨rfl, rfl, rfl, rfl⟩
  · simpa [hne] using RegisteredWorker.SameCells.refl _

theorem beginRestart (D : Durable T inv) (h : inv s) (attempts : UInt32) :
    inv (s.beginRestart T id attempts) := by
  unfold Supervisor.beginRestart
  simp only []
  split_ifs
  · exact D.restartNow (D.setState h _) _ _
  · exact D.control (D.log trivial (D.setState h .restarting))

theorem retire (D : Durable T inv) (h : inv s) (hasFailed : Bool) : inv (s.retire id hasFailed) := by
  let stopped := (s.setState id .stopped).emit (.stopped id (s.worker id).spec.name)
  have hStopped : inv stopped := D.log trivial (D.setState h _)
  have hSpec : (stopped.worker id).spec = (s.worker id).spec := by
    simp [stopped, Supervisor.setState, modifyWorker, emit, Supervisor.log]
  have hEscalated : inv ((stopped.log (.criticalityApplied id)).applyCriticality
      (stopped.worker id).spec.name (stopped.worker id).spec.criticality) := D.escalate hStopped
  rw [hSpec] at hEscalated
  unfold Supervisor.retire
  simp only []
  split_ifs
  · exact hEscalated
  · exact hStopped

theorem handleOutcome (D : Durable T inv) (h : inv s) (run : Nat) (outcome : SupervisorOutcome)
    (wall : Option Nat) : inv (s.handleOutcome T id run outcome wall) := by
  have hAdvanced :
      inv ((s.announceOutcome id run outcome).advanceCircuit id outcome.hasFailed).1 :=
    D.advanceCircuit (D.announce h) outcome.hasFailed
  unfold Supervisor.handleOutcome Supervisor.maybeRestart Supervisor.decideRestart
  simp only []
  split_ifs
  · exact D.beginRestart (D.consultPolicy hAdvanced _ _) _
  · exact D.retire (D.consultPolicy hAdvanced _ _) _
  · exact hAdvanced
  · exact h

theorem joined (D : Durable T inv) (h : inv s) (task : Task) (result : JoinResult)
    (wall : Option Nat) : inv (s.joined T task result wall) := by
  have hRemoved : inv (s.removeTask task) := D.tasks h
  cases result with
  | returned id outcome => exact D.handleOutcome hRemoved ..
  | panicked reason =>
      simp only [Supervisor.joined]
      split
      · exact D.handleOutcome hRemoved ..
      · exact hRemoved
  | cancelled => exact hRemoved

theorem tickBreakers (D : Durable T inv) (h : inv s) (nows : WorkerId → Instant) :
    inv (s.tickBreakers nows) := by
  refine D.workers (fun i => ?_) h
  split_ifs
  · exact ⟨rfl, rfl, rfl, rfl⟩
  · exact .refl _

theorem startTrial (D : Durable T inv) (h : inv s) : inv (s.startTrial T id) := by
  have hAnnounced : inv (s.emit (.circuitHalfOpened id (s.worker id).spec.name)) := D.log trivial h
  unfold Supervisor.startTrial Supervisor.spawnOneIfIdle
  simp only []
  split_ifs
  · exact hAnnounced
  · exact D.spawnOne hAnnounced

theorem watchdogTick (D : Durable T inv) (h : inv s) (wall : Option Nat)
    (nows : WorkerId → Instant) : inv (s.watchdogTick T wall nows) :=
  foldl_keeps inv (foldl_keeps inv (D.tickBreakers h nows) fun _ _ _ hSt => D.startTrial hSt)
    fun _ _ _ hSt => D.timeout hSt

/-- The rule: a durable invariant is kept by every step. -/
theorem step (D : Durable T inv) {s' : Supervisor} {label : SupervisorLabel} (h : inv s)
    (hStep : SupervisorStep T s label s') : inv s' := by
  cases takes_of_step hStep with
  | start hPhase =>
      exact D.control (foldl_keeps inv h fun _ _ _ hSt => D.spawnOne hSt)
  | tick hPhase hNows hClock => exact D.control (D.watchdogTick h _ _)
  | join hPhase hRunning hClock hTask hResult => exact D.joined (D.control h) _ _ _
  | joinNone hPhase hEmpty => exact D.control h
  | backoffElapsed hPhase hDue hClock => exact D.restartNow (D.control h) _ _
  | backoffCancelled hPhase hCancelled => exact D.control h
  | cancelObserved hPhase hCancelled hClock =>
      have hStopping : (s.ids.foldl stopWorker s).cancelled = true ∧
          inv (s.ids.foldl stopWorker s) :=
        foldl_keeps (fun st : Supervisor => st.cancelled = true ∧ inv st) ⟨hCancelled, h⟩
          fun st key _ hSt => ⟨hSt.1, D.log trivial
            (D.stopping (s := st.setState key .stopping) hSt.1 (D.setState hSt.2 _))⟩
      exact D.control hStopping.2
  | drain hPhase hTask hResult => exact D.control (D.tasks h)
  | drainAborting hPhase hTask hResult => exact D.control (D.tasks h)
  | graceExpired hPhase hDue hClock => exact D.control h
  | drained hPhase hEmpty =>
      exact D.control (foldl_keeps inv h fun _ _ _ hSt => D.log trivial (D.setState hSt _))
  | finish hTask hRunning => exact D.tasks h
  | abort hPhase hTask hRunning => exact D.tasks h
  | heartbeat hContext => exact D.heartbeat hContext h
  | cancel => exact D.cancel h
  | cancelWorker hMem => exact D.cancelWorker hMem h

end Durable

variable {T : TaskIds}

/-- Nothing that was recorded is forgotten. -/
theorem history_durable (record : SupervisorRecord) : Durable T fun s => record ∈ s.history where
  workers _ h := h
  log _ h := List.mem_append_left _ h
  tasks h := h
  control h := h
  spawn _ h := List.mem_append_left _ h
  announce {s id run outcome} h := by
    have hEvent : record ∈ ((s.log (.handled id run outcome)).emit
        (outcome.event id (s.worker id).spec.name)).history :=
      List.mem_append_left _ (List.mem_append_left _ h)
    unfold announceOutcome
    simp only []
    split_ifs
    · exact List.mem_append_left _ hEvent
    · exact hEvent
  restart h := List.mem_append_left _ (List.mem_append_left _ h)
  escalate h := @escalate_keeps (fun s => record ∈ s.history) _ _ _ _
    (fun _ h => List.mem_append_left _ h) h
  timeout {s timeout} h := by
    unfold reportTimeout
    simp only []
    split_ifs
    · exact List.mem_append_left _ h
    · exact List.mem_append_left _ h
  stopping _ h := h
  heartbeat _ h := List.mem_append_left _ h
  cancel h := List.mem_append_left _ h
  cancelWorker _ h := List.mem_append_left _ h

/-- Nothing takes a cancellation back. -/
theorem cancelled_durable : Durable T fun s => s.cancelled = true where
  workers _ h := h
  log _ h := h
  tasks h := h
  control h := h
  spawn _ h := h
  announce {s id run outcome} h := by
    unfold announceOutcome
    simp only []
    split_ifs
    · exact h
    · exact h
  restart h := h
  escalate h := @escalate_keeps (fun s => s.cancelled = true) _ _ _ _ (fun _ h => h) h
  timeout {s timeout} h := by
    unfold reportTimeout
    simp only []
    split_ifs
    · exact h
    · exact h
  stopping _ h := h
  heartbeat _ h := h
  cancel _ := rfl
  cancelWorker _ h := h

end Supervisor

end ServiceKernel
