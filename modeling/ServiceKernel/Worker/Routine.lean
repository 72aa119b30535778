import ServiceKernel.Worker.Steps

/-! The routine of the supervisor: it spawns, restarts and stops workers and puts their
breakers on trial. This adds records of its own to the history, and judges no outcome. -/
namespace ServiceKernel

open Execution

/-- The records that no judgement, report or timeout is part of. -/
def SupervisorRecord.Routine : SupervisorRecord → Prop
  | .stateSet _ _ => True
  | .spawned _ _ _ => True
  | .event (.started _ _) => True
  | .event (.restarted _ _ _) => True
  | .event (.stopping _) => True
  | .event (.stopped _ _) => True
  | .event (.circuitHalfOpened _ _) => True
  | .counter .workersRestarted _ => True
  | .backingOff _ _ => True
  | .heartbeat _ _ _ => True
  | .cancelCalled => True
  | .workerCancelCalled _ => True
  | _ => False

/-- The failure count of a worker and the time of its last failure. -/
def WorkerHandle.window (h : WorkerHandle) : UInt32 × Int := (h.failuresInWindow, h.lastFailureNanos)

namespace Supervisor

variable {T : TaskIds} {s s' s'' : Supervisor} {id i : WorkerId} {label : SupervisorLabel}

/-- Only routine records are added, and no failure is counted. -/
structure Routinely (s s' : Supervisor) : Prop where
  history : ∃ records, s'.history = s.history ++ records ∧ ∀ record ∈ records, record.Routine
  window : ∀ i, (s'.worker i).handle.window = (s.worker i).handle.window

namespace Routinely

theorem of_same (hHistory : s'.history = s.history)
    (hWindow : ∀ i, (s'.worker i).handle.window = (s.worker i).handle.window) : s.Routinely s' :=
  ⟨⟨[], by simp [hHistory]⟩, hWindow⟩

theorem refl (s : Supervisor) : s.Routinely s := of_same rfl fun _ => rfl

theorem trans (left : s.Routinely s') (right : s'.Routinely s'') : s.Routinely s'' := by
  obtain ⟨⟨records, hHistory, hRoutine⟩, hWindow⟩ := left
  obtain ⟨⟨more, hHistory', hRoutine'⟩, hWindow'⟩ := right
  refine ⟨⟨records ++ more, ?_, fun record hMem => ?_⟩, fun i => (hWindow' i).trans (hWindow i)⟩
  · rw [hHistory', hHistory, List.append_assoc]
  · rcases List.mem_append.mp hMem with hIn | hIn
    · exact hRoutine record hIn
    · exact hRoutine' record hIn

theorem log (h : s.Routinely s') {record : SupervisorRecord} (hRecord : record.Routine) :
    s.Routinely (s'.log record) :=
  h.trans ⟨⟨[record], rfl, by simpa using hRecord⟩, fun _ => rfl⟩

theorem modify (h : s.Routinely s') {f : RegisteredWorker → RegisteredWorker}
    (hWindow : (f (s'.worker id)).handle.window = (s'.worker id).handle.window) :
    s.Routinely (s'.modifyWorker id f) := by
  refine h.trans (of_same rfl fun i => ?_)
  by_cases hSame : i = id
  · subst hSame
    simpa [modifyWorker] using hWindow
  · simp [modifyWorker, hSame]

theorem control (h : s.Routinely s') (phase : SupervisorPhase) (clock : Instant) :
    s.Routinely { s' with phase := phase, clock := clock } :=
  ⟨h.history, h.window⟩

/-- A list of items is worked off by routine. -/
theorem foldl {α : Type} (h : s.Routinely s') {f : Supervisor → α → Supervisor} (items : List α)
    (hPass : ∀ (st : Supervisor) item, st.Routinely (f st item)) : s.Routinely (items.foldl f s') :=
  foldl_keeps (fun st : Supervisor => s.Routinely st) h fun st item _ hSt =>
    hSt.trans (hPass st item)

/-- What a view of the history makes of routine records does not show. -/
theorem filterMap_eq {β : Type} (h : s.Routinely s') {view : SupervisorRecord → Option β}
    (hView : ∀ record, record.Routine → view record = none) :
    s'.history.filterMap view = s.history.filterMap view := by
  obtain ⟨records, hHistory, hRoutine⟩ := h.history
  have hNone : records.filterMap view = [] := List.filterMap_eq_nil_iff.mpr fun record hMem =>
    hView record (hRoutine record hMem)
  rw [hHistory, List.filterMap_append, hNone, List.append_nil]

theorem filter_eq (h : s.Routinely s') {view : SupervisorRecord → Bool}
    (hView : ∀ record, record.Routine → view record = false) :
    s'.history.filter view = s.history.filter view := by
  obtain ⟨records, hHistory, hRoutine⟩ := h.history
  have hNone : records.filter view = [] := List.filter_eq_nil_iff.mpr fun record hMem => by
    simp [hView record (hRoutine record hMem)]
  rw [hHistory, List.filter_append, hNone, List.append_nil]

end Routinely

theorem routinely_setState (state : WorkerState) : s.Routinely (s.setState id state) :=
  ((Routinely.refl s).modify rfl).log trivial

theorem routinely_cancelWorkerToken : s.Routinely (s.cancelWorkerToken id) :=
  (Routinely.refl s).modify rfl

theorem routinely_spawnOne : s.Routinely (s.spawnOne T id) := by
  unfold spawnOne
  simp only []
  split_ifs
  · have hSpawned : (s.setState id .starting).Routinely ((s.setState id .starting).spawnTask T id) :=
      ⟨⟨[_], rfl, fun record hMem => by rw [List.mem_singleton.mp hMem]; trivial⟩, fun _ => rfl⟩
    exact (((routinely_setState _).trans hSpawned).trans (routinely_setState _)).log trivial
  · exact .refl s

theorem routinely_restartNow (name : String) (attempts : UInt32) :
    s.Routinely (s.restartNow T id name attempts) := by
  have hEvent : s.Routinely (s.emit (.restarted id name (saturatingAddU32 attempts 1))) :=
    (Routinely.refl s).log trivial
  have hCounted : s.Routinely ((s.emit (.restarted id name (saturatingAddU32 attempts 1))).log
      (.counter .workersRestarted name)) := hEvent.log trivial
  exact (hCounted.trans routinely_spawnOne).control _ _

theorem routinely_beginRestart (attempts : UInt32) : s.Routinely (s.beginRestart T id attempts) := by
  have hRestarting : s.Routinely (s.setState id .restarting) := routinely_setState _
  unfold beginRestart
  simp only []
  split_ifs
  · exact hRestarting.trans (routinely_restartNow _ _)
  · have hWaiting : s.Routinely ((s.setState id .restarting).log
        (.backingOff id ((s.worker id).spec.backoff.delay attempts))) := hRestarting.log trivial
    exact hWaiting.control _ _

theorem routinely_startTrial : s.Routinely (s.startTrial T id) := by
  have hAnnounced : s.Routinely (s.emit (.circuitHalfOpened id (s.worker id).spec.name)) :=
    (Routinely.refl s).log trivial
  unfold startTrial spawnOneIfIdle
  simp only []
  split_ifs
  · exact hAnnounced
  · exact hAnnounced.trans routinely_spawnOne

/-- A tick is routine up to the timeouts it reports. -/
theorem routinely_trials (nows : WorkerId → Instant) : s.Routinely
    ((s.closedToHalfOpen nows).foldl (fun s id => s.startTrial T id) (s.tickBreakers nows)) := by
  have hTicked : s.Routinely (s.tickBreakers nows) := .of_same rfl fun i => by
    simp only [tickBreakers]
    split_ifs <;> rfl
  exact hTicked.foldl _ fun _ _ => routinely_startTrial

theorem routinely_stopWorker : s.Routinely (s.stopWorker id) :=
  ((routinely_setState _).trans routinely_cancelWorkerToken).log trivial

theorem routinely_markStopped : s.Routinely (s.markStopped id) := (routinely_setState _).log trivial

/-- Every step but a tick and a join is routine. -/
theorem routinely_of_step (hStep : SupervisorStep T s label s')
    (hTick : ∀ wall nows after, label ≠ .tick wall nows after)
    (hJoin : ∀ run wall now, label ≠ .join run wall now) : s.Routinely s' := by
  cases takes_of_step hStep with
  | start =>
      have hSpawned : s.Routinely (s.ids.foldl (fun s id => s.spawnOne T id) s) :=
        (Routinely.refl s).foldl _ fun _ _ => routinely_spawnOne
      exact hSpawned.control _ _
  | tick => exact absurd rfl (hTick _ _ _)
  | join => exact absurd rfl (hJoin _ _ _)
  | @backoffElapsed id name attempts due now =>
      have hClock : s.Routinely { s with clock := now } := (Routinely.refl s).control s.phase now
      exact hClock.trans (routinely_restartNow name attempts)
  | cancelObserved =>
      have hStopping : s.Routinely (s.ids.foldl stopWorker s) :=
        (Routinely.refl s).foldl _ fun _ _ => routinely_stopWorker
      exact hStopping.control _ _
  | drained =>
      have hStopped : s.Routinely (s.ids.foldl markStopped s) :=
        (Routinely.refl s).foldl _ fun _ _ => routinely_markStopped
      exact hStopped.control _ _
  | @heartbeat run wall id =>
      have hCell : s.Routinely (s.modifyWorker id fun r =>
          { r with lastHeartbeat := unixNanos wall }) := (Routinely.refl s).modify rfl
      exact hCell.log trivial
  | cancel =>
      have hToken : s.Routinely { s with cancelled := true } := .of_same rfl fun _ => rfl
      exact hToken.log trivial
  | @cancelWorker id =>
      have hToken : s.Routinely (s.cancelWorkerToken id) := routinely_cancelWorkerToken
      exact hToken.log trivial
  | _ => exact .of_same rfl fun _ => rfl

end Supervisor

end ServiceKernel
