import ServiceKernel.Worker.Facet
import ServiceKernel.Worker.HealthMarks

/-! What a subscriber to the events of one worker can tell of it: replayed in their order,
the events give its state cell and its breaker, and none of them comes out of turn. -/
namespace ServiceKernel

open Execution

/-- What an observer knows of a worker. One without a breaker shows as `Closed`. -/
structure WorkerView where
  state : WorkerState
  circuit : CircuitState
  deriving DecidableEq

namespace WorkerView

def new : WorkerView := ⟨.created, .closed⟩

/-- What the observer makes of an event, unless it is out of turn. After a run ends the
worker is taken to wait for its restart until it is stopped or started again. -/
def hear (v : WorkerView) : WorkerLifecycleEvent → Option WorkerView
  | .started _ _ =>
    if v.state = .created ∨ v.state = .restarting ∨ v = ⟨.stopped, .halfOpen⟩ then
      some { v with state := .running }
    else none
  | .failed _ _ _ => if v.state = .running then some { v with state := .restarting } else none
  | .panicked _ _ _ => if v.state = .running then some { v with state := .restarting } else none
  | .restarted _ _ _ => if v.state = .restarting then some v else none
  | .stopped _ _ => match v.state with
    | .running => some { v with state := .restarting }
    | .restarting => some { v with state := .stopped }
    | .stopping => some { v with state := .stopped }
    | _ => none
  | .stopping _ => match v.state with
    | .running => some { v with state := .stopping }
    | .restarting => some { v with state := .stopping }
    | .stopped => some { v with state := .stopping }
    | _ => none
  | .circuitOpened _ _ _ =>
    if v.state = .restarting ∧ v.circuit ≠ .opened then some { v with circuit := .opened } else none
  | .circuitHalfOpened _ _ =>
    if v = ⟨.stopped, .opened⟩ then some { v with circuit := .halfOpen } else none
  | .circuitClosed _ _ =>
    if v = ⟨.restarting, .halfOpen⟩ then some { v with circuit := .closed } else none
  | .timeout _ _ _ => some v

end WorkerView

namespace RegisteredWorker

/-- The worker as an observer would have it. -/
def view (r : RegisteredWorker) : WorkerView where
  state := r.handle.state
  circuit := (r.circuit.map CircuitBreaker.state).getD .closed

variable {r : RegisteredWorker} {id : WorkerId} {hasFailed : Bool} {now : Instant}

/-- The breaker's moves are told in turn, as long as no outcome meets an open breaker. -/
theorem hear_circuitMove (hOpen : ∀ b, r.circuit = some b → b.state ≠ .opened) :
    replay WorkerView.hear ⟨.restarting, r.view.circuit⟩ (r.circuitMove id hasFailed now).toList =
      some ⟨.restarting,
        ((r.circuit.map (·.record hasFailed now)).map CircuitBreaker.state).getD .closed⟩ := by
  rw [view, circuitMove]
  cases hCircuit : r.circuit with
  | none => rfl
  | some b =>
      have hState := hOpen b hCircuit
      have hNot : (b.record hasFailed now).state ≠ .halfOpen := CircuitBreaker.record_ne_halfOpen
      simp only [Option.bind_some, Option.map_some, Option.getD_some]
      cases hBefore : b.state <;> cases hAfter : (b.record hasFailed now).state <;>
        first
        | rfl
        | exact absurd hBefore hState
        | exact absurd hAfter hNot

/-- A tick that half-opens no breaker leaves its state alone. -/
theorem view_of_tick (h : r.halfOpens now = false) :
    view { r with circuit := r.circuit.map (·.tick now) } = r.view := by
  cases hCircuit : r.circuit with
  | none => simp [view, hCircuit]
  | some b =>
      have hSame : (b.tick now).state = b.state := by
        by_cases hOpen : b.state = .opened
        · have hNot : (b.tick now).state ≠ .halfOpen := fun hHalf => by
            simp [halfOpens, hCircuit, hOpen, hHalf] at h
          rw [CircuitBreaker.tick_of_ne_halfOpen hNot]
        · rw [CircuitBreaker.tick_of_ne_opened hOpen]
      simp [view, hCircuit, hSame]

end RegisteredWorker

namespace Facet

variable {v v' v'' : Facet} {id : WorkerId} {wall : Option Nat} {now : Instant}

/-- An observer that is right about the facet is right about it afterwards. -/
def Heard (v v' : Facet) : Prop :=
  ∃ events, v'.told = v.told ++ events ∧
    replay WorkerView.hear v.worker.view events = some v'.worker.view

theorem Heard.silent (hTold : v'.told = v.told) (hView : v'.worker.view = v.worker.view) :
    v.Heard v' :=
  ⟨[], by rw [hTold, List.append_nil], by rw [hView]; rfl⟩

theorem Heard.trans (left : v.Heard v') (right : v'.Heard v'') : v.Heard v'' := by
  obtain ⟨events, hTold, hReplay⟩ := left
  obtain ⟨more, hTold', hReplay'⟩ := right
  refine ⟨events ++ more, by rw [hTold', hTold, List.append_assoc], ?_⟩
  rw [replay_append, hReplay, Option.bind_some, hReplay']

theorem heard_spawn (h : v.worker.view.state = .created ∨ v.worker.view.state = .restarting ∨
    v.worker.view = ⟨.stopped, .halfOpen⟩) : v.Heard (v.spawn id) := by
  refine ⟨_, rfl, ?_⟩
  simp only [replay, WorkerView.hear]
  rw [if_pos h]
  rfl

theorem heard_restart (h : v.worker.view.state = .restarting) (name : String) (attempts : UInt32) :
    v.Heard (v.restart id name attempts) := by
  have hAnnounced : v.Heard (v.tell [.restarted id name (saturatingAddU32 attempts 1)]) := by
    refine ⟨_, rfl, ?_⟩
    simp only [replay, WorkerView.hear]
    rw [if_pos h]
    rfl
  exact hAnnounced.trans (heard_spawn (Or.inr (Or.inl h)))

/-- A worker whose breaker is half-opened had been retired. -/
theorem heard_trial (hState : v.worker.handle.state = .stopped)
    (hHalf : v.worker.halfOpens now = true) : v.Heard ((v.tick now).trial id) := by
  obtain ⟨b, hCircuit, hOpen, hTicked⟩ : ∃ b, v.worker.circuit = some b ∧ b.state = .opened ∧
      (b.tick now).state = .halfOpen := by
    revert hHalf
    rw [RegisteredWorker.halfOpens]
    cases v.worker.circuit <;> simp
  have hBefore : v.worker.view = ⟨.stopped, .opened⟩ := by
    simp [RegisteredWorker.view, hState, hCircuit, hOpen]
  have hAfter : (v.tick now).worker.view = ⟨.stopped, .halfOpen⟩ := by
    simp [RegisteredWorker.view, Facet.tick, hState, hCircuit, hTicked]
  have hAnnounced : v.Heard ((v.tick now).tell [.circuitHalfOpened id v.worker.spec.name]) := by
    refine ⟨_, rfl, ?_⟩
    rw [hBefore]
    exact congrArg some hAfter.symm
  exact hAnnounced.trans (heard_spawn (Or.inr (Or.inr hAfter)))

theorem heard_timeOut (timeout : WatchdogTimeout) : v.Heard (v.timeOut timeout) := ⟨_, rfl, rfl⟩

theorem heard_watch (hIdle : v.worker.halfOpens now = true → v.worker.handle.state = .stopped) :
    v.Heard (v.watch id wall now) := by
  have hTicked : v.Heard (if v.worker.halfOpens now then (v.tick now).trial id else v.tick now) := by
    split_ifs with hHalf
    · exact heard_trial (hIdle hHalf) hHalf
    · exact .silent rfl (RegisteredWorker.view_of_tick (Bool.eq_false_iff.mpr hHalf))
  rw [watch]
  cases v.worker.timeout? (unixNanos wall) with
  | none => exact hTicked
  | some timeout => exact hTicked.trans (heard_timeOut timeout)

/-- An outcome is told first, then how the breaker moved, then what follows. -/
theorem heard_settle (hState : v.worker.handle.state = .running)
    (hOpen : ∀ b, v.worker.circuit = some b → b.state ≠ .opened) (outcome : SupervisorOutcome) :
    v.Heard (v.settle id outcome wall now) := by
  let judged := v.judge id outcome wall now
  have hTold : judged.told = v.told ++ ([outcome.event id v.worker.spec.name] ++
      (v.worker.circuitMove id outcome.hasFailed now).toList) := List.append_assoc ..
  have hCircuit : judged.worker.view.circuit =
      ((v.worker.circuit.map (·.record outcome.hasFailed now)).map CircuitBreaker.state).getD
        .closed := rfl
  have hView : v.worker.view = ⟨.running, v.worker.view.circuit⟩ := by
    rw [RegisteredWorker.view, hState]
  have hJudged : replay WorkerView.hear v.worker.view ([outcome.event id v.worker.spec.name] ++
      (v.worker.circuitMove id outcome.hasFailed now).toList) =
        some (judged.setState .restarting).worker.view := by
    have hEvent : replay WorkerView.hear ⟨.running, v.worker.view.circuit⟩
        [outcome.event id v.worker.spec.name] = some ⟨.restarting, v.worker.view.circuit⟩ := by
      cases outcome <;> rfl
    rw [hView, replay_append, hEvent, Option.bind_some, RegisteredWorker.hear_circuitMove hOpen,
      ← hCircuit]
    rfl
  have hWaiting : v.Heard (judged.setState .restarting) := ⟨_, hTold, hJudged⟩
  unfold settle
  split_ifs
  · unfold resume
    simp only []
    split_ifs
    · exact hWaiting.trans (heard_restart rfl _ _)
    · exact hWaiting
  · exact hWaiting.trans ⟨_, rfl, rfl⟩

theorem heard_stop (h : v.worker.handle.state = .running ∨ v.worker.handle.state = .restarting ∨
    v.worker.handle.state = .stopped) : v.Heard (v.stop id) := by
  refine ⟨_, rfl, ?_⟩
  simp only [replay, WorkerView.hear, RegisteredWorker.view]
  rcases h with h | h | h <;> rw [h] <;> rfl

theorem heard_retire (h : v.worker.handle.state = .stopping) : v.Heard (v.retire id) := by
  refine ⟨_, rfl, ?_⟩
  simp only [replay, WorkerView.hear, RegisteredWorker.view, h]
  rfl

end Facet

namespace Supervisor

variable {T : TaskIds} {s s' : Supervisor} {i : WorkerId} {label : SupervisorLabel}

/-- A step of the supervisor is told in turn to the observers of every worker. -/
theorem heard_of_step (h : s.Audited) (hMem : i ∈ s.ids) (hStep : SupervisorStep T s label s') :
    (s.facet i).Heard (s.facetAfter i label) := by
  have hStands := h.stands i hMem
  have hAside (hAside : Aside (s.facet i) (s.facetAfter i label)) :
      (s.facet i).Heard (s.facetAfter i label) := by
    generalize s.facetAfter i label = v at hAside
    cases hAside <;> exact .silent rfl rfl
  cases lifeStep_of_step h.books hStep hMem with
  | begun hFrom =>
      rw [Stands, hFrom] at hStands
      cases hStands with
      | fresh hState _ _ => exact Facet.heard_spawn (Or.inl hState)
  | ticked _ hFrom | tried _ hFrom =>
      refine Facet.heard_watch fun hHalf => ?_
      have hListed := (mem_closedToHalfOpen_iff _ hMem).mpr hHalf
      obtain ⟨hState, _⟩ := hStands.rests h.books hMem hFrom (closedToHalfOpen_suppressed hListed)
      exact hState
  | @settled run wall now task outcome hFrom hTask hOwner hOutcome =>
      obtain ⟨hState, -⟩ := hStands.running_of_task hFrom hTask hOwner
      have hOpen : ∀ b, (s.worker i).circuit = some b → b.state ≠ .opened := fun b hBreaker hOpened => by
        obtain ⟨hStopped, _⟩ := hStands.rests h.books hMem hFrom ⟨b, hBreaker, hOpened⟩
        rw [hState] at hStopped
        cases hStopped
      simp only [facetAfter, hTask, Option.bind_some, if_pos hOwner, hOutcome]
      have hLanded : (s.facet i).Heard (s.facet i).land := .silent rfl rfl
      exact hLanded.trans (Facet.heard_settle (v := (s.facet i).land) hState hOpen outcome)
  | resumed hFrom =>
      obtain ⟨hState, _⟩ := hStands.waits hFrom
      simp only [facetAfter, hFrom, if_true]
      exact Facet.heard_restart (v := s.facet i) hState _ _
  | stopping hFrom =>
      apply Facet.heard_stop
      rw [Stands, hFrom] at hStands
      cases hStands with
      | running hState _ _ => exact Or.inl hState
      | waiting hWaits =>
          obtain ⟨hState, _⟩ := hWaits
          exact Or.inr (Or.inl hState)
      | resting hRests =>
          obtain ⟨hState, _⟩ := hRests
          exact Or.inr (Or.inr hState)
  | joinedLate => exact hAside (facetAfter_drain s i _)
  | stopped hFrom =>
      rw [Stands, hFrom] at hStands
      cases hStands with
      | stopping hState _ => exact Facet.heard_retire hState
  | spared hSpares => exact hAside (facetAfter_of_spared hSpares)

/-- While the supervisor supervises, the workers with a task in flight are the running ones. -/
theorem Stands.running_iff (h : s.Stands i) (hSupervising : s.Supervising) :
    (s.worker i).handle.state = .running ↔ ∃ task ∈ s.joinSet, task.worker = i := by
  have hTask : (∃ task ∈ s.joinSet, task.worker = i) ↔ (s.life i).runs ≠ [] := by
    simp [life, List.filter_eq_nil_iff]
  have hIdle (state : WorkerState) (hState : (s.life i).state = state) (hNot : state ≠ .running)
      (hRuns : (s.life i).runs = []) :
      (s.worker i).handle.state = .running ↔ (s.life i).runs ≠ [] :=
    iff_of_false (fun hRunning => hNot (hState.symm.trans hRunning)) fun hSome => hSome hRuns
  rw [hTask]
  rcases stage_of_supervising (i := i) hSupervising with hStage | hStage
  · rw [Stands, hStage] at h
    cases h with
    | running hState hRuns _ =>
        exact iff_of_true hState (by rw [hRuns]; exact List.cons_ne_nil _ _)
    | waiting hWaits =>
        obtain ⟨hState, hRuns, _⟩ := hWaits
        exact hIdle _ hState (by decide) hRuns
    | resting hRests =>
        obtain ⟨hState, hRuns, _⟩ := hRests
        exact hIdle _ hState (by decide) hRuns
  · rw [Stands, hStage] at h
    cases h with
    | backingOff hWaits =>
        obtain ⟨hState, hRuns, _⟩ := hWaits
        exact hIdle _ hState (by decide) hRuns

end Supervisor

/-- The events about a worker never come out of turn, and an observer who replays them has
its state and that of its breaker; while the supervisor supervises, it also knows whether the
worker has a task in flight. -/
theorem worker_replayed (T : TaskIds) (roster : Roster) (s : Supervisor)
    (reach : Reachable (SupervisorStep T) (.new roster) s) (i : WorkerId) (hMem : i ∈ roster.ids) :
    replay WorkerView.hear .new (s.told i) = some (s.worker i).view ∧
      (s.Supervising →
        ((s.worker i).view.state = .running ↔ ∃ task ∈ s.joinSet, task.worker = i)) := by
  have hFaceted := Supervisor.faceted_of_reachable reach
  have hMem' : i ∈ s.ids := (Supervisor.registered_of_reachable reach).1 ▸ hMem
  refine ⟨?_, (hFaceted.stands i hMem').running_iff⟩
  refine (reach.invariant (fun s => s.Faceted ∧ s.ids = roster.ids ∧
    replay WorkerView.hear .new (s.told i) = some (s.worker i).view)
    ⟨Supervisor.faceted_of_reachable (T := T) (.refl _), rfl, ?_⟩ fun s label s' h hStep => ?_).2.2
  · have hView : (RegisteredWorker.register i (roster.spec i) (roster.runner i)).view = .new := by
      rw [RegisteredWorker.view, RegisteredWorker.register]
      cases (roster.spec i).circuit <;> rfl
    exact congrArg some hView.symm
  · obtain ⟨hFaceted, hIds, hHeard⟩ := h
    obtain ⟨events, hTold, hEvents⟩ :=
      Supervisor.heard_of_step hFaceted.toAudited (hIds ▸ hMem) hStep
    rw [← hFaceted.facet_eq hStep (hIds ▸ hMem)] at hTold hEvents
    refine ⟨hFaceted.step hStep, (Supervisor.steady_step hFaceted.books hStep).ids.trans hIds, ?_⟩
    show replay WorkerView.hear .new (s'.facet i).told = _
    rw [hTold, replay_append]
    show (replay WorkerView.hear .new (s.told i)).bind _ = _
    rw [hHeard, Option.bind_some]
    exact hEvents

/-- The fragile worker fails, is tried again and completes: nine events. -/
theorem worker_replayed_recovery : ∃ s,
    Reachable (SupervisorStep .counting) (.new (.single .fragile .sync)) s ∧
    (s.told 1).length = 9 ∧
    replay WorkerView.hear .new (s.told 1) = some ⟨.stopped, .closed⟩ := by
  obtain ⟨s, hRun, hEvents, hView⟩ : ∃ s : Supervisor,
      replay (Supervisor.exec .counting) (.new (.single .fragile .sync)) failAndRecover = some s ∧
      (s.told 1).length = 9 ∧ (s.worker 1).view = ⟨.stopped, .closed⟩ := ⟨_, rfl, rfl, rfl⟩
  have hReach := (runs_of_replay hRun).reachable
  refine ⟨s, hReach, hEvents, ?_⟩
  rw [← hView]
  exact (worker_replayed .counting _ s hReach 1 (by decide)).1

end ServiceKernel
