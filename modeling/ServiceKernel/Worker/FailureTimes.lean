import Mathlib.Data.List.Chain
import ServiceKernel.Semantics.Ghost
import ServiceKernel.Worker.Standing

/-! The times at which the failures of one worker were read, kept as a ghost beside the
supervisor, and what the failure count of the worker's handle makes of them. -/
namespace ServiceKernel

open Execution

/-- The later failure is in the failure window of the earlier one. A reading of zero is
the handle's mark for no failure. -/
def InWindow (earlier later : Int) : Prop := earlier ≠ 0 ∧ later - earlier ≤ failureWindowNanos

instance (earlier later : Int) : Decidable (InWindow earlier later) :=
  inferInstanceAs (Decidable (_ ∧ _))

/-- One more failure: the length of the burst it ends, and its time. -/
def extendBurst (latest : Nat × Int) (time : Int) : Nat × Int :=
  (if InWindow latest.2 time then latest.1 + 1 else 1, time)

/-- How many failures up to the last were each in the window of the one before. -/
def burst (times : List Int) : Nat := (times.foldl extendBurst (0, 0)).1

/-- The time of the last failure, zero if there is none. -/
def lastTime (times : List Int) : Int := times.getLast?.getD 0

section Burst

variable {times earlier : List Int} {time : Int}

@[simp] theorem lastTime_concat (times : List Int) (time : Int) :
    lastTime (times ++ [time]) = time := by
  simp [lastTime]

theorem foldl_extendBurst (times : List Int) :
    times.foldl extendBurst (0, 0) = (burst times, lastTime times) := by
  refine Prod.ext rfl ?_
  induction times using List.reverseRecOn with
  | nil => rfl
  | append_singleton times time ih => simp [extendBurst]

theorem burst_concat (times : List Int) (time : Int) : burst (times ++ [time]) =
    if InWindow (lastTime times) time then burst times + 1 else 1 := by
  rw [burst, List.foldl_append, foldl_extendBurst]
  rfl

theorem burst_pos (times : List Int) (time : Int) : 0 < burst (times ++ [time]) := by
  rw [burst_concat]
  split_ifs <;> omega

/-- As long as no window expires, every failure extends the burst. -/
theorem burst_of_chain (h : times.IsChain InWindow) : burst times = times.length := by
  induction times using List.reverseRecOn with
  | nil => rfl
  | append_singleton times time ih =>
      have hBefore : times.IsChain InWindow := h.left_of_append
      rw [burst_concat, List.length_append, List.length_singleton, ih hBefore]
      cases times using List.reverseRecOn with
      | nil => simp
      | append_singleton times last =>
          have hInWindow : InWindow last time := by
            rw [List.append_assoc] at h
            have hPair := h.right_of_append
            simpa using hPair
          rw [lastTime_concat, if_pos hInWindow]

end Burst

/-- The count in a handle after these failures. -/
def WorkerHandle.windowOf (times : List Int) : UInt32 × Int := (.ofNat (burst times), lastTime times)

/-- The handle counts the burst, modulo the range of its counter. -/
theorem WorkerHandle.recordFailure_window {h : WorkerHandle} {times : List Int}
    (hWindow : h.window = windowOf times) (time : Int) :
    (h.recordFailure failureWindowNanos time).1.window = windowOf (times ++ [time]) := by
  obtain ⟨hCount, hLast⟩ := Prod.mk.inj hWindow
  have hStart : (h.lastFailureNanos = 0 ∨ time - h.lastFailureNanos > failureWindowNanos) ↔
      ¬ InWindow (lastTime times) time := by
    rw [hLast, InWindow]
    omega
  simp only [WorkerHandle.window, windowOf, recordFailure, burst_concat, lastTime_concat, hStart,
    hCount]
  by_cases hInWindow : InWindow (lastTime times) time
  · simp [hInWindow]
  · simp [hInWindow]

namespace Supervisor

variable {T : TaskIds} {s s' : Supervisor} {id i : WorkerId} {label : SupervisorLabel}

/-- The time of the failure of worker `i` that a step handles, if it handles one. -/
def failureAt (s : Supervisor) (i : WorkerId) : SupervisorLabel → Option Int
  | .join run wall _ => (s.findTask run).bind fun task =>
    if task.worker = i ∧ task.outcome.any (·.hasFailed) then some (unixNanos wall) else none
  | _ => none

/-- A step that is no part of the worker's life handles no failure of it. -/
theorem failureAt_of_spares (h : s.Spares i label) : s.failureAt i label = none := by
  cases label with
  | join run wall now =>
      cases hTask : s.findTask run with
      | none => simp [failureAt, hTask]
      | some task => simp [failureAt, hTask, h task hTask]
  | _ => rfl

theorem failureAt_join {run : Nat} (wall : Option Nat) (now : Instant) {task : Task}
    {outcome : SupervisorOutcome} (hTask : s.findTask run = some task) (hOwner : task.worker = i)
    (hOutcome : task.outcome = some outcome) : s.failureAt i (.join run wall now) =
      if outcome.hasFailed then some (unixNanos wall) else none := by
  simp [failureAt, hTask, hOwner, hOutcome]

section Windows

theorem judgements_reportTimeout (timeout : WatchdogTimeout) :
    (s.reportTimeout timeout).judgements = s.judgements := by
  have hEvent : (s.emit (.timeout timeout.id timeout.name timeout.silentFor)).judgements =
      s.judgements := judgements_log rfl
  unfold reportTimeout
  simp only []
  split_ifs
  · exact (judgements_of_routine routinely_cancelWorkerToken).trans hEvent
  · exact hEvent

theorem judgements_watchdogTick (wall : Option Nat) (nows : WorkerId → Instant) :
    (s.watchdogTick T wall nows).judgements = s.judgements :=
  foldl_keeps (fun st : Supervisor => st.judgements = s.judgements)
    (judgements_of_routine (routinely_trials nows))
    fun _ timeout _ hSt => (judgements_reportTimeout timeout).trans hSt

/-- A worker's outcome leaves the windows of the others alone. -/
theorem handleOutcome_window_other (h : id ∈ s.ids) (hne : i ≠ id) (run : Nat)
    (outcome : SupervisorOutcome) (wall : Option Nat) :
    (s.handleOutcome T id run outcome wall).judgements.window i = s.judgements.window i := by
  let announced := s.announceOutcome id run outcome
  have hWorker : announced.worker = s.worker := announceOutcome_worker run outcome
  have hMem : id ∈ announced.ids := by
    rw [ids_eq (frame_announceOutcome run outcome)]
    exact h
  let advanced := (announced.advanceCircuit id outcome.hasFailed).1
  have hMem' : id ∈ advanced.ids := by
    rw [ids_eq (advanceCircuit_spec hMem outcome.hasFailed).1]
    exact hMem
  have hAdvanced : advanced.worker i = s.worker i := by
    simp only [advanced, advanceCircuit, if_pos hMem]
    split
    · rw [hWorker]
    · simp only []
      split <;> simp [emit, log, storeBreaker, modifyWorker, hne, hWorker]
  have hConsulted : (advanced.consultPolicy id outcome.hasFailed wall).1.judgements.window i =
      s.judgements.window i := by
    cases hFailed : outcome.hasFailed <;>
      simp [consultPolicy, judgements, log, modifyWorker, hne, hAdvanced]
  simp only [handleOutcome, if_pos h, maybeRestart]
  rw [if_pos hMem']
  simp only [decideRestart]
  split_ifs
  · rw [judgements_of_routine (routinely_beginRestart _)]
    exact hConsulted
  · rw [judgements_retire]
    exact hConsulted

/-- Only a failure of the worker itself moves its failure window. -/
theorem window_of_step (hBooks : Books s) (hStep : SupervisorStep T s label s') :
    (s'.worker i).handle.window = match s.failureAt i label with
      | some time => ((s.worker i).handle.recordFailure failureWindowNanos time).1.window
      | none => (s.worker i).handle.window := by
  have hWindow {t : Supervisor} (h : t.judgements = s.judgements) :
      (t.worker i).handle.window = (s.worker i).handle.window :=
    congrFun (congrArg Judgements.window h) i
  cases label with
  | tick wall nows after =>
      cases takes_of_step hStep with
      | tick => exact hWindow (t := s.watchdogTick T wall nows) (judgements_watchdogTick ..)
  | join run wall now =>
      cases takes_of_step hStep with
      | @join _ _ _ task result hPhase hRunning hClock hTask hResult =>
          have hIn := (findTask_mem hTask).1
          obtain ⟨outcome, hOutcome, hEnded⟩ := hBooks.outcome_of_head hPhase hIn hResult
          simp only [failureAt, hTask, Option.bind_some, hEnded, Option.any_some]
          by_cases hOwner : task.worker = i
          · subst hOwner
            have hAfter := (joined_judgements (T := T) hBooks.consistent hIn hResult hOutcome wall now).2
            apply hAfter.trans
            cases outcome.hasFailed <;> simp [RegisteredWorker.windowAfter]
          · have hOther : task.worker ∈ ({ s with clock := now }.removeTask task).ids :=
              hBooks.consistent.known task hIn
            simp only [hOwner, false_and, if_false]
            rw [joined_eq (s := { s with clock := now }) hBooks.consistent hIn hResult hOutcome]
            exact handleOutcome_window_other hOther (Ne.symm hOwner) task.run outcome wall
  | _ =>
      refine hWindow (judgements_of_routine (routinely_of_step hStep ?_ ?_))
      · simp
      · simp

end Windows

end Supervisor

/-- The times of the failures of one worker, in the order in which they were handled, and
the times of those it was restarted after. -/
structure FailureLog where
  failures : List Int
  restarts : List Int

/-- How often a worker with this trail was restarted. -/
def restartCount (past : List SupervisorRecord) : Nat := past.countP (·.isRestarted)

/-- How often it was spawned. -/
def spawnCount (past : List SupervisorRecord) : Nat := past.countP (·.isSpawned)

namespace FailureLog

variable {T : TaskIds} {s s' : Supervisor} {i : WorkerId} {label : SupervisorLabel}

def none : FailureLog := ⟨[], []⟩

/-- A restart answers the latest failure. -/
def update (i : WorkerId) (g : FailureLog) (s : Supervisor) (label : SupervisorLabel)
    (s' : Supervisor) : FailureLog :=
  let failures := g.failures ++ (s.failureAt i label).toList
  { failures := failures
    restarts := if restartCount (trail i s.history) < restartCount (trail i s'.history) then
        g.restarts ++ failures.getLast?.toList
      else g.restarts }

/-- The handle counts the failures that were handled. -/
theorem window_step (hBooks : Supervisor.Books s) (g : FailureLog)
    (hWindow : (s.worker i).handle.window = WorkerHandle.windowOf g.failures)
    (hStep : SupervisorStep T s label s') :
    (s'.worker i).handle.window = WorkerHandle.windowOf (g.update i s label s').failures := by
  rw [Supervisor.window_of_step hBooks hStep, update]
  cases s.failureAt i label with
  | none => simpa using hWindow
  | some time => exact WorkerHandle.recordFailure_window hWindow time

theorem window_of_reachable {roster : Roster} {c : Supervisor × FailureLog}
    (reach : Reachable (Ghosted (SupervisorStep T) (update i)) (.new roster, none) c) :
    (c.1.worker i).handle.window = WorkerHandle.windowOf c.2.failures :=
  Reachable.ghost_invariant Supervisor.Books
    (fun s g => (s.worker i).handle.window = WorkerHandle.windowOf g.failures) reach
    (fun _ => Supervisor.books_of_reachable) rfl
    fun _ g _ _ hBooks hWindow hStep => window_step hBooks g hWindow hStep

end FailureLog

namespace Supervisor

variable {T : TaskIds} {s s' : Supervisor} {i : WorkerId} {label : SupervisorLabel}

/-- The policy is asked about the burst that the failure ends. -/
theorem attemptsAfter_failed {failures : List Int} {wall : Option Nat}
    (hWindow : (s.worker i).handle.window = WorkerHandle.windowOf failures) :
    (s.worker i).attemptsAfter true wall = .ofNat (burst (failures ++ [unixNanos wall])) :=
  congrArg Prod.fst (WorkerHandle.recordFailure_window hWindow (unixNanos wall))

/-- A worker that has no breaker never gets one. -/
theorem breaker_step (hBreaker : (s.life i).breaker = none) (hStep : LifeStep s s' i label) :
    (s'.life i).breaker = none := by
  cases hStep with
  | settled hFrom hTask hOwner hOutcome hSettled =>
      rw [hSettled.cells.2]
      simp [Life.judge, Life.join, Life.add, hBreaker]
  | begun _ _ hLife | ticked _ _ _ hLife | tried _ _ _ hLife | resumed _ _ hLife
  | stopping _ _ hLife | joinedLate _ _ hLife | stopped _ _ hLife | spared _ _ hLife =>
      rw [hLife]
      simp [Life.tick, Life.restart, Life.spawn, Life.stop, Life.markStopped, Life.add, hBreaker]

theorem breaker_of_reachable {roster : Roster} (hMem : i ∈ roster.ids)
    (hCircuit : (roster.spec i).circuit = none)
    (reach : Reachable (SupervisorStep T) (new roster) s) : (s.life i).breaker = none := by
  have hAlways := reach.invariant (fun s => Books s ∧ i ∈ s.ids ∧ (s.life i).breaker = none)
    ⟨books_new roster, hMem, ?_⟩ ?_
  · exact hAlways.2.2
  · simp [life, new, RegisteredWorker.register, hCircuit]
  · intro s label s' h hStep
    have hLife := lifeStep_of_step h.1 hStep h.2.1
    refine ⟨books_step h.1 hStep, ?_, breaker_step h.2.2 hLife⟩
    rw [(steady_step h.1 hStep).ids]
    exact h.2.1

end Supervisor

end ServiceKernel
