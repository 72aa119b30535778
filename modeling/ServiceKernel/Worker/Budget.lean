import Mathlib.Data.List.DropRight
import ServiceKernel.Worker.FailureTimes

/-! The retry budget of a worker: how many restarts `MaxRetries` grants, and how that
compares with the count and the window it was configured with. -/
namespace ServiceKernel

open Execution Supervisor

/-- A budget of `retries` grants a restart after each of these failures. -/
def Granted (retries : Nat) (times : List Int) : Prop :=
  ∀ front, front <+: times → front ≠ [] → burst front < retries

section Granted

variable {retries : Nat} {times : List Int} {time : Int}

theorem granted_nil (retries : Nat) : Granted retries [] :=
  fun _ hFront hNonempty => absurd (List.prefix_nil.mp hFront) hNonempty

theorem granted_concat : Granted retries (times ++ [time]) ↔
    Granted retries times ∧ burst (times ++ [time]) < retries := by
  constructor
  · intro h
    have hAll : burst (times ++ [time]) < retries := h _ List.prefix_rfl (by simp)
    exact ⟨fun front hFront => h front (hFront.trans (List.prefix_append _ _)), hAll⟩
  · rintro ⟨hEarlier, hAll⟩ front hFront hNonempty
    rcases List.prefix_concat_iff.mp hFront with rfl | hBefore
    · exact hAll
    · exact hEarlier front hBefore hNonempty

theorem burst_concat_le (times : List Int) (time : Int) :
    burst (times ++ [time]) ≤ burst times + 1 := by
  rw [burst_concat]
  split_ifs <;> omega

/-- Within a budget the counter of the handle does not wrap. -/
theorem Granted.asked_toNat {retries : UInt32} (h : Granted retries.toNat times) (time : Int) :
    (UInt32.ofNat (burst (times ++ [time]))).toNat = burst (times ++ [time]) := by
  have hBound := UInt32.toNat_lt retries
  have hBurst : burst (times ++ [time]) < 4294967296 := by
    by_cases hNone : times = []
    · subst hNone
      have hOne := burst_concat_le [] time
      have hZero : burst [] = 0 := rfl
      omega
    · have hBefore := h times List.prefix_rfl hNone
      have hNext := burst_concat_le times time
      omega
  rw [UInt32.toNat_ofNat']
  exact Nat.mod_eq_of_lt hBurst

/-- Another failure is granted a restart exactly if its burst is below the budget. -/
theorem Granted.allows_iff {retries : UInt32} (h : Granted retries.toNat times)
    (window : Duration) (time : Int) : (RestartPolicy.maxRetries retries window).shouldRestart true
      (.ofNat (burst (times ++ [time]))) = true ↔ burst (times ++ [time]) < retries.toNat := by
  simp only [RestartPolicy.shouldRestart, Bool.true_and, decide_eq_true_eq, UInt32.lt_iff_toNat_lt,
    h.asked_toNat]

end Granted

namespace Life

/-- How often the worker was spawned, and how often restarted. -/
def tally (l : Life) : Nat × Nat := (spawnCount l.trail, restartCount l.trail)

section Tally

variable (l : Life) (id : WorkerId) (spec : WorkerSpec) (name announced : String) (run : Nat)
  (cancelled hasFailed : Bool) (outcome : SupervisorOutcome) (attempt attempts : UInt32)
  (now : Instant)

@[simp] theorem tally_spawn :
    (l.spawn id name run cancelled).tally = (l.tally.1 + 1, l.tally.2) := by
  simp [tally, spawn, add, spawnRecords, spawnCount, restartCount, SupervisorRecord.isSpawned,
    SupervisorRecord.isRestarted]

@[simp] theorem tally_tick : (l.tick now).tally = l.tally := rfl

@[simp] theorem tally_join : (l.join run).tally = l.tally := rfl

@[simp] theorem tally_judge : (l.judge id spec run outcome attempts now).tally = l.tally := by
  cases outcome <;>
    simp [tally, judge, add, judgeRecords, SupervisorOutcome.hasFailed, spawnCount, restartCount,
      SupervisorRecord.isSpawned, SupervisorRecord.isRestarted]

@[simp] theorem tally_wait : (l.wait id).tally = l.tally := by
  simp [tally, wait, add, spawnCount, restartCount, SupervisorRecord.isSpawned,
    SupervisorRecord.isRestarted]

@[simp] theorem tally_retire : (l.retire id name hasFailed).tally = l.tally := by
  cases hasFailed <;>
    simp [tally, retire, add, retireRecords, spawnCount, restartCount, SupervisorRecord.isSpawned,
      SupervisorRecord.isRestarted]

@[simp] theorem tally_restart : (l.restart id announced attempt name run cancelled).tally =
    (l.tally.1 + 1, l.tally.2 + 1) := by
  rw [restart, tally_spawn]
  simp [tally, add, spawnCount, restartCount, SupervisorRecord.isSpawned,
    SupervisorRecord.isRestarted]

@[simp] theorem tally_stop : (l.stop id).tally = l.tally := by
  simp [tally, stop, add, spawnCount, restartCount, SupervisorRecord.isSpawned,
    SupervisorRecord.isRestarted]

@[simp] theorem tally_markStopped : (l.markStopped id name).tally = l.tally := by
  simp [tally, markStopped, add, spawnCount, restartCount, SupervisorRecord.isSpawned,
    SupervisorRecord.isRestarted]

end Tally

end Life

namespace FailureLog

variable {s s' : Supervisor} {g : FailureLog} {i : WorkerId} {label : SupervisorLabel} {time : Int}

theorem update_kept (hFailure : s.failureAt i label = .none)
    (hTally : (s'.life i).tally.2 = (s.life i).tally.2) : g.update i s label s' = g := by
  have hCount : restartCount (trail i s'.history) = restartCount (trail i s.history) := hTally
  simp [update, hFailure, hCount]

theorem update_failed (hFailure : s.failureAt i label = some time)
    (hTally : (s'.life i).tally.2 = (s.life i).tally.2) :
    g.update i s label s' = ⟨g.failures ++ [time], g.restarts⟩ := by
  have hCount : restartCount (trail i s'.history) = restartCount (trail i s.history) := hTally
  simp [update, hFailure, hCount]

/-- A restart is booked for the latest failure. -/
theorem update_restarted (hTally : (s'.life i).tally.2 = (s.life i).tally.2 + 1)
    (hLatest : g.failures ++ (s.failureAt i label).toList = g.restarts ++ [time]) :
    g.update i s label s' = ⟨g.restarts ++ [time], g.restarts ++ [time]⟩ := by
  have hCount : restartCount (trail i s'.history) = restartCount (trail i s.history) + 1 := hTally
  simp [update, hCount, hLatest]

/-- Every failure was answered with a restart, and the worker runs. -/
structure Paid (g : FailureLog) (retries : Nat) (l : Life) : Prop where
  granted : Granted retries g.failures
  answered : g.restarts = g.failures
  tally : l.tally = (g.failures.length + 1, g.failures.length)

/-- Every failure but the latest was answered with a restart. -/
structure Unpaid (g : FailureLog) (retries : Nat) (l : Life) : Prop where
  granted : Granted retries g.restarts
  answered : ∃ time, g.failures = g.restarts ++ [time]
  tally : l.tally = (g.failures.length, g.restarts.length)

end FailureLog

/-- What a worker has had of its budget at each stage. -/
inductive Life.Budgeted (id : WorkerId) (retries : Nat) (l : Life) (g : FailureLog) :
    WorkerStage → Prop where
  | fresh (hLog : g = .none) (hTally : l.tally = (0, 0)) : Budgeted id retries l g .pending
  | running (hState : l.state = .running) (hPaid : g.Paid retries l) :
      Budgeted id retries l g .supervised
  | completed {run : Nat} (hState : l.state = .stopped) (hPaid : g.Paid retries l)
      (hDone : .handled id run .completed ∈ l.trail) : Budgeted id retries l g .supervised
  | refused (hState : l.state = .stopped) (hUnpaid : g.Unpaid retries l)
      (hSpent : retries ≤ burst g.failures) : Budgeted id retries l g .supervised
  | waiting {stage : WorkerStage} (hStage : stage = .supervised ∨ stage = .backingOff)
      (hState : l.state = .restarting) (hUnpaid : g.Unpaid retries l)
      (hAllowed : burst g.failures < retries) : Budgeted id retries l g stage
  | leaving {stage : WorkerStage} (hStage : stage = .draining ∨ stage = .ended)
      (hGranted : Granted retries g.restarts) (hAnswered : g.restarts <+: g.failures) :
      Budgeted id retries l g stage

namespace Life

variable {id : WorkerId} {retries : Nat} {l l' : Life} {g : FailureLog} {stage : WorkerStage}

/-- Restarts are made for the first failures, within the budget. -/
theorem Budgeted.granted (h : l.Budgeted id retries g stage) :
    Granted retries g.restarts ∧ g.restarts <+: g.failures := by
  have hUnpaid (h : g.Unpaid retries l) : g.restarts <+: g.failures := by
    obtain ⟨time, hFailures⟩ := h.answered
    rw [hFailures]
    exact List.prefix_append _ _
  cases h with
  | fresh hLog hTally =>
      rw [hLog]
      exact ⟨granted_nil _, List.prefix_rfl⟩
  | running hState hPaid | completed hState hPaid hDone =>
      rw [hPaid.answered]
      exact ⟨hPaid.granted, List.prefix_rfl⟩
  | refused hState h hSpent => exact ⟨h.granted, hUnpaid h⟩
  | waiting hStage hState h hAllowed => exact ⟨h.granted, hUnpaid h⟩
  | leaving hStage hGranted hAnswered => exact ⟨hGranted, hAnswered⟩

/-- What is left of the budget shows in the state and the trail alone. -/
theorem Budgeted.of_same (h : l.Budgeted id retries g stage) (hState : l'.state = l.state)
    (hTrail : l'.trail = l.trail) : l'.Budgeted id retries g stage := by
  have hTally : l'.tally = l.tally := by
    rw [tally, hTrail]
    rfl
  cases h with
  | fresh hLog hCount => exact .fresh hLog (hTally.trans hCount)
  | running hRunning hPaid =>
      exact .running (hState.trans hRunning)
        ⟨hPaid.granted, hPaid.answered, hTally.trans hPaid.tally⟩
  | completed hStopped hPaid hDone =>
      exact .completed (hState.trans hStopped)
        ⟨hPaid.granted, hPaid.answered, hTally.trans hPaid.tally⟩ (hTrail ▸ hDone)
  | refused hStopped hUnpaid hSpent =>
      exact .refused (hState.trans hStopped)
        ⟨hUnpaid.granted, hUnpaid.answered, hTally.trans hUnpaid.tally⟩ hSpent
  | waiting hStage hWaiting hUnpaid hAllowed =>
      exact .waiting hStage (hState.trans hWaiting)
        ⟨hUnpaid.granted, hUnpaid.answered, hTally.trans hUnpaid.tally⟩ hAllowed
  | leaving hStage hGranted hAnswered => exact .leaving hStage hGranted hAnswered

end Life

namespace Supervisor

variable {T : TaskIds} {s s' : Supervisor} {g : FailureLog} {i : WorkerId} {label : SupervisorLabel}
  {retries : UInt32} {window : Duration}

/-- An outcome of a running worker uses up its budget by one restart, ends it or is no
failure. -/
theorem settled_budgeted {spec : WorkerSpec} {run : Nat} {outcome : SupervisorOutcome}
    {attempts : UInt32} {now : Instant} {time : Int} {l : Life}
    (hPolicy : spec.restart = .maxRetries retries window) (hPaid : g.Paid retries.toNat l)
    (hSame : l.tally = (s.life i).tally) (hBreaker : l.breaker = none)
    (hFailure : s.failureAt i label = if outcome.hasFailed then some time else none)
    (hAttempts : outcome.hasFailed = true → attempts = .ofNat (burst (g.failures ++ [time])))
    (hSettled : Settled s' i spec outcome.hasFailed (l.judge i spec run outcome attempts now)) :
    (s'.life i).Budgeted i retries.toNat (g.update i s label s') (s'.phase.stage i) := by
  have hOpen : ¬ (l.judge i spec run outcome attempts now).Suppressed := by
    rintro ⟨b, hSome, -⟩
    simp [Life.judge, hBreaker] at hSome
  have hTally := hPaid.tally
  rw [hSame] at hTally
  cases hFailed : outcome.hasFailed with
  | false =>
      rw [hFailed] at hFailure hSettled
      cases hSettled with
      | retired hRefused hPhase hLife =>
          have hKept : g.update i s label s' = g := by
            apply FailureLog.update_kept hFailure
            rw [hLife]
            simp [hSame]
          rw [hKept, hPhase, hLife]
          refine Life.Budgeted.completed rfl ⟨hPaid.granted, hPaid.answered, ?_⟩
            (?_ : SupervisorRecord.handled i run .completed ∈ _)
          · simp [hPaid.tally]
          · cases outcome with
            | completed => simp [Life.retire, Life.judge, Life.add, judgeRecords]
            | _ => cases hFailed
      | waiting hAllowed | restarted hAllowed =>
          rw [hPolicy] at hAllowed
          cases hAllowed
  | true =>
      rw [hFailed] at hFailure hSettled
      have hAsked := hAttempts hFailed
      have hAllows := hPaid.granted.allows_iff window time
      rw [← hAsked, ← hPolicy] at hAllows
      have hLatest : g.failures ++ [time] = g.restarts ++ [time] := by rw [hPaid.answered]
      have hUnpaid : FailureLog.Unpaid ⟨g.failures ++ [time], g.restarts⟩ retries.toNat l :=
        { granted := hPaid.answered ▸ hPaid.granted
          answered := ⟨time, hLatest⟩
          tally := by simp [hPaid.tally, hPaid.answered] }
      cases hSettled with
      | retired hRefused hPhase hLife =>
          have hLog : g.update i s label s' = ⟨g.failures ++ [time], g.restarts⟩ := by
            apply FailureLog.update_failed hFailure
            rw [hLife]
            simp [hSame]
          rw [hLog, hPhase, hLife]
          refine .refused rfl ⟨hUnpaid.granted, hUnpaid.answered, ?_⟩ ?_
          · simpa using hUnpaid.tally
          · by_contra hBelow
            exact hRefused ⟨hAllows.mpr (Nat.lt_of_not_le hBelow), hOpen⟩
      | waiting hAllowed hClosed hDelay hPhase hLife =>
          have hLog : g.update i s label s' = ⟨g.failures ++ [time], g.restarts⟩ := by
            apply FailureLog.update_failed hFailure
            rw [hLife]
            simp [hSame]
          rw [hLog, hPhase, hLife]
          refine .waiting (Or.inr (if_pos rfl)) rfl ⟨hUnpaid.granted, hUnpaid.answered, ?_⟩ ?_
          · simpa using hUnpaid.tally
          · exact hAllows.mp hAllowed
      | restarted hAllowed hClosed hDelay hPhase hLife =>
          have hLog : g.update i s label s' = ⟨g.restarts ++ [time], g.restarts ++ [time]⟩ := by
            refine FailureLog.update_restarted ?_ ?_
            · rw [hLife]
              simp [hSame]
            · simp [hFailure, hPaid.answered]
          rw [hLog, hPhase, hLife]
          refine .running rfl ⟨?_, rfl, ?_⟩
          · rw [← hLatest]
            exact granted_concat.mpr ⟨hPaid.granted, hAllows.mp hAllowed⟩
          · simp [hPaid.tally, hPaid.answered]

/-- A worker with a task has been granted every restart so far. -/
theorem paid_of_task {retries : Nat} (hStands : s.Stands i)
    (hFrom : s.phase.stage i = .supervised)
    (h : (s.life i).Budgeted i retries g (s.phase.stage i)) {run : Nat} {task : Task}
    (hTask : s.findTask run = some task) (hOwner : task.worker = i) : g.Paid retries (s.life i) := by
  obtain ⟨hRunning, -, -⟩ := hStands.running_of_task hFrom hTask hOwner
  rw [hFrom] at h
  cases h with
  | running hState hPaid => exact hPaid
  | completed hState | refused hState | waiting _ hState => simp [hState] at hRunning
  | leaving hStage => rcases hStage with hStage | hStage <;> cases hStage

/-- A step in the life of a worker keeps its budget. -/
theorem budgeted_step (hStands : s.Stands i)
    (hPolicy : (s.worker i).spec.restart = .maxRetries retries window)
    (hBreaker : (s.life i).breaker = none)
    (hWindow : (s.worker i).handle.window = WorkerHandle.windowOf g.failures)
    (h : (s.life i).Budgeted i retries.toNat g (s.phase.stage i)) (hStep : LifeStep s s' i label) :
    (s'.life i).Budgeted i retries.toNat (g.update i s label s') (s'.phase.stage i) := by
  cases hStep with
  | begun hFrom hTo hLife =>
      have hKept : g.update i s .start s' = g := FailureLog.update_kept rfl (by rw [hLife]; simp)
      rw [hKept, hTo, hLife]
      rw [hFrom] at h
      cases h with
      | fresh hLog hTally =>
          subst hLog
          exact .running rfl ⟨granted_nil _, rfl, by simp [hTally, FailureLog.none]⟩
      | waiting hStage => rcases hStage with hStage | hStage <;> cases hStage
      | leaving hStage => rcases hStage with hStage | hStage <;> cases hStage
  | @ticked wall nows after hKeep hFrom hTo hLife =>
      have hKept : g.update i s (.tick wall nows after) s' = g :=
        FailureLog.update_kept rfl (by rw [hLife]; simp)
      rw [hKept, hTo, hLife]
      rw [hFrom] at h
      exact h.of_same rfl rfl
  | tried hHalf hFrom hTo hLife =>
      -- Without a breaker there are no trials.
      obtain ⟨b, hSome, -⟩ := closedToHalfOpen_suppressed hHalf
      rw [hBreaker] at hSome
      cases hSome
  | @settled run wall now task outcome hFrom hTask hOwner hOutcome hSettled =>
      have hPaid := paid_of_task hStands hFrom h hTask hOwner
      have hJoined : g.Paid retries.toNat ((s.life i).join run) :=
        ⟨hPaid.granted, hPaid.answered, hPaid.tally⟩
      refine settled_budgeted hPolicy hJoined rfl hBreaker (failureAt_join _ _ hTask hOwner hOutcome)
        (fun hFailed => ?_) hSettled
      rw [hFailed]
      exact attemptsAfter_failed hWindow
  | @resumed name attempts due now attempt run cancelled hFrom hTo hLife =>
      have hStage : s.phase.stage i = .backingOff := by
        rw [hFrom]
        exact if_pos rfl
      rw [hStage] at h
      cases h with
      | waiting _ hState hUnpaid hAllowed =>
          obtain ⟨time, hLatest⟩ := hUnpaid.answered
          have hLog : g.update i s (.backoffElapsed now) s' =
              ⟨g.restarts ++ [time], g.restarts ++ [time]⟩ := by
            apply FailureLog.update_restarted (by rw [hLife]; simp)
            simpa [failureAt] using hLatest
          rw [hLatest] at hAllowed
          rw [hLog, hTo, hLife]
          refine .running rfl ⟨granted_concat.mpr ⟨hUnpaid.granted, hAllowed⟩, rfl, ?_⟩
          simp [hUnpaid.tally, hLatest]
      | leaving hStage => rcases hStage with hStage | hStage <;> cases hStage
  | @stopping now hFrom hTo hLife =>
      have hKept : g.update i s (.cancelObserved now) s' = g :=
        FailureLog.update_kept rfl (by rw [hLife]; simp)
      rw [hKept, hTo]
      exact .leaving (Or.inl rfl) h.granted.1 h.granted.2
  | @joinedLate run hFrom hTo hLife =>
      have hKept : g.update i s (.drain run) s' = g :=
        FailureLog.update_kept rfl (by rw [hLife]; rfl)
      rw [hKept, hTo]
      exact .leaving (Or.inl rfl) h.granted.1 h.granted.2
  | stopped hFrom hTo hLife =>
      have hKept : g.update i s .drained s' = g :=
        FailureLog.update_kept rfl (by rw [hLife]; simp)
      rw [hKept, hTo]
      exact .leaving (Or.inr rfl) h.granted.1 h.granted.2
  | spared hSpares hStage hLife =>
      have hKept : g.update i s label s' = g :=
        FailureLog.update_kept (failureAt_of_spares hSpares) (by rw [hLife])
      rw [hKept, hLife]
      rcases hStage with hSame | ⟨hFrom, hTo⟩
      · rw [hSame]
        exact h
      · rw [hFrom] at h
        cases h with
        | waiting _ hState hUnpaid hAllowed =>
            rw [hTo]
            exact .waiting (Or.inl rfl) hState hUnpaid hAllowed
        | leaving hStage => rcases hStage with hStage | hStage <;> cases hStage

/-- What holds of a worker with a budget, its handle and the log of its failures. -/
structure Budgeting (retries : Nat) (i : WorkerId) (s : Supervisor) (g : FailureLog) : Prop where
  breaker : (s.life i).breaker = none
  window : (s.worker i).handle.window = WorkerHandle.windowOf g.failures
  budgeted : (s.life i).Budgeted i retries g (s.phase.stage i)
  asked : (s.life i).attempts = 0 ∨ (s.life i).attempts.toNat = burst g.failures

/-- The cell keeps the count that the policy was asked about last. -/
theorem asked_step (hStands : s.Stands i)
    (hWindow : (s.worker i).handle.window = WorkerHandle.windowOf g.failures)
    (hBudgeted : (s.life i).Budgeted i retries.toNat g (s.phase.stage i))
    (h : (s.life i).attempts = 0 ∨ (s.life i).attempts.toNat = burst g.failures)
    (hStep : LifeStep s s' i label) : (s'.life i).attempts = 0 ∨
      (s'.life i).attempts.toNat = burst (g.update i s label s').failures := by
  cases hStep with
  | @settled run wall now task outcome hFrom hTask hOwner hOutcome hSettled =>
      have hFailure := failureAt_join wall now hTask hOwner hOutcome
      have hCell : (s'.life i).attempts = (s.worker i).attemptsAfter outcome.hasFailed wall :=
        hSettled.cells.1
      rw [hCell]
      cases hFailed : outcome.hasFailed with
      | false => exact Or.inl rfl
      | true =>
          rw [hFailed, if_pos rfl] at hFailure
          have hPaid := paid_of_task hStands hFrom hBudgeted hTask hOwner
          apply Or.inr
          rw [attemptsAfter_failed hWindow, hPaid.granted.asked_toNat, FailureLog.update, hFailure]
          rfl
  | spared hSpares _ hLife =>
      rw [hLife, FailureLog.update, failureAt_of_spares hSpares, Option.toList_none,
        List.append_nil]
      exact h
  | begun _ _ hLife | ticked _ _ _ hLife | tried _ _ _ hLife | resumed _ _ hLife
  | stopping _ _ hLife | joinedLate _ _ hLife | stopped _ _ hLife =>
      rw [hLife]
      simp only [FailureLog.update, failureAt, Option.toList_none, List.append_nil]
      exact h

theorem Budgeting.step (h : Budgeting retries.toNat i s g) (hAudited : s.Audited) (hMem : i ∈ s.ids)
    (hPolicy : (s.worker i).spec.restart = .maxRetries retries window)
    (hStep : SupervisorStep T s label s') :
    Budgeting retries.toNat i s' (g.update i s label s') := by
  have hLife := lifeStep_of_step hAudited.books hStep hMem
  have hStands := hAudited.stands i hMem
  exact ⟨breaker_step h.breaker hLife, FailureLog.window_step hAudited.books g h.window hStep,
    budgeted_step hStands hPolicy h.breaker h.window h.budgeted hLife,
    asked_step hStands h.window h.budgeted h.asked hLife⟩

/-- In every run, what a worker with a budget has had of it agrees with its failures. -/
theorem budgeting_of_reachable {roster : Roster} {c : Supervisor × FailureLog}
    (hMem : i ∈ roster.ids) (hPolicy : (roster.spec i).restart = .maxRetries retries window)
    (hCircuit : (roster.spec i).circuit = none)
    (reach : Reachable (Ghosted (SupervisorStep T) (FailureLog.update i)) (new roster, .none) c) :
    Budgeting retries.toNat i c.1 c.2 := by
  refine Reachable.ghost_invariant
    (fun s => s.Audited ∧ i ∈ s.ids ∧ (s.worker i).spec.restart = .maxRetries retries window)
    (Budgeting retries.toNat i) reach (fun s hReach => ?_) ?_ ?_
  · obtain ⟨hIds, hSpec⟩ := registered_of_reachable hReach
    rw [hIds, hSpec]
    exact ⟨audited_of_reachable hReach, hMem, hPolicy⟩
  · refine ⟨?_, rfl, .fresh rfl rfl, Or.inl rfl⟩
    simp [life, new, RegisteredWorker.register, hCircuit]
  · intro s g label s' hBase hBudgeting hStep
    exact hBudgeting.step hBase.1 hBase.2.1 hBase.2.2 hStep

end Supervisor

end ServiceKernel
