import ServiceKernel.Worker.Budget

/-! What `MaxRetries` is configured with against what its worker gets: the number of
restarts, and the window in which they are counted. -/
namespace ServiceKernel

open Execution Supervisor

/-- A handled run of the worker has failed. -/
def SupervisorRecord.failsFor (i : WorkerId) : SupervisorRecord → Bool
  | .handled id _ outcome => id ≠ i || outcome.hasFailed
  | _ => true

/-- Each of the first `retries` failures is answered with a restart, made or waited for,
and the next one with a stop. -/
def Supervisor.GrantsInFull (s : Supervisor) (i : WorkerId) (retries failures : Nat) : Prop :=
  let (spawned, restarted) := (s.life i).tally
  if failures ≤ retries then
    restarted = failures ∧ spawned = failures + 1 ∨
      restarted + 1 = failures ∧ spawned = failures ∧ (s.worker i).handle.state = .restarting
  else
    restarted = retries ∧ spawned = retries + 1 ∧ (s.worker i).handle.state = .stopped

section Budget

variable {s : Supervisor} {g : FailureLog} {i : WorkerId} {retries : Nat}

/-- While no window expires, fewer failures than `retries` are answered with a restart. -/
theorem Granted.length_lt {times : List Int} (h : Granted retries times)
    (hWindow : times.IsChain InWindow) : times.length < retries ∨ times.length = 0 := by
  by_cases hNone : times = []
  · exact Or.inr (List.length_eq_zero_iff.mpr hNone)
  · have hBelow := h times List.prefix_rfl hNone
    rw [burst_of_chain hWindow] at hBelow
    exact Or.inl hBelow

/-- The failure at hand counts as one of the `retries`, so the last of them is refused. -/
theorem Supervisor.Budgeting.grantsInFull_iff (h : Budgeting retries i s g)
    (hFails : ∀ record ∈ s.history, record.failsFor i = true)
    (hWindow : g.failures.IsChain InWindow) (hLoop : s.Supervising) :
    s.GrantsInFull i retries g.failures.length ↔ retries = 0 ∨ g.failures.length < retries := by
  have hStage := stage_of_supervising (i := i) hLoop
  have hCount := burst_of_chain hWindow
  obtain ⟨hGranted, hAnswered⟩ := h.budgeted.granted
  have hChain := List.IsChain.prefix hWindow hAnswered
  have hEarlier := hGranted.length_lt hChain
  have hBudgeted := h.budgeted
  generalize s.phase.stage i = stage at hBudgeted hStage
  have hState : (s.life i).state = (s.worker i).handle.state := rfl
  unfold GrantsInFull
  cases hBudgeted with
  | fresh => rcases hStage with hStage | hStage <;> cases hStage
  | leaving hLeft =>
      rcases hStage with hStage | hStage <;> rcases hLeft with hLeft | hLeft <;>
        simp [hStage] at hLeft
  | running hRunning hPaid =>
      rw [hPaid.answered] at hEarlier
      simp only [hPaid.tally]
      rw [if_pos (by omega)]
      exact iff_of_true (Or.inl ⟨trivial, trivial⟩) (by omega)
  | completed hStopped hPaid hDone =>
      have hFailed := hFails _ (List.mem_of_mem_filter hDone)
      simp [SupervisorRecord.failsFor, SupervisorOutcome.hasFailed] at hFailed
  | refused hStopped hUnpaid hSpent =>
      obtain ⟨time, hFailures⟩ := hUnpaid.answered
      have hLength : g.failures.length = g.restarts.length + 1 := by
        rw [hFailures, List.length_append, List.length_singleton]
      rw [hState] at hStopped
      simp only [hUnpaid.tally, hStopped]
      split_ifs with hWithin
      · simp only [and_false, or_false]
        omega
      · simp only [and_true]
        omega
  | waiting _ hWaiting hUnpaid hAllowed =>
      obtain ⟨time, hFailures⟩ := hUnpaid.answered
      have hLength : g.failures.length = g.restarts.length + 1 := by
        rw [hFailures, List.length_append, List.length_singleton]
      rw [hState] at hWaiting
      simp only [hUnpaid.tally, hWaiting]
      rw [if_pos (by omega)]
      exact iff_of_true (Or.inr ⟨hLength.symm, trivial, trivial⟩) (by omega)

end Budget

/-- While the runs of a worker all fail and no failure window expires, a budget of
`retries` is granted in full exactly if it is zero or has not been used up: the last
restart it promises is never made. -/
theorem budget_granted_iff (T : TaskIds) (roster : Roster) (i : WorkerId) (hMem : i ∈ roster.ids)
    (retries : UInt32) (window : Duration)
    (hPolicy : (roster.spec i).restart = .maxRetries retries window)
    (hCircuit : (roster.spec i).circuit = none) (s : Supervisor) (g : FailureLog)
    (reach : Reachable (Ghosted (SupervisorStep T) (FailureLog.update i)) (.new roster, .none) (s, g))
    (hFails : ∀ record ∈ s.history, record.failsFor i = true)
    (hWindow : g.failures.IsChain InWindow) (hLoop : s.Supervising) :
    s.GrantsInFull i retries.toNat g.failures.length ↔
      retries.toNat = 0 ∨ g.failures.length < retries.toNat :=
  (budgeting_of_reachable hMem hPolicy hCircuit reach).grantsInFull_iff hFails hWindow hLoop

/-- A worker with a budget that is restarted without a wait. -/
def WorkerSpec.budgeted (retries : UInt32) (window : Duration) : WorkerSpec :=
  { WorkerSpec.new "alpha" with restart := .maxRetries retries window, backoff := .none }

/-- The worker fails at each of these times. -/
def failsAt (walls : List Nat) : List SupervisorLabel :=
  .start :: walls.zipIdx.flatMap fun (wall, run) =>
    [.finish run (.err ⟨"disk full"⟩), .join run (some wall) 0]

/-- Run a budgeted worker and log its failures. -/
def logFailures (retries : UInt32) (window : Duration) (walls : List Nat) :
    Option (Supervisor × FailureLog) :=
  replay (ghostedExec (exec .counting) (FailureLog.update 1))
    (.new (.single (.budgeted retries window) .sync), .none) (failsAt walls)

theorem reachable_of_logFailures {retries : UInt32} {window : Duration} {walls : List Nat}
    {c : Supervisor × FailureLog} (h : logFailures retries window walls = some c) :
    Reachable (Ghosted (SupervisorStep .counting) (FailureLog.update 1))
      (.new (.single (.budgeted retries window) .sync), .none) c :=
  ((runs_of_replay h).mono fun _ _ _ => ghosted_of_exec).reachable

/-- Two failures of a budget of three are answered with restarts. -/
theorem budget_granted_partly : ∃ s g, logFailures 3 (.fromSecs 60) [5, 2000000000] = some (s, g) ∧
    (s.worker 1).handle.state = .running ∧ s.GrantsInFull 1 3 2 := by
  obtain ⟨c, hRun, hFails, hFailures, hLoop, hState⟩ :
      ∃ c, logFailures 3 (.fromSecs 60) [5, 2000000000] = some c ∧
        (∀ record ∈ c.1.history, record.failsFor 1 = true) ∧ c.2.failures = [5, 2000000000] ∧
        c.1.phase = .head ∧ (c.1.worker 1).handle.state = .running :=
    ⟨_, rfl, by decide, rfl, rfl, rfl⟩
  have hChain : c.2.failures.IsChain InWindow := by
    rw [hFailures]
    exact List.isChain_pair.mpr (by decide)
  have hGranted := budget_granted_iff .counting _ 1 (by decide) 3 (.fromSecs 60) rfl rfl c.1 c.2
    (reachable_of_logFailures hRun) hFails hChain (by rw [Supervising, hLoop]; trivial)
  rw [hFailures] at hGranted
  exact ⟨c.1, c.2, hRun, hState, hGranted.mpr (Or.inr (by decide))⟩

/-- A worker with a budget of one restart is stopped by its first failure. -/
theorem budget_withheld : ¬ ∀ (T : TaskIds) (roster : Roster) (i : WorkerId) (retries : UInt32)
    (window : Duration) (s : Supervisor) (g : FailureLog), i ∈ roster.ids →
    (roster.spec i).restart = .maxRetries retries window → (roster.spec i).circuit = none →
    Reachable (Ghosted (SupervisorStep T) (FailureLog.update i)) (.new roster, .none) (s, g) →
    (∀ record ∈ s.history, record.failsFor i = true) → g.failures.IsChain InWindow →
    s.Supervising → s.GrantsInFull i retries.toNat g.failures.length := by
  intro hClaim
  obtain ⟨c, hRun, hFails, hFailures, hLoop, hTally, hState⟩ :
      ∃ c, logFailures 1 (.fromSecs 60) [5] = some c ∧
        (∀ record ∈ c.1.history, record.failsFor 1 = true) ∧ c.2.failures = [5] ∧
        c.1.phase = .head ∧ (c.1.life 1).tally = (1, 0) ∧
        (c.1.worker 1).handle.state = .stopped := ⟨_, rfl, by decide, rfl, rfl, rfl, rfl⟩
  have hGranted := hClaim .counting _ 1 1 (.fromSecs 60) c.1 c.2 (by decide) rfl rfl
    (reachable_of_logFailures hRun) hFails (by rw [hFailures]; exact .singleton _)
    (by rw [Supervising, hLoop]; trivial)
  rw [hFailures] at hGranted
  simp [GrantsInFull, hTally, hState] at hGranted

/-- No interval of the length of the window holds more than `retries` failures that were
answered with a restart, and the last decision counted no failure older than the window. -/
structure Supervisor.KeepsWindow (s : Supervisor) (g : FailureLog) (i : WorkerId)
    (retries window : Nat) : Prop where
  restarts : ∀ start : Int,
    g.restarts.countP (fun time => start ≤ time ∧ time ≤ start + window) ≤ retries
  counted : ∀ earlier ∈ g.failures.rtake (s.worker i).attempts.toNat,
    lastTime g.failures - earlier ≤ window

/-- The earlier failures at most `window` old are those of the burst that this failure is
added to. -/
def BurstFits (window : Nat) (failures : List Int) (time : Int) : Prop :=
  let counted := burst (failures ++ [time]) - 1
  (∀ earlier ∈ failures.rtake counted, time - earlier ≤ window) ∧
    ∀ earlier ∈ failures.rdrop counted, window < time - earlier

instance (window : Nat) (failures : List Int) (time : Int) :
    Decidable (BurstFits window failures time) := inferInstanceAs (Decidable (_ ∧ _))

/-- Every failure so far fitted when it was handled. -/
def BurstsFit (window : Nat) (failures : List Int) : Prop :=
  ∀ front time, front ++ [time] <+: failures → BurstFits window front time

/-- A failure of the worker is handled only when it fits. -/
def FitsBurst (i : WorkerId) (window : Nat) (c : Supervisor × FailureLog)
    (label : SupervisorLabel) : Prop :=
  ∀ time ∈ c.1.failureAt i label, BurstFits window c.2.failures time

instance (i : WorkerId) (window : Nat) (c : Supervisor × FailureLog) (label : SupervisorLabel) :
    Decidable (FitsBurst i window c label) := by
  unfold FitsBurst
  infer_instance

section Window

variable {window retries : Nat} {failures : List Int} {time : Int}

theorem burstsFit_concat : BurstsFit window (failures ++ [time]) ↔
    BurstsFit window failures ∧ BurstFits window failures time := by
  constructor
  · intro h
    exact ⟨fun front last hFront => h front last (hFront.trans (List.prefix_append _ _)),
      h failures time List.prefix_rfl⟩
  · rintro ⟨hEarlier, hLast⟩ front last hFront
    rcases List.prefix_concat_iff.mp hFront with hSame | hBefore
    · obtain ⟨rfl, hTime⟩ := List.append_inj' hSame rfl
      obtain rfl := List.singleton_inj.mp hTime
      exact hLast
    · exact hEarlier front last hBefore

/-- Restarts within a budget are at most as many in every interval, if the bursts fit. -/
theorem Granted.count_le (h : Granted retries failures) (hFit : BurstsFit window failures)
    (start : Int) :
    failures.countP (fun time => start ≤ time ∧ time ≤ start + window) ≤ retries := by
  induction failures using List.reverseRecOn with
  | nil => exact Nat.zero_le _
  | append_singleton failures time ih =>
      obtain ⟨hEarlier, hBelow⟩ := granted_concat.mp h
      obtain ⟨hFitted, hRecent, hOld⟩ := burstsFit_concat.mp hFit
      have hBefore := ih hEarlier hFitted
      have hPositive := burst_pos failures time
      rw [List.countP_append, List.countP_singleton]
      by_cases hHere : start ≤ time ∧ time ≤ start + window
      · -- Of the earlier failures only the burst is in the interval.
        let counted := burst (failures ++ [time]) - 1
        have hNone : (failures.rdrop counted).countP
            (fun time => start ≤ time ∧ time ≤ start + window) = 0 := by
          rw [List.countP_eq_zero]
          intro earlier hMem
          have hFar := hOld earlier hMem
          simp only [decide_eq_true_eq]
          omega
        have hSplit : failures.rdrop counted ++ failures.rtake counted = failures :=
          List.take_append_drop _ _
        have hFew : (failures.rtake counted).length ≤ counted := by
          rw [List.rtake, List.length_drop]
          omega
        rw [← hSplit, List.countP_append, hNone, if_pos (decide_eq_true hHere)]
        have hCount := List.countP_le_length
          (p := fun time => decide (start ≤ time ∧ time ≤ start + window))
          (l := failures.rtake counted)
        omega
      · rw [if_neg (by simpa using hHere)]
        exact hBefore

/-- A burst that fits is no older than the window. -/
theorem BurstsFit.recent (h : BurstsFit window failures) :
    ∀ earlier ∈ failures.rtake (burst failures), lastTime failures - earlier ≤ window := by
  induction failures using List.reverseRecOn with
  | nil => simp
  | append_singleton failures time ih =>
      have hRecent := (burstsFit_concat.mp h).2.1
      have hPositive := burst_pos failures time
      intro earlier hMem
      rw [← Nat.sub_add_cancel hPositive, List.rtake_concat_succ] at hMem
      rw [lastTime_concat]
      rcases List.mem_append.mp hMem with hBefore | hHere
      · exact hRecent earlier hBefore
      · obtain rfl := List.mem_singleton.mp hHere
        omega

end Window

/-- In every run in which, at each failure, the earlier failures in the policy's window are
those the handle has counted, the policy's window is kept. -/
theorem window_kept (T : TaskIds) (roster : Roster) (i : WorkerId) (hMem : i ∈ roster.ids)
    (retries : UInt32) (window : Duration)
    (hPolicy : (roster.spec i).restart = .maxRetries retries window)
    (hCircuit : (roster.spec i).circuit = none) (s : Supervisor) (g : FailureLog)
    (reach : Reachable (Restrict (Ghosted (SupervisorStep T) (FailureLog.update i))
      (FitsBurst i window.nanos)) (.new roster, .none) (s, g)) :
    s.KeepsWindow g i retries.toNat window.nanos := by
  have hBudgeting := budgeting_of_reachable hMem hPolicy hCircuit
    (reach.mono fun _ _ _ hStep => hStep.1)
  have hFit : BurstsFit window.nanos g.failures := by
    refine reach.invariant (fun c => BurstsFit window.nanos c.2.failures) ?_ ?_
    · intro front time hFront
      simp [FailureLog.none] at hFront
    · intro c label c' hBefore hStep
      rw [hStep.1.2, FailureLog.update]
      cases hFailure : c.1.failureAt i label with
      | none => simpa using hBefore
      | some time => exact burstsFit_concat.mpr ⟨hBefore, hStep.2 time hFailure⟩
  obtain ⟨hGranted, hAnswered⟩ := hBudgeting.budgeted.granted
  have hAsked : (s.worker i).attempts = 0 ∨ (s.worker i).attempts.toNat = burst g.failures :=
    hBudgeting.asked
  refine ⟨hGranted.count_le fun front time hFront => hFit front time (hFront.trans hAnswered), ?_⟩
  intro earlier hCounted
  rcases hAsked with hZero | hBurst
  · rw [hZero] at hCounted
    simp at hCounted
  · rw [hBurst] at hCounted
    exact hFit.recent earlier hCounted

/-- Two failures fifteen seconds apart, in a window of a minute. -/
theorem window_kept_minute : ∃ c : Supervisor × FailureLog,
    c.2.failures = [5000000000, 20000000000] ∧ c.1.KeepsWindow c.2 1 3 60000000000 := by
  obtain ⟨c, hRun, hFailures⟩ : ∃ c, replay (fun c label =>
      if FitsBurst 1 60000000000 c label then
        ghostedExec (exec .counting) (FailureLog.update 1) c label else none)
      (.new (.single (.budgeted 3 (.fromSecs 60)) .sync), .none)
      (failsAt [5000000000, 20000000000]) = some c ∧ c.2.failures = [5000000000, 20000000000] :=
    ⟨_, rfl, rfl⟩
  have hReach := ((restricted_of_replay hRun).mono fun _ _ _ hStep =>
    (⟨ghosted_of_exec hStep.1, hStep.2⟩ : Restrict _ _ _ _ _)).reachable
  exact ⟨c, hFailures,
    window_kept .counting _ 1 (by decide) 3 (.fromSecs 60) rfl rfl c.1 c.2 hReach⟩

/-- Three failures, 61 seconds apart, in a window of 200 seconds: the count starts over each
time, and a budget of two grants three restarts. -/
theorem window_forgotten : ¬ ∀ (T : TaskIds) (roster : Roster) (i : WorkerId) (retries : UInt32)
    (window : Duration) (s : Supervisor) (g : FailureLog), i ∈ roster.ids →
    (roster.spec i).restart = .maxRetries retries window → (roster.spec i).circuit = none →
    Reachable (Ghosted (SupervisorStep T) (FailureLog.update i)) (.new roster, .none) (s, g) →
    s.KeepsWindow g i retries.toNat window.nanos := by
  intro hClaim
  obtain ⟨c, hRun, hRestarts⟩ : ∃ c, logFailures 2 (.fromSecs 200)
      [1000000000, 62000000000, 123000000000] = some c ∧
      c.2.restarts = [1000000000, 62000000000, 123000000000] := ⟨_, rfl, rfl⟩
  have hKept := (hClaim .counting _ 1 2 (.fromSecs 200) c.1 c.2 (by decide) rfl rfl
    (reachable_of_logFailures hRun)).restarts 0
  rw [hRestarts] at hKept
  exact absurd hKept (by decide)

/-- Two failures five seconds apart, in a window of one second: the older one counts. -/
theorem window_overrun : ∃ c, logFailures 2 (.fromSecs 1) [5000000000, 10000000000] = some c ∧
    ¬ c.1.KeepsWindow c.2 1 2 1000000000 := by
  refine ⟨_, rfl, fun hKept => ?_⟩
  exact absurd (hKept.counted 5000000000 (by decide)) (by decide)

end ServiceKernel
