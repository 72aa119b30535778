import ServiceKernel.Worker.Backoff
import ServiceKernel.Worker.FailureTimes

/-! The wait before the first restart of a worker, and before each later one of the same
burst of failures. The handle counts failures from one and the delay its attempts from
zero. -/
namespace ServiceKernel

open Execution Supervisor

/-- How long the supervisor is to wait before the restart it has decided on. -/
def Supervisor.waiting (s : Supervisor) : Nat :=
  match s.phase with
  | .backoff _ _ _ due => due - s.clock
  | _ => 0

section Waits

variable {T : TaskIds} {s s' : Supervisor} {id i : WorkerId} {run : Nat}
  {outcome : SupervisorOutcome} {wall : Option Nat}

/-- A restart is begun with the delay of the policy. -/
theorem beginRestart_waiting (attempts : UInt32) : (s.beginRestart T id attempts).waiting =
    ((s.worker id).spec.backoff.delay attempts).nanos := by
  simp only [beginRestart]
  split_ifs with hZero
  · have hNone : ((s.worker id).spec.backoff.delay attempts).nanos = 0 := by
      simpa [Duration.isZero] using hZero
    rw [hNone]
    rfl
  · exact Nat.add_sub_cancel_left ..

variable (T run outcome wall) in
/-- Without a breaker an outcome that the policy allows a restart after is followed by the
delay of the policy. -/
theorem handleOutcome_waiting (hMem : id ∈ s.ids) (hCircuit : (s.worker id).circuit = none)
    (hAllowed : (s.worker id).spec.restart.shouldRestart outcome.hasFailed
      ((s.worker id).attemptsAfter outcome.hasFailed wall) = true) :
    (s.handleOutcome T id run outcome wall).waiting = ((s.worker id).spec.backoff.delay
      ((s.worker id).attemptsAfter outcome.hasFailed wall)).nanos := by
  let announced := s.announceOutcome id run outcome
  have hWorker : announced.worker = s.worker := announceOutcome_worker run outcome
  have hIn : id ∈ announced.ids := by
    rw [ids_eq (frame_announceOutcome run outcome)]
    exact hMem
  have hAdvanced : announced.advanceCircuit id outcome.hasFailed = (announced, false) := by
    simp only [advanceCircuit, if_pos hIn, hWorker, hCircuit]
  have hAllows := @consultPolicy_allows announced id outcome.hasFailed wall
  have hCount := @consultPolicy_attempts announced id outcome.hasFailed wall
  rw [hWorker] at hAllows hCount
  let consulted := announced.consultPolicy id outcome.hasFailed wall
  have hSpec : (consulted.1.worker id).spec = (s.worker id).spec := by
    rw [← hWorker]
    exact congrFun (congrArg Frame.spec (frame_consultPolicy outcome.hasFailed wall)) id
  have hEnd : s.handleOutcome T id run outcome wall = consulted.1.beginRestart T id consulted.2.2 := by
    simp only [handleOutcome, if_pos hMem, maybeRestart]
    have hMaybe : announced.maybeRestart T id outcome.hasFailed wall =
        consulted.1.beginRestart T id consulted.2.2 := by
      simp only [maybeRestart, hAdvanced, if_pos hIn, decideRestart]
      exact if_pos (by rw [hAllows, hAllowed]; rfl)
    exact hMaybe
  rw [hEnd, beginRestart_waiting, hSpec, hCount]

/-- What a failing join makes the supervisor wait for. -/
theorem join_waiting {now : Instant} {time : Int} (hBooks : Supervisor.Books s)
    (hCircuit : (s.worker i).circuit = none) (hRestart : (s.worker i).spec.restart = .onFailure)
    (hStep : SupervisorStep T s (.join run wall now) s')
    (hFailure : s.failureAt i (.join run wall now) = some time) :
    s'.waiting = ((s.worker i).spec.backoff.delay ((s.worker i).attemptsAfter true wall)).nanos ∧
      time = unixNanos wall := by
  cases takes_of_step hStep with
  | @join run wall now task result hPhase hRunning hClock hTask hResult =>
      have hIn := (findTask_mem hTask).1
      obtain ⟨outcome, hOutcome, hEnded⟩ := hBooks.outcome_of_head hPhase hIn hResult
      simp only [failureAt, hTask, Option.bind_some, hEnded, Option.any_some,
        Option.ite_none_right_eq_some, Option.some.injEq] at hFailure
      obtain ⟨⟨hOwner, hFailed⟩, hTime⟩ := hFailure
      subst hOwner
      have hKnown : task.worker ∈ ({ s with clock := now }.removeTask task).ids :=
        hBooks.consistent.known task hIn
      refine ⟨?_, hTime.symm⟩
      rw [joined_eq (s := { s with clock := now }) hBooks.consistent hIn hResult hOutcome]
      have hWait := handleOutcome_waiting T task.run outcome wall hKnown hCircuit
        (by
          rw [hFailed]
          show (s.worker task.worker).spec.restart.shouldRestart true _ = true
          rw [hRestart]
          rfl)
      rw [hFailed] at hWait
      exact hWait

end Waits

/-- One doubling too many shows unless the cap hides it, there is nothing to double, or the
doublings have just reached their limit. -/
theorem doubled_late_iff {base cap count : Nat} (hPos : 0 < count) :
    min (base * 2 ^ min count 63) cap = min cap (base * 2 ^ (count - 1)) ↔
      base = 0 ∨ count = 64 ∨ cap ≤ base * 2 ^ min (count - 1) 63 := by
  rw [Nat.min_comm cap]
  rcases Nat.lt_trichotomy count 64 with hFew | rfl | hMany
  · have hShift : min count 63 = count := Nat.min_eq_left (by omega)
    have hBefore : min (count - 1) 63 = count - 1 := Nat.min_eq_left (by omega)
    have hNot : count ≠ 64 := by omega
    rw [hShift, hBefore, eq_comm, BackoffPolicy.min_doublings_iff (by omega)]
    simp [hNot]
  · simp
  · have hShift : min count 63 = 63 := Nat.min_eq_right (by omega)
    have hBefore : min (count - 1) 63 = 63 := Nat.min_eq_right (by omega)
    have hNot : count ≠ 64 := by omega
    rw [hShift, hBefore, BackoffPolicy.min_doublings_iff (by omega)]
    simp [hNot]

/-- A base that is still in range after the doublings was not doubled often. -/
theorem doublings_lt {base count : Nat} (hBase : 0 < base)
    (hRange : base * 2 ^ count < 18446744073709551616 * 1000000000) : count < 94 := by
  by_contra hMany
  have hPower : 2 ^ 94 ≤ 2 ^ count := Nat.pow_le_pow_right (by decide) (Nat.le_of_not_lt hMany)
  have hProduct : 2 ^ count ≤ base * 2 ^ count := Nat.le_mul_of_pos_left _ hBase
  omega

/-- The wait before the restart that answers the `count`-th failure of a burst is the base
doubled `count - 1` times, up to the maximum, exactly if the base is zero, the count is
one above the limit of the shift, or the maximum is reached. -/
theorem backoff_from_base_iff (T : TaskIds) (roster : Roster) (i : WorkerId) (hMem : i ∈ roster.ids)
    (base max : Duration) (hRestart : (roster.spec i).restart = .onFailure)
    (hBackoff : (roster.spec i).backoff = .exponential base max)
    (hCircuit : (roster.spec i).circuit = none) (s s' : Supervisor) (g : FailureLog)
    (reach : Reachable (Ghosted (SupervisorStep T) (FailureLog.update i)) (.new roster, .none) (s, g))
    (run : Nat) (wall : Option Nat) (now : Instant) (time : Int) (count : Nat)
    (hStep : SupervisorStep T s (.join run wall now) s')
    (hFailure : s.failureAt i (.join run wall now) = some time)
    (hCount : burst (g.failures ++ [time]) = count)
    (hRange : base.nanos * 2 ^ (count - 1) < 18446744073709551616 * 1000000000) :
    s'.waiting = min max.nanos (base.nanos * 2 ^ (count - 1)) ↔
      base.nanos = 0 ∨ count = 64 ∨ max.nanos ≤ base.nanos * 2 ^ min (count - 1) 63 := by
  have hPlain := reach.forget
  have hBooks := books_of_reachable hPlain
  have hWindow := FailureLog.window_of_reachable reach
  have hSpec := (registered_of_reachable hPlain).2 i
  have hBreaker := breaker_of_reachable hMem hCircuit hPlain
  have hPolicy : (s.worker i).spec.restart = .onFailure := by rw [hSpec, hRestart]
  obtain ⟨hWait, rfl⟩ := join_waiting hBooks hBreaker hPolicy hStep hFailure
  have hPos : 0 < count := hCount ▸ burst_pos g.failures _
  have hAsked : (s.worker i).attemptsAfter true wall = .ofNat count := by
    rw [← hCount]
    exact attemptsAfter_failed hWindow
  rw [hWait, hSpec, hBackoff, hAsked, BackoffPolicy.delay_exponential]
  by_cases hZero : base.nanos = 0
  · simp [hZero]
  · have hFew := doublings_lt (Nat.pos_of_ne_zero hZero) hRange
    have hExact : (UInt32.ofNat count).toNat = count := by
      rw [UInt32.toNat_ofNat']
      exact Nat.mod_eq_of_lt (by omega)
    rw [hExact]
    exact doubled_late_iff hPos

/-- A worker with the given backoff. -/
def runBackingOff (base max : Duration) (labels : List SupervisorLabel) :
    Option (Supervisor × FailureLog) :=
  replay (ghostedExec (exec .counting) (FailureLog.update 1))
    (.new (.single { WorkerSpec.new "alpha" with backoff := .exponential base max } .sync), .none)
    labels

theorem reachable_of_runBackingOff {base max : Duration} {labels : List SupervisorLabel}
    {c : Supervisor × FailureLog} (h : runBackingOff base max labels = some c) :
    Reachable (Ghosted (SupervisorStep .counting) (FailureLog.update 1))
      (.new (.single { WorkerSpec.new "alpha" with backoff := .exponential base max } .sync), .none)
      c :=
  ((runs_of_replay h).mono fun _ _ _ => ghosted_of_exec).reachable

/-- The worker fails, is restarted after its backoff and fails again. -/
def failsAgain : List SupervisorLabel :=
  [.start, .finish 0 (.err ⟨"disk full"⟩), .join 0 (some 5) 7, .backoffElapsed 200000007,
    .finish 1 (.err ⟨"disk full"⟩)]

/-- The second failure of a burst waits for twice the base where that is the maximum. -/
theorem backoff_from_base_capped : ∃ c s',
    runBackingOff (.fromMillis 100) (.fromMillis 200) failsAgain = some c ∧
    SupervisorStep .counting c.1 (.join 1 (some 200000009) 200000009) s' ∧
    burst (c.2.failures ++ [200000009]) = 2 ∧ s'.waiting = 200000000 := by
  obtain ⟨c, hRun, s', hStep, hFailure, hOne⟩ : ∃ c,
      runBackingOff (.fromMillis 100) (.fromMillis 200) failsAgain = some c ∧
      ∃ s', c.1.exec .counting (.join 1 (some 200000009) 200000009) = some s' ∧
        c.1.failureAt 1 (.join 1 (some 200000009) 200000009) = some 200000009 ∧
        c.2.failures = [5] := ⟨_, rfl, _, rfl, rfl, rfl⟩
  have hCount : burst (c.2.failures ++ [200000009]) = 2 := by
    rw [hOne]
    decide
  have hWait := backoff_from_base_iff .counting _ 1 (by decide) (.fromMillis 100) (.fromMillis 200) rfl
    rfl rfl c.1 s' c.2 (reachable_of_runBackingOff hRun) 1 (some 200000009) 200000009 200000009 2
    hStep hFailure hCount (by decide)
  exact ⟨c, s', hRun, hStep, hCount, hWait.mpr (by decide)⟩

/-- With a base of 100 ms and a maximum of 30 s the first restart waits 200 ms. -/
theorem backoff_doubled_first : ¬ ∀ (T : TaskIds) (roster : Roster) (i : WorkerId)
    (base max : Duration) (s s' : Supervisor) (g : FailureLog) (run : Nat) (wall : Option Nat)
    (now : Instant) (time : Int) (count : Nat), i ∈ roster.ids →
    (roster.spec i).restart = .onFailure → (roster.spec i).backoff = .exponential base max →
    (roster.spec i).circuit = none →
    Reachable (Ghosted (SupervisorStep T) (FailureLog.update i)) (.new roster, .none) (s, g) →
    SupervisorStep T s (.join run wall now) s' →
    s.failureAt i (.join run wall now) = some time → burst (g.failures ++ [time]) = count →
    base.nanos * 2 ^ (count - 1) < 18446744073709551616 * 1000000000 →
    s'.waiting = min max.nanos (base.nanos * 2 ^ (count - 1)) := by
  intro hClaim
  obtain ⟨c, hRun, s', hStep, hFailure, hNone, hWaiting⟩ : ∃ c,
      runBackingOff (.fromMillis 100) (.fromSecs 30) [.start, .finish 0 (.err ⟨"disk full"⟩)] =
        some c ∧
      ∃ s', c.1.exec .counting (.join 0 (some 5) 7) = some s' ∧
        c.1.failureAt 1 (.join 0 (some 5) 7) = some 5 ∧ c.2.failures = [] ∧
        s'.waiting = 200000000 := ⟨_, rfl, _, rfl, rfl, rfl, rfl⟩
  have hWait := hClaim .counting _ 1 (.fromMillis 100) (.fromSecs 30) c.1 s' c.2 0 (some 5) 7 5 1
    (by decide) rfl rfl rfl (reachable_of_runBackingOff hRun) hStep hFailure (by rw [hNone]; rfl)
    (by decide)
  rw [hWaiting] at hWait
  exact absurd hWait (by decide)

end ServiceKernel
