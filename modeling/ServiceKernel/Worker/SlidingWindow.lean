import ServiceKernel.Worker.Circuit

/-! The failure window of a circuit breaker. The breaker compares a failure with the one
before it only, so what it counts is a streak of failures and not a sliding window. -/
namespace ServiceKernel

open Execution

section Windows

variable {window : Nat} {t : Nat} {failures : List Nat}

theorem streak_le_length (failures : List Nat) : streak window failures ≤ failures.length := by
  induction failures with
  | nil => exact Nat.le_refl _
  | cons later rest ih =>
      cases rest with
      | nil => exact Nat.le_refl _
      | cons earlier rest =>
          rw [streak]
          split_ifs
          · exact Nat.succ_le_succ ih
          · exact Nat.succ_le_succ (Nat.zero_le _)

/-- A window holds more than `n` failures when the failure `n` places before the latest is
still in it. -/
theorem lt_countIn_iff (hSorted : failures.Pairwise fun later earlier => earlier ≤ later)
    (hPast : ∀ u ∈ failures, u ≤ t) (n : Nat) :
    n < countIn window t failures ↔ ∃ u, failures[n]? = some u ∧ t ≤ u + window := by
  induction failures generalizing n with
  | nil => simp [countIn]
  | cons v rest ih =>
      obtain ⟨hFirst, hRest⟩ := List.pairwise_cons.mp hSorted
      have hV : v ≤ t := hPast v (by simp)
      have hPastRest : ∀ u ∈ rest, u ≤ t := fun u hMem => hPast u (by simp [hMem])
      by_cases hIn : t ≤ v + window
      · have hCount : countIn window t (v :: rest) = countIn window t rest + 1 := by
          simp [countIn, hIn, hV]
        cases n with
        | zero => simp [hCount, hIn]
        | succ n =>
            rw [hCount, Nat.add_lt_add_iff_right, ih hRest hPastRest n]
            simp
      · have hOld : ∀ u ∈ v :: rest, u + window < t := by
          intro u hMem
          rcases List.mem_cons.mp hMem with rfl | hMem
          · omega
          · have hLe := hFirst u hMem
            omega
        rw [countIn_eq_zero hOld]
        constructor
        · intro hLt
          exact absurd hLt (Nat.not_lt_zero _)
        · rintro ⟨u, hAt, hLe⟩
          have hLt := hOld u (List.mem_of_getElem? hAt)
          omega

/-- The latest `n` failures, latest first, followed each other within the window, and
together they take longer than it. -/
def Overlong (window n : Nat) (failures : List Nat) : Prop :=
  n ≤ streak window failures ∧
    ∃ last first, failures.head? = some last ∧ failures[n - 1]? = some first ∧
      first + window < last

/-- A streak and a window make up the same number unless the streak is overlong. -/
theorem streak_agrees_iff {n : Nat} (hThreshold : 1 ≤ n)
    (hSorted : (t :: failures).Pairwise fun later earlier => earlier ≤ later) :
    (n ≤ streak window (t :: failures) ↔ n ≤ countIn window t (t :: failures)) ↔
      ¬ Overlong window n (t :: failures) := by
  have hPast : ∀ u ∈ t :: failures, u ≤ t := by
    intro u hMem
    rcases List.mem_cons.mp hMem with rfl | hMem
    · exact Nat.le_refl _
    · exact (List.pairwise_cons.mp hSorted).1 u hMem
  have hCount : n - 1 < countIn window t (t :: failures) ↔
      ∃ u, (t :: failures)[n - 1]? = some u ∧ t ≤ u + window :=
    lt_countIn_iff hSorted hPast (n - 1)
  have hLe : n ≤ countIn window t (t :: failures) ↔ n - 1 < countIn window t (t :: failures) := by
    omega
  by_cases hStreak : n ≤ streak window (t :: failures)
  · have hLength := Nat.le_trans hStreak (streak_le_length _)
    have hAt : n - 1 < (t :: failures).length := by omega
    have hFirst := List.getElem?_eq_getElem hAt
    rw [hLe, hCount, hFirst, Overlong, hFirst]
    simp [hStreak]
  · have hFew : countIn window t (t :: failures) ≤ streak window (t :: failures) :=
      countIn_le_streak hSorted
    have hNot : ¬ n ≤ countIn window t (t :: failures) := by omega
    simp [Overlong, hStreak, hNot]

end Windows

section SlidingWindow

/-- Three failures within ten nanoseconds. -/
def CircuitPolicy.tenApart : CircuitPolicy where
  failureThreshold := 3
  failureWindow := .fromNanos 10
  openDuration := .fromNanos 10

variable {policy : CircuitPolicy} {clock : Instant} {s : CircuitRun}

/-- A failure in `Closed` is judged by the failures in the window that ends with it exactly
when the failures of the streak that would open the breaker all lie in that window. -/
theorem sliding_window_iff (hThreshold : 1 ≤ policy.failureThreshold.toNat)
    (reach : Reachable CircuitStep (.new policy clock) s) (hClosed : s.breaker.state = .closed)
    {t : Instant} (hClock : s.clock ≤ t) :
    ((s.breaker.recordFailure t).state = .opened ↔ policy.failureThreshold.toNat ≤
        countIn policy.failureWindow.nanos t (t :: failureTimes s.history)) ↔
      ¬ Overlong policy.failureWindow.nanos policy.failureThreshold.toNat
        (t :: failureTimes s.history) := by
  have hTally := tally_of_reachable reach
  have hPolicy := policy_of_reachable reach
  have hPast : ∀ u ∈ t :: failureTimes s.history, u ≤ t := by
    intro u hMem
    rcases List.mem_cons.mp hMem with rfl | hMem
    · exact Nat.le_refl _
    · exact Nat.le_trans (hTally.recent u hMem) hClock
  have hSorted : (t :: failureTimes s.history).Pairwise fun later earlier => earlier ≤ later :=
    List.pairwise_cons.mpr ⟨fun u hMem => hPast u (by simp [hMem]), hTally.sorted⟩
  rw [hTally.opens_iff hClosed, hPolicy]
  exact streak_agrees_iff hThreshold hSorted

/-- Three failures eight apart open a breaker whose window is ten: never were there three
of them in one window. -/
theorem not_sliding_window :
    ¬ ∀ (policy : CircuitPolicy) (clock : Instant) (s : CircuitRun),
      1 ≤ policy.failureThreshold.toNat → Reachable CircuitStep (.new policy clock) s →
      s.breaker.state = .closed → ∀ t, s.clock ≤ t →
      ((s.breaker.recordFailure t).state = .opened ↔ policy.failureThreshold.toNat ≤
        countIn policy.failureWindow.nanos t (t :: failureTimes s.history)) := by
  intro hClaim
  obtain ⟨s, hRun, hClosed, hClock, hOpens, hFew⟩ : ∃ s, replay CircuitRun.exec
        (.new .tenApart 0) [.recordFailure 0, .recordFailure 8] = some s ∧
      s.breaker.state = .closed ∧ s.clock ≤ 16 ∧
      (s.breaker.recordFailure 16).state = .opened ∧
      ¬ 3 ≤ countIn 10 16 (16 :: failureTimes s.history) :=
    ⟨_, rfl, by decide, by decide, by decide, by decide⟩
  exact hFew ((hClaim .tenApart 0 s (by decide) (runs_of_replay hRun).reachable hClosed 16
    hClock).mp hOpens)

/-- After a success three failures within nine open the breaker. -/
theorem sliding_window_streak : ∃ s, replay CircuitRun.exec (.new .tenApart 0)
      [.recordFailure 0, .recordSuccess, .recordFailure 3, .recordFailure 8] = some s ∧
    failureTimes s.history = [8, 3] ∧ (s.breaker.recordFailure 12).state = .opened := by
  obtain ⟨s, hRun, hClosed, hClock, hTimes⟩ : ∃ s, replay CircuitRun.exec (.new .tenApart 0)
        [.recordFailure 0, .recordSuccess, .recordFailure 3, .recordFailure 8] = some s ∧
      s.breaker.state = .closed ∧ s.clock ≤ 12 ∧ failureTimes s.history = [8, 3] :=
    ⟨_, rfl, rfl, by decide, rfl⟩
  have hShort : ¬ Overlong 10 3 [12, 8, 3] := by
    rintro ⟨-, last, first, hLast, hFirst, hLong⟩
    obtain rfl : 12 = last := Option.some.inj hLast
    obtain rfl : 3 = first := Option.some.inj hFirst
    omega
  have hJudged := sliding_window_iff (by decide) (runs_of_replay hRun).reachable hClosed hClock
  rw [hTimes] at hJudged
  exact ⟨s, hRun, hTimes, (hJudged.mpr hShort).mpr (by decide)⟩

end SlidingWindow

end ServiceKernel
