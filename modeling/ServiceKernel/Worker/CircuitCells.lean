import ServiceKernel.Worker.SlidingWindow

/-! The cells of a circuit breaker against the calls made on it: the count in `Closed`,
the time stamp in `Open`, and the tick behind every trial. -/
namespace ServiceKernel

open Execution

section Opening

variable {s s' : CircuitRun} {call : CircuitCall}

/-- A tick that comes the open duration after the breaker became `Open`. -/
def DueTick (openDuration : Nat) (opened : Instant) (since : List CircuitCall) : Prop :=
  ∃ now, CircuitCall.tick now ∈ since ∧ opened + openDuration ≤ now

/-- What the last opening says about the state. -/
structure Opening (s : CircuitRun) : Prop where
  past : ∀ t since, lastOpening s.history = some (t, since) → t ≤ s.clock
  stamped : s.breaker.state = .opened →
    ∃ t since, lastOpening s.history = some (t, since) ∧ s.breaker.openedAt = some t
  ticked : s.breaker.state = .halfOpen → ∃ t since, lastOpening s.history = some (t, since) ∧
    DueTick s.breaker.policy.openDuration.nanos t since
  shut : ∀ t since, lastOpening s.history = some (t, since) → .recordSuccess ∉ since →
    ¬ DueTick s.breaker.policy.openDuration.nanos t since → s.breaker.state = .opened

theorem opening_new (policy : CircuitPolicy) (clock : Instant) : Opening (.new policy clock) where
  past t since h := by cases h
  stamped h := by cases h
  ticked h := by cases h
  shut t since h := by cases h

theorem DueTick.mono {openDuration : Nat} {opened : Instant} {since more : List CircuitCall}
    (h : DueTick openDuration opened since) : DueTick openDuration opened (since ++ more) := by
  obtain ⟨now, hMem, hDue⟩ := h
  exact ⟨now, List.mem_append_left _ hMem, hDue⟩

/-- What one call does to the state and the time stamp. -/
inductive CircuitEffect (b : CircuitBreaker) : CircuitCall → CircuitBreaker → Prop where
  | opens (now : Instant) (b' : CircuitBreaker) (hBefore : b.state ≠ .opened)
      (hAfter : b'.state = .opened) (hStamp : b'.openedAt = some now) :
      CircuitEffect b (.recordFailure now) b'
  | counts (now : Instant) (b' : CircuitBreaker) (hBefore : b.state = .closed)
      (hAfter : b'.state = .closed) : CircuitEffect b (.recordFailure now) b'
  | closes : CircuitEffect b .recordSuccess b.recordSuccess
  | tries (now t : Instant) (hBefore : b.state = .opened) (hStamp : b.openedAt = some t)
      (hDue : b.policy.openDuration.nanos ≤ now - t) :
      CircuitEffect b (.tick now) { b with state := .halfOpen }
  | idles (call : CircuitCall) (hSuccess : call ≠ .recordSuccess)
      (hFailure : ∀ now, call = .recordFailure now → b.state = .opened) : CircuitEffect b call b

theorem CircuitBreaker.call_effect (b : CircuitBreaker) (call : CircuitCall) :
    CircuitEffect b call (b.call call) := by
  cases call with
  | recordSuccess => exact .closes
  | allow => exact .idles _ (fun h => by cases h) fun _ h => by cases h
  | recordFailure now =>
      show CircuitEffect b (.recordFailure now) (b.recordFailure now)
      by_cases hOpened : b.state = .opened
      · rw [recordFailure_of_opened hOpened]
        exact .idles _ (fun h => by cases h) fun _ _ => hOpened
      · cases hAfter : (b.recordFailure now).state with
        | opened => exact .opens now _ hOpened hAfter (recordFailure_openedAt hOpened hAfter)
        | halfOpen => exact absurd hAfter recordFailure_ne_halfOpen
        | closed =>
            refine .counts now _ ?_ hAfter
            cases hState : b.state with
            | closed => rfl
            | opened => exact absurd hState hOpened
            | halfOpen =>
                rw [recordFailure_of_halfOpen now hState] at hAfter
                cases hAfter
  | tick now =>
      show CircuitEffect b (.tick now) (b.tick now)
      by_cases hOpened : b.state = .opened
      · rcases tick_cases now hOpened with hSame | ⟨t, hAt, hDue, hTick⟩
        · rw [hSame]
          exact .idles _ (fun h => by cases h) fun _ h => by cases h
        · rw [hTick]
          exact .tries now t hOpened hAt hDue
      · rw [tick_of_ne_opened hOpened]
        exact .idles _ (fun h => by cases h) fun _ h => by cases h

/-- A call that opens the breaker. -/
theorem Opening.opens {now : Instant} (hClock : now ≤ s'.clock)
    (hLast : lastOpening s'.history = some (now, [])) (hAfter : s'.breaker.state = .opened)
    (hStamp : s'.breaker.openedAt = some now) : Opening s' := by
  refine ⟨fun t since hAt => ?_, fun _ => ?_, fun hHalf => ?_, fun _ _ _ _ _ => hAfter⟩
  · rw [hLast] at hAt
    cases hAt
    exact hClock
  · exact ⟨now, [], hLast, hStamp⟩
  · rw [hAfter] at hHalf
    cases hHalf

/-- A call that does not open the breaker joins the calls since the last opening. It
leaves `Open` as a success or as a tick that is due. -/
theorem Opening.goes (h : Opening s) (hClock : s.clock ≤ call.reading?.getD s.clock)
    (hAfter : s'.clock = call.reading?.getD s.clock)
    (hLast : lastOpening s'.history =
      (lastOpening s.history).map fun (t, since) => (t, since ++ [call]))
    (hPolicy : s'.breaker.policy = s.breaker.policy)
    (hStamped : s'.breaker.state = .opened →
      s.breaker.state = .opened ∧ s'.breaker.openedAt = s.breaker.openedAt)
    (hTicked : s'.breaker.state = .halfOpen → s.breaker.state = .halfOpen ∨
      s.breaker.state = .opened ∧ ∃ t now, s.breaker.openedAt = some t ∧ call = .tick now ∧
        s.breaker.policy.openDuration.nanos ≤ now - t)
    (hShut : s.breaker.state = .opened → s'.breaker.state ≠ .opened → call = .recordSuccess ∨
      s'.breaker.state = .halfOpen) : Opening s' := by
  have hFrom : ∀ t since, lastOpening s'.history = some (t, since) →
      ∃ earlier, lastOpening s.history = some (t, earlier) ∧ since = earlier ++ [call] := by
    intro t since hAt
    rw [hLast, Option.map_eq_some_iff] at hAt
    obtain ⟨⟨t', earlier⟩, hEarlier, hPair⟩ := hAt
    cases hPair
    exact ⟨earlier, hEarlier, rfl⟩
  have hHalf : s'.breaker.state = .halfOpen → ∃ t since,
      lastOpening s'.history = some (t, since) ∧
        DueTick s.breaker.policy.openDuration.nanos t since := by
    intro hHalf
    rcases hTicked hHalf with hHalf | ⟨hOpened, t, now, hStamp, rfl, hDue⟩
    · obtain ⟨t, since, hAt, hTick⟩ := h.ticked hHalf
      exact ⟨t, since ++ [call], by simp [hLast, hAt], hTick.mono⟩
    · obtain ⟨t', since, hAt, hStamp'⟩ := h.stamped hOpened
      obtain rfl : t = t' := Option.some.inj (hStamp.symm.trans hStamp')
      have hLe : t ≤ now := Nat.le_trans (h.past t since hAt) hClock
      refine ⟨t, since ++ [.tick now], by simp [hLast, hAt], now, by simp, ?_⟩
      exact Nat.add_le_of_le_sub' hLe hDue
  refine ⟨fun t since hAt => ?_, fun hOpened => ?_, fun hHalfOpen => ?_,
    fun t since hAt hSuccess hEarly => ?_⟩
  · obtain ⟨earlier, hEarlier, -⟩ := hFrom t since hAt
    rw [hAfter]
    exact Nat.le_trans (h.past t earlier hEarlier) hClock
  · obtain ⟨hBefore, hSame⟩ := hStamped hOpened
    obtain ⟨t, since, hAt, hStamp⟩ := h.stamped hBefore
    exact ⟨t, since ++ [call], by simp [hLast, hAt], hSame.trans hStamp⟩
  · rw [hPolicy]
    exact hHalf hHalfOpen
  · obtain ⟨earlier, hEarlier, rfl⟩ := hFrom t since hAt
    rw [hPolicy] at hEarly
    have hOpened := h.shut t earlier hEarlier (fun hMem => hSuccess (List.mem_append_left _ hMem))
      fun hDue => hEarly hDue.mono
    by_contra hLeft
    rcases hShut hOpened hLeft with rfl | hHalfOpen
    · exact hSuccess (by simp)
    · obtain ⟨t', since', hAt', hDue⟩ := hHalf hHalfOpen
      rw [hAt] at hAt'
      cases hAt'
      exact hEarly hDue

theorem Opening.step (h : Opening s) (hStep : CircuitStep s call s') : Opening s' := by
  obtain ⟨hClock, hCalled⟩ := hStep.eq
  have hAfterwards : s'.clock = call.reading?.getD s.clock := hCalled ▸ rfl
  have hBreaker : s'.breaker = s.breaker.call call := hCalled ▸ rfl
  have hPolicy : s'.breaker.policy = s.breaker.policy := by
    rw [hBreaker, CircuitBreaker.call_policy]
  have hHistory : s'.history = s.history ++ [⟨call, s.breaker.state, s'.breaker.state⟩] := by
    rw [← hCalled]
    rfl
  have hLast := (congrArg lastOpening hHistory).trans lastOpening_concat
  have hEffect : CircuitEffect s.breaker call s'.breaker := hBreaker ▸ s.breaker.call_effect call
  clear hBreaker hCalled
  obtain ⟨b', hNext⟩ : ∃ b', s'.breaker = b' := ⟨_, rfl⟩
  rw [hNext] at hEffect hLast
  cases hEffect with
  | opens now _ hBefore hAfter hStamp =>
      have hNow : now ≤ s'.clock := Nat.le_of_eq hAfterwards.symm
      refine Opening.opens hNow (hLast.trans ?_) (hNext ▸ hAfter) (hNext ▸ hStamp)
      simp [CircuitRecord.opening?, hBefore, hAfter]
  | counts now _ hBefore hAfter =>
      refine h.goes hClock hAfterwards (hLast.trans ?_) hPolicy ?_ ?_ ?_
      · simp [CircuitRecord.opening?, hAfter]
      · simp [hNext, hAfter]
      · simp [hNext, hAfter]
      · simp [hBefore]
  | closes =>
      refine h.goes hClock hAfterwards hLast hPolicy ?_ ?_ ?_
      · simp [hNext]
      · simp [hNext]
      · exact fun _ _ => Or.inl rfl
  | tries now t hBefore hStamp hDue =>
      refine h.goes hClock hAfterwards hLast hPolicy ?_ ?_ ?_
      · simp [hNext]
      · exact fun _ => Or.inr ⟨hBefore, t, now, hStamp, rfl, hDue⟩
      · exact fun _ _ => Or.inr (by simp [hNext])
  | idles _ hSuccess hFailure =>
      refine h.goes hClock hAfterwards (hLast.trans ?_) hPolicy ?_ ?_ ?_
      · cases call with
        | recordFailure now => simp [CircuitRecord.opening?, hFailure now rfl]
        | _ => rfl
      · exact fun hOpened => ⟨hNext ▸ hOpened, congrArg CircuitBreaker.openedAt hNext⟩
      · exact fun hHalf => Or.inl (hNext ▸ hHalf)
      · exact fun hOpened hLeft => absurd (hNext ▸ hOpened) hLeft

theorem opening_of_reachable {policy : CircuitPolicy} {clock : Instant}
    (reach : Reachable CircuitStep (.new policy clock) s) : Opening s :=
  reach.invariant Opening (opening_new policy clock) fun _ _ _ h hStep => h.step hStep

end Opening

section Trips

variable {s s' : CircuitRun} {call : CircuitCall}

/-- The failures since the last success that were recorded in `Closed`, latest first. -/
def closedFailures (history : List CircuitRecord) : List Instant :=
  ((failuresSince history).filter fun f => f.2 = .closed).map Prod.fst

/-- No window holds enough failures to have opened a breaker that is `Closed`. -/
def Untripped (s : CircuitRun) : Prop :=
  s.breaker.state = .closed → ∀ t, countIn s.breaker.policy.failureWindow.nanos t
    (failureTimes s.history) < max 1 s.breaker.policy.failureThreshold.toNat

/-- A failure recorded in `Closed` that leaves the breaker `Closed`. -/
theorem Untripped.fails {now : Instant} (hTally : Tally (s.called (.recordFailure now)))
    (h : Untripped s) (hBefore : s.breaker.state = .closed) :
    Untripped (s.called (.recordFailure now)) := by
  intro hClosed t
  have hTimes : failureTimes (s.called (.recordFailure now)).history =
      now :: failureTimes s.history := congrArg (List.map Prod.fst) failuresSince_concat
  have hPolicy : (s.called (.recordFailure now)).breaker.policy = s.breaker.policy :=
    CircuitBreaker.recordFailure_policy
  have hStreak := hTally.counted hClosed
  have hBelow := hTally.below hClosed
  have hSorted := hTally.sorted
  rw [hTimes, hPolicy] at hStreak
  rw [hTimes] at hSorted
  rw [hPolicy] at hBelow ⊢
  rw [hTimes]
  have hEarlier := h hBefore t
  generalize s.breaker.policy.failureWindow.nanos = window at *
  by_cases hIn : t ≤ now + window ∧ now ≤ t
  · -- the windows that hold the latest failure hold no more than the one that ends with it
    have hPast : ∀ u ∈ now :: failureTimes s.history, u ≤ now := by
      intro u hMem
      rcases List.mem_cons.mp hMem with rfl | hMem
      · exact Nat.le_refl _
      · exact (List.pairwise_cons.mp hSorted).1 u hMem
    have hShift : countIn window t (now :: failureTimes s.history) ≤
        countIn window now (now :: failureTimes s.history) := countIn_mono hIn.2 hPast
    have hFew : countIn window now (now :: failureTimes s.history) ≤
        streak window (now :: failureTimes s.history) := countIn_le_streak hSorted
    omega
  · have hOut : countIn window t (now :: failureTimes s.history) =
        countIn window t (failureTimes s.history) := by
      rw [countIn, List.countP_cons_of_neg (by simpa using hIn)]
      rfl
    rw [hOut]
    exact hEarlier

theorem Untripped.step (hTally : Tally s') (h : Untripped s) (hStep : CircuitStep s call s') :
    Untripped s' := by
  obtain ⟨-, rfl⟩ := hStep.eq
  obtain ⟨b', hNext⟩ : ∃ b', (s.called call).breaker = b' := ⟨_, rfl⟩
  have hEffect : CircuitEffect s.breaker call b' := hNext ▸ s.breaker.call_effect call
  cases hEffect with
  | opens now _ hBefore hAfter hStamp =>
      intro hClosed
      rw [hNext, hAfter] at hClosed
      cases hClosed
  | counts now _ hBefore hAfter => exact h.fails hTally hBefore
  | closes =>
      intro _ t
      have hNone : failuresSince (s.called .recordSuccess).history = [] := failuresSince_concat
      rw [failureTimes, hNone]
      exact Nat.lt_of_lt_of_le Nat.zero_lt_one (Nat.le_max_left _ _)
  | tries now t hBefore hStamp hDue =>
      intro hClosed
      rw [hNext] at hClosed
      cases hClosed
  | idles _ hSuccess hFailure =>
      intro hClosed t
      rw [hNext] at hClosed ⊢
      have hSame : failuresSince (s.called call).history = failuresSince s.history := by
        cases call with
        | recordFailure now =>
            rw [hFailure now rfl] at hClosed
            cases hClosed
        | recordSuccess => exact absurd rfl hSuccess
        | _ => exact failuresSince_concat
      rw [failureTimes, hSame]
      exact h hClosed t

theorem untripped_of_reachable {policy : CircuitPolicy} {clock : Instant}
    (reach : Reachable CircuitStep (.new policy clock) s) : Untripped s := by
  refine (reach.invariant (fun s => Tally s ∧ Untripped s) ⟨tally_new policy clock, ?_⟩
    fun s call s' h hStep => ?_).2
  · exact fun _ _ => Nat.lt_of_lt_of_le Nat.zero_lt_one (Nat.le_max_left _ _)
  · have hTally := h.1.step hStep
    exact ⟨hTally, h.2.step hTally hStep⟩

/-- In `Closed` no failure since the last success was recorded elsewhere. -/
theorem Tally.closedFailures (h : Tally s) (hClosed : s.breaker.state = .closed) :
    closedFailures s.history = failureTimes s.history := by
  rw [ServiceKernel.closedFailures, failureTimes,
    List.filter_eq_self.mpr fun f hMem => decide_eq_true (h.inClosed hClosed f hMem)]

end Trips

section Cells

variable {policy : CircuitPolicy} {clock : Instant}

/-- What the cells of a breaker hold, told from its calls. -/
structure CellsAgree (s : CircuitRun) : Prop where
  /-- In `Closed` the count stays below the threshold, and below the end of its range. -/
  below : s.breaker.state = .closed →
    s.breaker.failures.toNat < max 1 s.breaker.policy.failureThreshold.toNat
  noOverflow : s.breaker.state = .closed → s.breaker.failures.toNat + 1 < 4294967296
  /-- In `Open` the stamp is the time at which the breaker last became `Open`. -/
  stamped : s.breaker.state = .opened →
    ∃ t since, lastOpening s.history = some (t, since) ∧ s.breaker.openedAt = some t
  /-- `HalfOpen` comes after a tick that was due. -/
  ticked : s.breaker.state = .halfOpen → ∃ t since, lastOpening s.history = some (t, since) ∧
    DueTick s.breaker.policy.openDuration.nanos t since
  /-- Until a tick is due nothing is allowed, unless a success is recorded. -/
  shut : ∀ t since, lastOpening s.history = some (t, since) → .recordSuccess ∉ since →
    ¬ DueTick s.breaker.policy.openDuration.nanos t since → s.breaker.allow = false
  /-- Enough failures in one window, recorded in `Closed`, have opened the breaker: it is
  still `Open`, or in a trial after a tick that was due. -/
  tripped : ∀ t, 1 ≤ s.breaker.policy.failureThreshold.toNat →
    s.breaker.policy.failureThreshold.toNat ≤
      countIn s.breaker.policy.failureWindow.nanos t (closedFailures s.history) →
    s.breaker.state = .opened ∨ s.breaker.state = .halfOpen ∧ ∃ opened since,
      lastOpening s.history = some (opened, since) ∧
        DueTick s.breaker.policy.openDuration.nanos opened since
  /-- The last of these failures opens it. -/
  trips : ∀ now, s.breaker.state = .closed → s.clock ≤ now →
    s.breaker.policy.failureThreshold.toNat ≤
      countIn s.breaker.policy.failureWindow.nanos now (now :: closedFailures s.history) →
    (s.called (.recordFailure now)).breaker.state = .opened

/-- The cells agree with the calls after any calls on a new breaker, on a clock that does
not go back. -/
theorem cells_agree (policy : CircuitPolicy) (clock : Instant) (s : CircuitRun)
    (reach : Reachable CircuitStep (.new policy clock) s) : CellsAgree s := by
  have hTally := tally_of_reachable reach
  have hOpening := opening_of_reachable reach
  have hUntripped := untripped_of_reachable reach
  refine ⟨hTally.below, hTally.room, hOpening.stamped, hOpening.ticked,
    fun t since hAt hSuccess hEarly => ?_, fun t hThreshold hMany => ?_,
    fun now hClosed hClock hMany => ?_⟩
  · simp [CircuitBreaker.allow, hOpening.shut t since hAt hSuccess hEarly]
  · cases hState : s.breaker.state with
    | opened => exact Or.inl rfl
    | halfOpen => exact Or.inr ⟨rfl, hOpening.ticked hState⟩
    | closed =>
        rw [hTally.closedFailures hState] at hMany
        have hFew := hUntripped hState t
        omega
  · rw [hTally.closedFailures hClosed] at hMany
    have hSorted : (now :: failureTimes s.history).Pairwise fun later earlier =>
        earlier ≤ later :=
      List.pairwise_cons.mpr ⟨fun u hMem => Nat.le_trans (hTally.recent u hMem) hClock,
        hTally.sorted⟩
    exact (hTally.opens_iff hClosed now).mpr (Nat.le_trans hMany (countIn_le_streak hSorted))

/-- A breaker that opened, waited and was ticked. -/
theorem cells_agree_trial : ∃ s, Reachable CircuitStep (.new .tenApart 0) s ∧
    s.breaker.state = .halfOpen ∧ CellsAgree s := by
  obtain ⟨s, hRun, hHalf⟩ : ∃ s, replay CircuitRun.exec (.new .tenApart 0)
      [.recordFailure 0, .recordFailure 3, .recordFailure 5, .tick 10, .allow, .tick 15] =
        some s ∧ s.breaker.state = .halfOpen := ⟨_, rfl, by decide⟩
  have reach := (runs_of_replay hRun).reachable
  exact ⟨s, reach, hHalf, cells_agree _ _ s reach⟩

end Cells

end ServiceKernel
