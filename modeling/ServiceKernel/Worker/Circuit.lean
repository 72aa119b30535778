import Mathlib.Data.List.Induction
import ServiceKernel.Semantics.Execution
import ServiceKernel.Worker.Policy

/-! A circuit breaker driven by one call after another, on a clock that does not go
back. What its cells hold is told from the calls that were made. -/
namespace ServiceKernel

open Execution

inductive CircuitCall where
  | recordFailure (now : Instant)
  | recordSuccess
  | tick (now : Instant)
  | allow
  deriving DecidableEq

/-- The clock reading that a call takes, if it takes one. -/
def CircuitCall.reading? : CircuitCall → Option Instant
  | recordFailure now => some now
  | tick now => some now
  | _ => none

def CircuitBreaker.call (b : CircuitBreaker) : CircuitCall → CircuitBreaker
  | .recordFailure now => b.recordFailure now
  | .recordSuccess => b.recordSuccess
  | .tick now => b.tick now
  | .allow => b

/-- A call together with the states it found and left. -/
structure CircuitRecord where
  call : CircuitCall
  before : CircuitState
  after : CircuitState
  deriving DecidableEq

structure CircuitRun where
  breaker : CircuitBreaker
  clock : Instant
  history : List CircuitRecord
  deriving DecidableEq

namespace CircuitRun

def new (policy : CircuitPolicy) (clock : Instant) : CircuitRun := ⟨.new policy, clock, []⟩

def called (s : CircuitRun) (call : CircuitCall) : CircuitRun where
  breaker := s.breaker.call call
  clock := call.reading?.getD s.clock
  history := s.history ++ [⟨call, s.breaker.state, (s.breaker.call call).state⟩]

def exec (s : CircuitRun) (call : CircuitCall) : Option CircuitRun :=
  if s.clock ≤ call.reading?.getD s.clock then some (s.called call) else none

end CircuitRun

abbrev CircuitStep (s : CircuitRun) (call : CircuitCall) (s' : CircuitRun) : Prop :=
  s.exec call = some s'

section History

/-- The failures since the last success, latest first, each with the state in which it
was recorded. -/
def failuresSince (history : List CircuitRecord) : List (Instant × CircuitState) :=
  history.foldl (fun failures r => match r.call with
    | .recordFailure now => (now, r.before) :: failures
    | .recordSuccess => []
    | _ => failures) []

def failureTimes (history : List CircuitRecord) : List Instant :=
  (failuresSince history).map Prod.fst

/-- The instant at which a call opened the breaker. -/
def CircuitRecord.opening? (r : CircuitRecord) : Option Instant :=
  match r.call with
  | .recordFailure now => if r.before ≠ .opened ∧ r.after = .opened then some now else none
  | _ => none

/-- When the breaker last became `Open`, and the calls since. -/
def lastOpening (history : List CircuitRecord) : Option (Instant × List CircuitCall) :=
  history.foldl (fun last r => match r.opening? with
    | some t => some (t, [])
    | none => last.map fun (t, since) => (t, since ++ [r.call])) none

variable {history : List CircuitRecord} {r : CircuitRecord}

@[simp] theorem failuresSince_concat : failuresSince (history ++ [r]) = match r.call with
    | .recordFailure now => (now, r.before) :: failuresSince history
    | .recordSuccess => []
    | _ => failuresSince history := by
  simp [failuresSince]

@[simp] theorem lastOpening_concat : lastOpening (history ++ [r]) = match r.opening? with
    | some t => some (t, [])
    | none => (lastOpening history).map fun (t, since) => (t, since ++ [r.call]) := by
  simp [lastOpening]

end History

section Windows

/-- How many of the latest failures, latest first, followed each other within the window. -/
def streak (window : Nat) : List Nat → Nat
  | [] => 0
  | [_] => 1
  | later :: earlier :: rest =>
    if later - earlier ≤ window then streak window (earlier :: rest) + 1 else 1

/-- How many failures fall into the window that ends at `t`. -/
def countIn (window : Nat) (t : Nat) (failures : List Nat) : Nat :=
  failures.countP fun u => t ≤ u + window ∧ u ≤ t

variable {window : Nat} {t u : Nat} {failures : List Nat}

theorem countIn_eq_zero (h : ∀ u ∈ failures, u + window < t) : countIn window t failures = 0 := by
  rw [countIn, List.countP_eq_zero]
  intro u hMem hIn
  have hLt := h u hMem
  have hLe := (of_decide_eq_true hIn).1
  omega

theorem countIn_cons_self : countIn window t (t :: failures) = countIn window t failures + 1 := by
  simp [countIn]

/-- An earlier window of the same length keeps the failures that are not past its end. -/
theorem countIn_mono (hLe : u ≤ t) (hPast : ∀ v ∈ failures, v ≤ u) :
    countIn window t failures ≤ countIn window u failures := by
  apply List.countP_mono_left
  intro v hMem hIn
  have hStart := (of_decide_eq_true hIn).1
  exact decide_eq_true ⟨Nat.le_trans hLe hStart, hPast v hMem⟩

/-- The failures in a window that ends at the latest one are part of its streak. -/
theorem countIn_le_streak (hSorted : (t :: failures).Pairwise fun later earlier => earlier ≤ later) :
    countIn window t (t :: failures) ≤ streak window (t :: failures) := by
  induction failures generalizing t with
  | nil => simp [countIn, streak]
  | cons u rest ih =>
      obtain ⟨hFirst, hRest⟩ := List.pairwise_cons.mp hSorted
      have hLe : u ≤ t := hFirst u (by simp)
      have hPast : ∀ v ∈ u :: rest, v ≤ u := by
        intro v hMem
        rcases List.mem_cons.mp hMem with rfl | hMem
        · exact Nat.le_refl _
        · exact (List.pairwise_cons.mp hRest).1 v hMem
      rw [countIn_cons_self, streak]
      split_ifs with hGap
      · exact Nat.succ_le_succ (Nat.le_trans (countIn_mono hLe hPast) (ih hRest))
      · have hOld : ∀ v ∈ u :: rest, v + window < t := by
          intro v hMem
          have hV := hPast v hMem
          omega
        exact Nat.le_of_eq (congrArg (· + 1) (countIn_eq_zero hOld))

end Windows

section Runs

variable {s s' : CircuitRun} {call : CircuitCall}

theorem CircuitStep.eq (h : CircuitStep s call s') :
    s.clock ≤ call.reading?.getD s.clock ∧ s.called call = s' := by
  simpa [CircuitStep, CircuitRun.exec] using h

@[simp] theorem CircuitBreaker.call_policy (b : CircuitBreaker) (call : CircuitCall) :
    (b.call call).policy = b.policy := by
  cases call <;> simp [CircuitBreaker.call]

theorem policy_of_reachable {policy : CircuitPolicy} {clock : Instant}
    (reach : Reachable CircuitStep (.new policy clock) s) : s.breaker.policy = policy := by
  apply reach.invariant (fun s => s.breaker.policy = policy) rfl
  intro s call s' h hStep
  obtain ⟨-, rfl⟩ := hStep.eq
  exact (CircuitBreaker.call_policy _ _).trans h

end Runs

section Counts

variable {b : CircuitBreaker} {failures : List Instant} {now : Instant}

theorem streak_cons_pos (window t : Nat) (failures : List Nat) : 0 < streak window (t :: failures) := by
  cases failures with
  | nil => exact Nat.zero_lt_one
  | cons u rest =>
      rw [streak]
      split_ifs <;> omega

theorem streak_cons_le (window t : Nat) (failures : List Nat) :
    streak window (t :: failures) ≤ streak window failures + 1 := by
  cases failures with
  | nil => exact Nat.le_refl _
  | cons u rest =>
      rw [streak]
      split_ifs <;> omega

/-- The count and the last failure are those of the streak that these failures begin with,
latest first, and it is too short to open the breaker. -/
structure CircuitBreaker.Counts (b : CircuitBreaker) (failures : List Instant) : Prop where
  last : b.lastFailureAt = failures.head?
  counted : b.failures.toNat = streak b.policy.failureWindow.nanos failures
  below : b.failures.toNat < max 1 b.policy.failureThreshold.toNat

namespace CircuitBreaker

theorem Counts.room (h : b.Counts failures) : b.failures.toNat + 1 < 4294967296 := by
  have hBelow := h.below
  have hMax := b.policy.failureThreshold.toNat_lt
  omega

theorem Counts.countFailure_eq (h : b.Counts failures) (now : Instant) :
    (b.countFailure now).toNat = streak b.policy.failureWindow.nanos (now :: failures) := by
  have hRoom := h.room
  obtain ⟨hLast, hCount, -⟩ := h
  cases failures with
  | nil => simp [countFailure, hLast, streak]
  | cons u rest =>
      by_cases hGap : now - u ≤ b.policy.failureWindow.nanos
      · have hSum : (b.failures + 1).toNat = b.failures.toNat + 1 := by
          rw [UInt32.toNat_add]
          exact Nat.mod_eq_of_lt hRoom
        simp [countFailure, hLast, streak, Instant.durationSince, hGap, hSum, hCount]
      · simp [countFailure, hLast, streak, Instant.durationSince, hGap]

/-- A failure in `Closed` opens the breaker when its streak reaches the threshold. -/
theorem Counts.opens_iff (h : b.Counts failures) (hClosed : b.state = .closed) (now : Instant) :
    (b.recordFailure now).state = .opened ↔
      b.policy.failureThreshold.toNat ≤ streak b.policy.failureWindow.nanos (now :: failures) := by
  rw [← h.countFailure_eq, recordFailure_of_closed now hClosed, ← UInt32.le_iff_toNat_le]
  split_ifs with hTrips
  · simp [hTrips]
  · simp [hTrips]

/-- A failure that leaves the breaker closed found it closed. -/
theorem closed_of_recordFailure (hAfter : (b.recordFailure now).state = .closed) :
    b.state = .closed := by
  cases hState : b.state with
  | closed => rfl
  | opened =>
      rw [recordFailure_of_opened hState, hState] at hAfter
      cases hAfter
  | halfOpen =>
      rw [recordFailure_of_halfOpen now hState] at hAfter
      cases hAfter

theorem counts_recordFailure (h : b.Counts failures) (hClosed : b.state = .closed)
    (hAfter : (b.recordFailure now).state = .closed) :
    (b.recordFailure now).Counts (now :: failures) := by
  have hFresh := recordFailure_of_closed now hClosed
  have hCount : (b.recordFailure now).failures = b.countFailure now :=
    congrArg CircuitBreaker.failures hFresh
  have hFew : ¬ b.policy.failureThreshold.toNat ≤
      streak b.policy.failureWindow.nanos (now :: failures) := by
    rw [← h.opens_iff hClosed, hAfter]
    decide
  have hStreak := h.countFailure_eq now
  refine ⟨congrArg CircuitBreaker.lastFailureAt hFresh, ?_, ?_⟩
  · rw [hCount, recordFailure_policy]
    exact hStreak
  · rw [hCount, recordFailure_policy]
    omega

theorem counts_recordSuccess (b : CircuitBreaker) : b.recordSuccess.Counts [] where
  last := rfl
  counted := rfl
  below := Nat.lt_of_lt_of_le Nat.zero_lt_one (Nat.le_max_left _ _)

theorem counts_new (policy : CircuitPolicy) : (new policy).Counts [] where
  last := rfl
  counted := rfl
  below := Nat.lt_of_lt_of_le Nat.zero_lt_one (Nat.le_max_left _ _)

/-- An outcome that leaves the breaker closed is counted. -/
theorem counts_record {hasFailed : Bool} (h : b.state = .closed → b.Counts failures)
    (hAfter : (b.record hasFailed now).state = .closed) :
    (b.record hasFailed now).Counts (if hasFailed then now :: failures else []) := by
  cases hasFailed with
  | false => exact counts_recordSuccess b
  | true =>
      have hClosed := closed_of_recordFailure hAfter
      exact counts_recordFailure (h hClosed) hClosed hAfter

/-- The streak is one short of the threshold when a failure opens the breaker. -/
theorem Counts.tripped (h : b.Counts failures) (hClosed : b.state = .closed)
    (hOpened : (b.recordFailure now).state = .opened) :
    (b.recordFailure now).failures.toNat = max 1 b.policy.failureThreshold.toNat := by
  have hCount : (b.recordFailure now).failures = b.countFailure now :=
    congrArg CircuitBreaker.failures (recordFailure_of_closed now hClosed)
  have hReached := (h.opens_iff hClosed now).mp hOpened
  have hPos := streak_cons_pos b.policy.failureWindow.nanos now failures
  have hNext := streak_cons_le b.policy.failureWindow.nanos now failures
  have hCounted := h.counted
  have hBelow := h.below
  rw [hCount, h.countFailure_eq]
  omega

end CircuitBreaker

end Counts

section Tally

variable {s s' : CircuitRun} {call : CircuitCall}

/-- In `Closed` the count and the last failure are those of the streak of failures
since the last success, which is too short to open the breaker. -/
structure Tally (s : CircuitRun) : Prop where
  sorted : (failureTimes s.history).Pairwise fun later earlier => earlier ≤ later
  recent : ∀ t ∈ failureTimes s.history, t ≤ s.clock
  last : s.breaker.state = .closed → s.breaker.lastFailureAt = (failureTimes s.history).head?
  counted : s.breaker.state = .closed →
    s.breaker.failures.toNat =
      streak s.breaker.policy.failureWindow.nanos (failureTimes s.history)
  below : s.breaker.state = .closed →
    s.breaker.failures.toNat < max 1 s.breaker.policy.failureThreshold.toNat
  inClosed : s.breaker.state = .closed → ∀ f ∈ failuresSince s.history, f.2 = .closed

theorem Tally.counts (h : Tally s) (hClosed : s.breaker.state = .closed) :
    s.breaker.Counts (failureTimes s.history) :=
  ⟨h.last hClosed, h.counted hClosed, h.below hClosed⟩

theorem Tally.room (h : Tally s) (hClosed : s.breaker.state = .closed) :
    s.breaker.failures.toNat + 1 < 4294967296 :=
  (h.counts hClosed).room

theorem Tally.opens_iff (h : Tally s) (hClosed : s.breaker.state = .closed) (now : Instant) :
    (s.breaker.recordFailure now).state = .opened ↔ s.breaker.policy.failureThreshold.toNat ≤
      streak s.breaker.policy.failureWindow.nanos (now :: failureTimes s.history) :=
  (h.counts hClosed).opens_iff hClosed now

theorem tally_new (policy : CircuitPolicy) (clock : Instant) : Tally (.new policy clock) where
  sorted := .nil
  recent t hMem := by cases hMem
  last _ := rfl
  counted _ := rfl
  below _ := Nat.lt_of_lt_of_le Nat.zero_lt_one (Nat.le_max_left _ _)
  inClosed _ f hMem := by cases hMem

/-- A call that records no failure and leaves `Closed` alone keeps the tally. -/
theorem Tally.aside (h : Tally s) (hClock : s.clock ≤ s'.clock)
    (hHistory : failuresSince s'.history = failuresSince s.history)
    (hBreaker : s'.breaker.state = .closed → s'.breaker = s.breaker) : Tally s' := by
  have hTimes : failureTimes s'.history = failureTimes s.history :=
    congrArg (List.map Prod.fst) hHistory
  refine ⟨?_, fun t hMem => ?_, fun hClosed => ?_, fun hClosed => ?_, fun hClosed => ?_,
    fun hClosed => ?_⟩
  · rw [hTimes]
    exact h.sorted
  · rw [hTimes] at hMem
    exact Nat.le_trans (h.recent t hMem) hClock
  · rw [hTimes, hBreaker hClosed]
    exact h.last (hBreaker hClosed ▸ hClosed)
  · rw [hTimes, hBreaker hClosed]
    exact h.counted (hBreaker hClosed ▸ hClosed)
  · rw [hBreaker hClosed]
    exact h.below (hBreaker hClosed ▸ hClosed)
  · rw [hHistory]
    exact h.inClosed (hBreaker hClosed ▸ hClosed)

theorem Tally.fails (h : Tally s) {now : Instant} (hClock : s.clock ≤ now) :
    Tally (s.called (.recordFailure now)) := by
  have hNew : failuresSince (s.called (.recordFailure now)).history =
      (now, s.breaker.state) :: failuresSince s.history := failuresSince_concat
  have hTimes : failureTimes (s.called (.recordFailure now)).history =
      now :: failureTimes s.history := congrArg (List.map Prod.fst) hNew
  have hPast : ∀ t ∈ failureTimes s.history, t ≤ now := fun t hMem =>
    Nat.le_trans (h.recent t hMem) hClock
  have hCounts : (s.breaker.recordFailure now).state = .closed →
      (s.breaker.recordFailure now).Counts (now :: failureTimes s.history) := fun hAfter =>
    CircuitBreaker.counts_recordFailure (h.counts (CircuitBreaker.closed_of_recordFailure hAfter))
      (CircuitBreaker.closed_of_recordFailure hAfter) hAfter
  rw [← hTimes] at hCounts
  refine ⟨?_, fun t hMem => ?_, fun hAfter => (hCounts hAfter).last,
    fun hAfter => (hCounts hAfter).counted, fun hAfter => (hCounts hAfter).below,
    fun hAfter => ?_⟩
  · rw [hTimes]
    exact List.pairwise_cons.mpr ⟨hPast, h.sorted⟩
  · rw [hTimes] at hMem
    rcases List.mem_cons.mp hMem with rfl | hMem
    · exact Nat.le_refl _
    · exact hPast t hMem
  · have hClosed : s.breaker.state = .closed := CircuitBreaker.closed_of_recordFailure hAfter
    rw [hNew]
    intro f hMem
    rcases List.mem_cons.mp hMem with rfl | hMem
    · exact hClosed
    · exact h.inClosed hClosed f hMem

theorem Tally.step (h : Tally s) (hStep : CircuitStep s call s') : Tally s' := by
  obtain ⟨hClock, rfl⟩ := hStep.eq
  cases call with
  | recordFailure now => exact h.fails hClock
  | recordSuccess =>
      have hNone : failuresSince (s.called .recordSuccess).history = [] := failuresSince_concat
      have hTimes : failureTimes (s.called .recordSuccess).history = [] :=
        congrArg (List.map Prod.fst) hNone
      refine ⟨?_, fun t hMem => ?_, fun _ => ?_, fun _ => ?_, fun _ => ?_, fun _ => ?_⟩
      · rw [hTimes]
        exact .nil
      · rw [hTimes] at hMem
        cases hMem
      · rw [hTimes]
        rfl
      · rw [hTimes]
        rfl
      · exact Nat.lt_of_lt_of_le Nat.zero_lt_one (Nat.le_max_left _ _)
      · rw [hNone]
        intro f hMem
        cases hMem
  | tick now =>
      apply h.aside hClock failuresSince_concat
      intro hClosed
      by_cases hOpen : s.breaker.state = .opened
      · rcases CircuitBreaker.tick_cases now hOpen with hTick | ⟨t, -, -, hTick⟩
        · exact hTick
        · rw [show (s.called (.tick now)).breaker = s.breaker.tick now from rfl, hTick] at hClosed
          cases hClosed
      · exact CircuitBreaker.tick_of_ne_opened hOpen
  | allow => exact h.aside hClock failuresSince_concat fun _ => rfl

theorem tally_of_reachable {policy : CircuitPolicy} {clock : Instant}
    (reach : Reachable CircuitStep (.new policy clock) s) : Tally s :=
  reach.invariant Tally (tally_new policy clock) fun _ _ _ h hStep => h.step hStep

end Tally

end ServiceKernel
