import Mathlib.Tactic.SplitIfs
import ServiceKernel.Primitives.Time

/-! The three policies that decide what follows a worker's outcome: whether it
restarts, how long the supervisor waits first, and when repeated failures open
the circuit. -/
namespace ServiceKernel

inductive RestartPolicy where
  | never
  | onFailure
  | always
  | maxRetries (retries : UInt32) (window : Duration)
  deriving DecidableEq

/-- Whether the supervisor should attempt another spawn. `window` is carried by
the policy and not consulted here. -/
def RestartPolicy.shouldRestart (policy : RestartPolicy) (hasFailed : Bool)
    (failuresInWindow : UInt32) : Bool :=
  match policy with
  | .never => false
  | .onFailure => hasFailed
  | .always => true
  | .maxRetries retries _ => hasFailed && decide (failuresInWindow < retries)

inductive BackoffPolicy where
  | none
  | fixed (delay : Duration)
  | exponential (base max : Duration)
  deriving DecidableEq

def BackoffPolicy.default : BackoffPolicy := .exponential (.fromMillis 100) (.fromSecs 30)

/-- `u128::saturating_mul`. -/
def saturatingMulU128 (a b : Nat) : Nat := min (a * b) 340282366920938463463374607431768211455

/-- The delay before attempt number `attempt`, counted from zero. -/
def BackoffPolicy.delay (policy : BackoffPolicy) (attempt : UInt32) : Duration :=
  match policy with
  | .none => .zero
  | .fixed d => d
  | .exponential base max =>
    if base.nanos = 0 ∨ max.nanos = 0 then .zero
    else
      let shift := min attempt.toNat 63
      let scaled := saturatingMulU128 base.nanos (1 <<< shift)
      let chosen := min scaled max.nanos
      .new (.ofNat (chosen / 1000000000)) (Fin.ofNat 1000000000 (chosen % 1000000000))

inductive CircuitState where
  | closed
  | opened
  | halfOpen
  deriving DecidableEq, Repr

structure CircuitPolicy where
  failureThreshold : UInt32
  failureWindow : Duration
  openDuration : Duration
  deriving DecidableEq

/-- Per-worker circuit breaker; `opened` is the source's `Open`. -/
structure CircuitBreaker where
  state : CircuitState
  failures : UInt32
  lastFailureAt : Option Instant
  openedAt : Option Instant
  policy : CircuitPolicy
  deriving DecidableEq

namespace CircuitBreaker

def new (policy : CircuitPolicy) : CircuitBreaker := ⟨.closed, 0, none, none, policy⟩

/-- The failure count after one more failure at `now`: it starts over when the
last failure is out of the window. `fetch_add` wraps. -/
def countFailure (b : CircuitBreaker) (now : Instant) : UInt32 :=
  let inWindow := match b.lastFailureAt with
    | some t => decide (now.durationSince t ≤ b.policy.failureWindow.nanos)
    | none => false
  (if inWindow then b.failures else 0) + 1

def recordFailure (b : CircuitBreaker) (now : Instant) : CircuitBreaker :=
  match b.state with
  | .halfOpen => { b with state := .opened, openedAt := some now }
  | .opened => b
  | .closed =>
    let count := b.countFailure now
    if b.policy.failureThreshold ≤ count then
      { b with state := .opened, failures := count, lastFailureAt := some now,
               openedAt := some now }
    else { b with failures := count, lastFailureAt := some now }

def recordSuccess (b : CircuitBreaker) : CircuitBreaker :=
  { b with state := .closed, failures := 0, lastFailureAt := none, openedAt := none }

/-- The update an outcome makes. -/
def record (b : CircuitBreaker) (hasFailed : Bool) (now : Instant) : CircuitBreaker :=
  if hasFailed then b.recordFailure now else b.recordSuccess

/-- `Open → HalfOpen` once the open duration has elapsed. -/
def tick (b : CircuitBreaker) (now : Instant) : CircuitBreaker :=
  if b.state ≠ .opened then b
  else match b.openedAt with
    | some t =>
      if now.durationSince t ≥ b.policy.openDuration.nanos then { b with state := .halfOpen }
      else b
    | none => b

/-- Whether work should be attempted. -/
def allow (b : CircuitBreaker) : Bool := b.state ≠ .opened

variable {b : CircuitBreaker} {now : Instant}

@[simp] theorem recordFailure_policy : (b.recordFailure now).policy = b.policy := by
  cases h : b.state with
  | halfOpen => simp only [recordFailure, h]
  | opened => simp only [recordFailure, h]
  | closed =>
      simp only [recordFailure, h]
      split_ifs <;> rfl

@[simp] theorem recordSuccess_state : b.recordSuccess.state = .closed := rfl

@[simp] theorem recordSuccess_policy : b.recordSuccess.policy = b.policy := rfl

@[simp] theorem tick_policy : (b.tick now).policy = b.policy := by
  unfold tick
  split_ifs
  · rfl
  · split
    · split_ifs <;> rfl
    · rfl

/-- A failed trial reopens the breaker at the time of the failure. -/
theorem recordFailure_of_halfOpen (now : Instant) (h : b.state = .halfOpen) :
    b.recordFailure now = { b with state := .opened, openedAt := some now } := by
  simp [recordFailure, h]

/-- A failure in `Closed` counts, and trips the breaker at the threshold. -/
theorem recordFailure_of_closed (now : Instant) (h : b.state = .closed) :
    b.recordFailure now = { b with
      state := if b.policy.failureThreshold ≤ b.countFailure now then .opened else .closed
      failures := b.countFailure now
      lastFailureAt := some now
      openedAt := if b.policy.failureThreshold ≤ b.countFailure now then some now else b.openedAt } := by
  simp only [recordFailure, h]
  split_ifs <;> rfl

theorem recordFailure_of_opened (h : b.state = .opened) : b.recordFailure now = b := by
  simp [recordFailure, h]

/-- A failure never leaves the breaker half-open. -/
theorem recordFailure_ne_halfOpen : (b.recordFailure now).state ≠ .halfOpen := by
  cases h : b.state with
  | halfOpen => simp [recordFailure, h]
  | opened => simp [recordFailure, h]
  | closed =>
      simp only [recordFailure, h]
      split_ifs <;> simp

/-- No outcome leaves the breaker half-open. -/
theorem record_ne_halfOpen {hasFailed : Bool} : (b.record hasFailed now).state ≠ .halfOpen := by
  cases hasFailed with
  | false => exact fun h => by cases h
  | true => exact recordFailure_ne_halfOpen

/-- Whenever a failure opens the breaker it stamps the time. -/
theorem recordFailure_openedAt (h : b.state ≠ .opened) (hOpen : (b.recordFailure now).state = .opened) :
    (b.recordFailure now).openedAt = some now := by
  cases hState : b.state with
  | halfOpen => simp [recordFailure, hState]
  | opened => exact absurd hState h
  | closed =>
      simp only [recordFailure, hState] at hOpen ⊢
      split_ifs at hOpen ⊢ with hCount
      rfl

theorem tick_of_ne_opened (h : b.state ≠ .opened) : b.tick now = b := by
  simp [tick, h]

/-- What a tick does to an open breaker. -/
theorem tick_cases (now : Instant) (h : b.state = .opened) :
    b.tick now = b ∨ ∃ t, b.openedAt = some t ∧ b.policy.openDuration.nanos ≤ now - t ∧
      b.tick now = { b with state := .halfOpen } := by
  simp only [tick, h, ne_eq, not_true_eq_false, if_false]
  cases hAt : b.openedAt with
  | none => exact Or.inl rfl
  | some t =>
      by_cases hDue : now.durationSince t ≥ b.policy.openDuration.nanos
      · exact Or.inr ⟨t, rfl, hDue, by simp [hDue]⟩
      · exact Or.inl (by simp [hDue])

/-- A tick that does not half-open the breaker leaves it alone. -/
theorem tick_of_ne_halfOpen (h : (b.tick now).state ≠ .halfOpen) : b.tick now = b := by
  by_cases hOpen : b.state = .opened
  · rcases tick_cases now hOpen with hSame | ⟨_, -, -, hHalf⟩
    · exact hSame
    · rw [hHalf] at h
      exact absurd rfl h
  · exact tick_of_ne_opened hOpen

end CircuitBreaker

end ServiceKernel
