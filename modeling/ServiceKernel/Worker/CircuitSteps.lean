import ServiceKernel.Lifecycle.Controller
import ServiceKernel.Semantics.Chronicle
import ServiceKernel.Worker.Policy

/-! The circuit breaker as its threads run it: each load, store, increment and locked
section of a call is one step, and other threads may run between any two of them. -/
namespace ServiceKernel

open Interleaving

inductive CircuitOp where
  | now
  | loadState
  | touchFailure (now : Instant)
  | resetFailures
  | addFailure
  | storeState (state : CircuitState)
  | stampOpened (now : Instant)
  | clearOpened
  | clearFailure
  | readOpened
  deriving DecidableEq

abbrev CircuitSig : Signature where
  Op := CircuitOp
  Ans
    | .now => Instant
    | .loadState => CircuitState
    | .touchFailure _ => Bool
    | .addFailure => UInt32
    | .readOpened => Option Instant
    | _ => Unit

abbrev CircuitOp.call (o : CircuitOp) : Program CircuitSig (CircuitSig.Ans o) :=
  Program.call (S := CircuitSig) o

/-- Whether the last failure is within the window that ends at `now`. -/
def CircuitBreaker.inWindow (b : CircuitBreaker) (now : Instant) : Bool :=
  match b.lastFailureAt with
  | some t => decide (now.durationSince t ≤ b.policy.failureWindow.nanos)
  | none => false

/-- `addFailure` answers the count before it, and wraps as `fetch_add` does. -/
def circuitMachine (Thread : Type) :
    Machine CircuitSig Thread (Clocked CircuitBreaker) (Deed CircuitSig) where
  exec _ o a s := match o, a with
    | .now, now => s.reads now
    | .loadState, a => if a = s.state.state then some s else none
    | .touchFailure now, a =>
      if a = s.state.inWindow now then
        some { s with state := { s.state with lastFailureAt := some now } }
      else none
    | .resetFailures, _ => some { s with state := { s.state with failures := 0 } }
    | .addFailure, a =>
      if a = s.state.failures then
        some { s with state := { s.state with failures := s.state.failures + 1 } }
      else none
    | .storeState state, _ => some { s with state := { s.state with state } }
    | .stampOpened now, _ => some { s with state := { s.state with openedAt := some now } }
    | .clearOpened, _ => some { s with state := { s.state with openedAt := none } }
    | .clearFailure, _ => some { s with state := { s.state with lastFailureAt := none } }
    | .readOpened, a => if a = s.state.openedAt then some s else none
  event o a := ⟨o, a⟩

section Exec

/-- What an operation makes of the cells. -/
def CircuitOp.applied (o : CircuitOp) (b : CircuitBreaker) : CircuitBreaker :=
  match o with
  | touchFailure time => { b with lastFailureAt := some time }
  | resetFailures => { b with failures := 0 }
  | addFailure => { b with failures := b.failures + 1 }
  | storeState state => { b with state }
  | stampOpened time => { b with openedAt := some time }
  | clearOpened => { b with openedAt := none }
  | clearFailure => { b with lastFailureAt := none }
  | _ => b

variable {Thread : Type} {t : Thread} {o : CircuitOp} {a : CircuitSig.Ans o}
  {s s' : Clocked CircuitBreaker}

theorem CircuitOp.applied_policy (b : CircuitBreaker) : (o.applied b).policy = b.policy := by
  cases o <;> rfl

theorem CircuitOp.applied_failures (b : CircuitBreaker) (hReset : o ≠ .resetFailures)
    (hAdd : o ≠ .addFailure) : (o.applied b).failures = b.failures := by
  cases o with
  | resetFailures => exact absurd rfl hReset
  | addFailure => exact absurd rfl hAdd
  | _ => rfl

theorem CircuitOp.applied_state (b : CircuitBreaker) (hStore : ∀ state, o ≠ .storeState state) :
    (o.applied b).state = b.state := by
  cases o with
  | storeState state => exact absurd rfl (hStore state)
  | _ => rfl

theorem CircuitOp.applied_lastFailureAt (b : CircuitBreaker)
    (hTouch : ∀ time, o ≠ .touchFailure time) (hClear : o ≠ .clearFailure) :
    (o.applied b).lastFailureAt = b.lastFailureAt := by
  cases o with
  | touchFailure time => exact absurd rfl (hTouch time)
  | clearFailure => exact absurd rfl hClear
  | _ => rfl

theorem circuit_applies (h : (circuitMachine Thread).exec t o a s = some s') :
    s'.state = o.applied s.state := by
  cases o <;> simp only [circuitMachine, Clocked.reads, Option.ite_none_right_eq_some,
    Option.some.injEq] at h <;> grind [CircuitOp.applied]

theorem circuit_loaded {a : CircuitState}
    (h : (circuitMachine Thread).exec t .loadState a s = some s') : a = s.state.state := by
  simp only [circuitMachine, Option.ite_none_right_eq_some] at h
  exact h.1

theorem circuit_touched {now : Instant} {a : Bool}
    (h : (circuitMachine Thread).exec t (.touchFailure now) a s = some s') :
    a = s.state.inWindow now := by
  simp only [circuitMachine, Option.ite_none_right_eq_some] at h
  exact h.1

theorem circuit_added {a : UInt32}
    (h : (circuitMachine Thread).exec t .addFailure a s = some s') : a = s.state.failures := by
  simp only [circuitMachine, Option.ite_none_right_eq_some] at h
  exact h.1

end Exec

namespace CircuitSteps

/-- `Open` is stored first and stamped in a locked section of its own. -/
def trip (now : Instant) : Program CircuitSig CircuitState := do
  (CircuitOp.storeState .opened).call
  (CircuitOp.stampOpened now).call
  return .opened

/-- The increment and the test of what it answered. -/
def count (policy : CircuitPolicy) (now : Instant) : Program CircuitSig CircuitState := do
  let failures ← CircuitOp.addFailure.call
  if policy.failureThreshold ≤ failures + 1 then trip now else return .closed

/-- `CircuitBreaker::record_failure`, returning the state after recording. -/
def recordFailure (policy : CircuitPolicy) : Program CircuitSig CircuitState := do
  let now ← CircuitOp.now.call
  match ← CircuitOp.loadState.call with
  | .halfOpen => trip now
  | .opened => return .opened
  | .closed =>
    if ← (CircuitOp.touchFailure now).call then
      count policy now
    else
      CircuitOp.resetFailures.call
      count policy now

/-- `CircuitBreaker::record_success`. -/
def recordSuccess : Program CircuitSig CircuitState := do
  CircuitOp.resetFailures.call
  (CircuitOp.storeState .closed).call
  CircuitOp.clearOpened.call
  CircuitOp.clearFailure.call
  return .closed

/-- `CircuitBreaker::tick`. -/
def tick (policy : CircuitPolicy) : Program CircuitSig CircuitState := do
  if (← CircuitOp.loadState.call) ≠ .opened then
    CircuitOp.loadState.call
  else
    let now ← CircuitOp.now.call
    match ← CircuitOp.readOpened.call with
    | some t =>
      if now.durationSince t ≥ policy.openDuration.nanos then
        (CircuitOp.storeState .halfOpen).call
        return .halfOpen
      else
        return .opened
    | none => return .opened

end CircuitSteps

inductive CircuitMethod where
  | recordFailure
  | recordSuccess
  | tick
  deriving DecidableEq

def CircuitMethod.body (policy : CircuitPolicy) :
    CircuitMethod → Program CircuitSig CircuitState
  | recordFailure => CircuitSteps.recordFailure policy
  | recordSuccess => CircuitSteps.recordSuccess
  | tick => CircuitSteps.tick policy

abbrev CircuitConfig (Thread : Type) :=
  Config CircuitSig Thread (Clocked CircuitBreaker) (Deed CircuitSig) CircuitMethod CircuitState

/-- No call in progress on a new breaker. -/
def CircuitConfig.new (Thread : Type) (policy : CircuitPolicy) (clock : Instant) :
    CircuitConfig Thread := .start ⟨⟨.new policy, clock⟩, []⟩

abbrev CircuitConfig.breaker {Thread : Type} (c : CircuitConfig Thread) : CircuitBreaker :=
  c.world.shared.state

section Solo

variable {Thread : Type} {t : Thread}
  {w w' : World Thread (Clocked CircuitBreaker) (Deed CircuitSig)} {r : CircuitState}

theorem solo_now_iff {α : Type} {next : Instant → Program CircuitSig α} {r : α} :
    Solo (circuitMachine Thread) t (.perform .now next) w r w' ↔
      ∃ now, w.shared.clock ≤ now ∧ Solo (circuitMachine Thread) t (next now)
        ((circuitMachine Thread).after w t .now now { w.shared with clock := now }) r w' := by
  rw [solo_perform_iff]
  constructor
  · rintro ⟨now, shared, hExec, rest⟩
    simp only [circuitMachine, Clocked.reads, Option.ite_none_right_eq_some,
      Option.some.injEq] at hExec
    obtain ⟨hClock, rfl⟩ := hExec
    exact ⟨now, hClock, rest⟩
  · rintro ⟨now, hClock, rest⟩
    exact ⟨now, _, if_pos hClock, rest⟩

theorem solo_trip {b : CircuitBreaker} {clock now : Instant}
    (h : Solo (circuitMachine Thread) t (CircuitSteps.trip now) w r w')
    (hStart : w.shared = ⟨b, clock⟩) :
    r = .opened ∧ w'.shared = ⟨{ b with state := .opened, openedAt := some now }, clock⟩ := by
  obtain ⟨_, s₁, hStore, h⟩ := solo_perform_iff.mp h
  obtain ⟨_, s₂, hStamp, h⟩ := solo_perform_iff.mp h
  obtain rfl := Option.some.inj hStore
  obtain rfl := Option.some.inj hStamp
  obtain ⟨rfl, rfl⟩ := solo_done_iff.mp h
  simp [hStart]

theorem solo_count {b : CircuitBreaker} {policy : CircuitPolicy} {clock now : Instant}
    (h : Solo (circuitMachine Thread) t (CircuitSteps.count policy now) w r w')
    (hStart : w.shared = ⟨b, clock⟩) :
    w'.shared = ⟨{ b with
      state := if policy.failureThreshold ≤ b.failures + 1 then .opened else b.state
      failures := b.failures + 1
      openedAt := if policy.failureThreshold ≤ b.failures + 1 then some now else b.openedAt },
      clock⟩ ∧
    r = if policy.failureThreshold ≤ b.failures + 1 then .opened else .closed := by
  obtain ⟨failures, s₁, hAdd, h⟩ := solo_perform_iff.mp h
  simp only [circuitMachine, hStart, Option.ite_none_right_eq_some, Option.some.injEq] at hAdd
  obtain ⟨rfl, rfl⟩ := hAdd
  by_cases hTrips : policy.failureThreshold ≤ b.failures + 1
  · simp only [Program.bind, hTrips, if_true] at h ⊢
    exact (solo_trip h rfl).symm
  · simp only [Program.bind, hTrips, if_false] at h ⊢
    obtain ⟨rfl, rfl⟩ := solo_done_iff.mp h
    exact ⟨rfl, rfl⟩

/-- A failure that nobody interferes with. -/
theorem solo_recordFailure (h : Solo (circuitMachine Thread) t
    (CircuitSteps.recordFailure w.shared.state.policy) w r w') :
    ∃ now, w.shared.clock ≤ now ∧ w'.shared = ⟨w.shared.state.recordFailure now, now⟩ ∧
      r = (w.shared.state.recordFailure now).state := by
  obtain ⟨now, hClock, h⟩ := solo_now_iff.mp h
  refine ⟨now, hClock, ?_⟩
  obtain ⟨state, s₁, hLoad, h⟩ := solo_perform_iff.mp h
  simp only [circuitMachine, Machine.after_shared, Option.ite_none_right_eq_some,
    Option.some.injEq] at hLoad
  obtain ⟨rfl, rfl⟩ := hLoad
  cases hState : w.shared.state.state with
  | opened =>
      simp only [hState] at h
      obtain ⟨rfl, rfl⟩ := solo_done_iff.mp h
      simp [CircuitBreaker.recordFailure_of_opened hState, hState]
  | halfOpen =>
      simp only [hState] at h
      obtain ⟨rfl, hShared⟩ := solo_trip h rfl
      simp [CircuitBreaker.recordFailure_of_halfOpen now hState, hShared]
  | closed =>
      simp only [hState] at h
      obtain ⟨inWindow, s₂, hTouch, h⟩ := solo_perform_iff.mp h
      simp only [circuitMachine, Machine.after_shared, Option.ite_none_right_eq_some,
        Option.some.injEq] at hTouch
      obtain ⟨rfl, rfl⟩ := hTouch
      have hCount : w.shared.state.countFailure now =
          (if w.shared.state.inWindow now then w.shared.state.failures else 0) + 1 := rfl
      rw [CircuitBreaker.recordFailure_of_closed now hState, hCount]
      cases hIn : w.shared.state.inWindow now with
      | true =>
          simp only [Program.bind, hIn, if_true] at h
          obtain ⟨hShared, rfl⟩ := solo_count h rfl
          rw [hShared]
          simp [hState]
      | false =>
          simp only [Program.bind, hIn, Bool.false_eq_true, if_false] at h
          obtain ⟨_, s₃, hReset, h⟩ := solo_perform_iff.mp h
          obtain rfl := Option.some.inj hReset
          obtain ⟨hShared, rfl⟩ := solo_count h rfl
          rw [hShared]
          simp [hState]

theorem solo_recordSuccess
    (h : Solo (circuitMachine Thread) t CircuitSteps.recordSuccess w r w') :
    r = .closed ∧ w'.shared = { w.shared with state := w.shared.state.recordSuccess } := by
  obtain ⟨_, s₁, hReset, h⟩ := solo_perform_iff.mp h
  obtain ⟨_, s₂, hStore, h⟩ := solo_perform_iff.mp h
  obtain ⟨_, s₃, hOpened, h⟩ := solo_perform_iff.mp h
  obtain ⟨_, s₄, hFailure, h⟩ := solo_perform_iff.mp h
  obtain rfl := Option.some.inj hReset
  obtain rfl := Option.some.inj hStore
  obtain rfl := Option.some.inj hOpened
  obtain rfl := Option.some.inj hFailure
  obtain ⟨rfl, rfl⟩ := solo_done_iff.mp h
  exact ⟨rfl, rfl⟩

/-- A tick that nobody interferes with. -/
theorem solo_tick (h : Solo (circuitMachine Thread) t
    (CircuitSteps.tick w.shared.state.policy) w r w') :
    ∃ now, w.shared.clock ≤ now ∧ w'.shared = ⟨w.shared.state.tick now, w'.shared.clock⟩ ∧
      (w.shared.state.state = .opened → w'.shared.clock = now) ∧
      r = (w.shared.state.tick now).state := by
  obtain ⟨state, s₁, hLoad, h⟩ := solo_perform_iff.mp h
  simp only [circuitMachine, Option.ite_none_right_eq_some, Option.some.injEq] at hLoad
  obtain ⟨rfl, rfl⟩ := hLoad
  by_cases hOpened : w.shared.state.state = .opened
  · simp only [Program.bind, hOpened, ne_eq, not_true_eq_false, if_false] at h
    obtain ⟨now, hClock, h⟩ := solo_now_iff.mp h
    refine ⟨now, hClock, ?_⟩
    obtain ⟨openedAt, s₂, hRead, h⟩ := solo_perform_iff.mp h
    simp only [circuitMachine, Machine.after_shared, Option.ite_none_right_eq_some,
      Option.some.injEq] at hRead
    obtain ⟨rfl, rfl⟩ := hRead
    cases hAt : w.shared.state.openedAt with
    | none =>
        simp only [Program.bind, hAt] at h
        obtain ⟨rfl, rfl⟩ := solo_done_iff.mp h
        simp [CircuitBreaker.tick, hOpened, hAt]
    | some since =>
        simp only [Program.bind, hAt] at h
        by_cases hDue : now.durationSince since ≥ w.shared.state.policy.openDuration.nanos
        · rw [if_pos hDue] at h
          obtain ⟨_, s₃, hStore, h⟩ := solo_perform_iff.mp h
          obtain rfl := Option.some.inj hStore
          obtain ⟨rfl, rfl⟩ := solo_done_iff.mp h
          simp [CircuitBreaker.tick, hOpened, hAt, hDue]
        · rw [if_neg hDue] at h
          obtain ⟨rfl, rfl⟩ := solo_done_iff.mp h
          simp [CircuitBreaker.tick, hOpened, hAt, hDue]
  · simp only [Program.bind, hOpened, ne_eq, not_false_eq_true, if_true] at h
    obtain ⟨state, s₂, hAgain, h⟩ := solo_perform_iff.mp h
    simp only [circuitMachine, Machine.after_shared, Option.ite_none_right_eq_some,
      Option.some.injEq] at hAgain
    obtain ⟨rfl, rfl⟩ := hAgain
    obtain ⟨rfl, rfl⟩ := solo_done_iff.mp h
    refine ⟨w.shared.clock, Nat.le_refl _, ?_⟩
    simp [CircuitBreaker.tick_of_ne_opened hOpened, hOpened]

end Solo

end ServiceKernel
