import ServiceKernel.Lifecycle.State
import ServiceKernel.Primitives.Time
import ServiceKernel.Semantics.Program

/-! The lifecycle controller. The check against the table and the write are one
step under the write lock; the event and the two metrics follow after the lock
is released, so other threads may run between any two of them. -/
namespace ServiceKernel

open Interleaving

/-- What lifecycle subscribers receive. -/
inductive LifecycleEvent where
  | transition (fromState toState : KernelState) (instant : Instant)
  | shutdownStarted (instant : Instant)
  | shutdownCompleted (duration workersDrained workersAborted : Nat) (instant : Instant)
  deriving DecidableEq, Repr

structure LifecycleSnapshot where
  state : KernelState
  phase : Phase
  lastTransition : Instant
  deriving DecidableEq, Repr

/-- What the controller guards with its lock. -/
structure LifecycleInner where
  state : KernelState
  lastTransition : Instant
  deriving DecidableEq, Repr

namespace LifecycleInner

def fresh (now : Instant) : LifecycleInner := ⟨.created, now⟩

def snapshot (l : LifecycleInner) : LifecycleSnapshot := ⟨l.state, l.state.phase, l.lastTransition⟩

end LifecycleInner

inductive LifecycleOp where
  | checkAndSet (toState : KernelState)
  | emit (event : LifecycleEvent)
  | gauge (ordinal : Nat)
  | counter (toState : String)
  | snapshot

abbrev LifecycleSig : Signature where
  Op := LifecycleOp
  Ans
    | .checkAndSet _ => Except TransitionError (KernelState × Instant)
    | .emit _ => Unit
    | .gauge _ => Unit
    | .counter _ => Unit
    | .snapshot => LifecycleSnapshot

abbrev LifecycleOp.call (o : LifecycleOp) : Program LifecycleSig (LifecycleSig.Ans o) :=
  Program.call (S := LifecycleSig) o

inductive LifecycleRecord where
  | moved (fromState toState : KernelState) (instant : Instant)
  | refused (error : TransitionError)
  | emitted (event : LifecycleEvent)
  | gauge (ordinal : Nat)
  | counter (toState : String)
  | snapshot (snapshot : LifecycleSnapshot)
  deriving DecidableEq, Repr

/-- A component together with the last reading of the monotonic clock. -/
structure Clocked (σ : Type) where
  state : σ
  clock : Instant
  deriving DecidableEq, Repr

/-- A reading `now` of the clock; it never goes back. -/
def Clocked.reads {σ : Type} (c : Clocked σ) (now : Instant) : Option (Clocked σ) :=
  if c.clock ≤ now then some { c with clock := now } else none

def lifecycleMachine (Thread : Type) :
    Machine LifecycleSig Thread (Clocked LifecycleInner) LifecycleRecord where
  exec _ o a l := match o, a with
    | .checkAndSet toState, a => match assertLegal l.state.state toState, a with
      | .ok (), .ok (fromState, now) =>
        if fromState = l.state.state ∧ l.clock ≤ now then some ⟨⟨toState, now⟩, now⟩ else none
      | .error e, .error answer => if answer = e then some l else none
      | _, _ => none
    | .emit _, _ => some l
    | .gauge _, _ => some l
    | .counter _, _ => some l
    | .snapshot, a => if a = l.state.snapshot then some l else none
  event o a := match o, a with
    | .checkAndSet toState, .ok (fromState, now) => .moved fromState toState now
    | .checkAndSet _, .error e => .refused e
    | .emit event, _ => .emitted event
    | .gauge ordinal, _ => .gauge ordinal
    | .counter toState, _ => .counter toState
    | .snapshot, a => .snapshot a

/-- `LifecycleController::transition` of a controller wired to an event handle and
to a metrics backend. -/
def transition (toState : KernelState) : Program LifecycleSig (Except TransitionError Unit) := do
  match ← (LifecycleOp.checkAndSet toState).call with
  | .error e => return .error e
  | .ok (fromState, now) =>
    (LifecycleOp.emit (.transition fromState toState now)).call
    (LifecycleOp.gauge toState.phase.ordinal).call
    (LifecycleOp.counter toState.asStr).call
    return .ok ()

section Exec

variable {Thread : Type} {t : Thread} {l l' : Clocked LifecycleInner} {toState : KernelState}

/-- A move that is granted follows the table and reads the clock once. -/
theorem lifecycle_moved {fromState : KernelState} {now : Instant}
    (h : (lifecycleMachine Thread).exec t (.checkAndSet toState) (.ok (fromState, now)) l =
      some l') :
    isLegal l.state.state toState ∧ fromState = l.state.state ∧ l.clock ≤ now ∧
      l' = ⟨⟨toState, now⟩, now⟩ := by
  simp only [lifecycleMachine] at h
  cases hLegal : assertLegal l.state.state toState with
  | error e => simp [hLegal] at h
  | ok u =>
      simp only [hLegal, Option.ite_none_right_eq_some, Option.some.injEq] at h
      obtain ⟨⟨hFrom, hClock⟩, rfl⟩ := h
      exact ⟨assertLegal_ok_iff.mp hLegal, hFrom, hClock, rfl⟩

/-- A move that is refused changes nothing and names both states. -/
theorem lifecycle_refused {e : TransitionError}
    (h : (lifecycleMachine Thread).exec t (.checkAndSet toState) (.error e) l = some l') :
    isLegal l.state.state toState = false ∧ e = ⟨l.state.state, toState⟩ ∧ l' = l := by
  simp only [lifecycleMachine] at h
  cases hLegal : assertLegal l.state.state toState with
  | ok u => simp [hLegal] at h
  | error e' =>
      simp only [hLegal, Option.ite_none_right_eq_some, Option.some.injEq] at h
      obtain ⟨rfl, rfl⟩ := h
      exact ⟨(assertLegal_error_iff.mp hLegal).1, (assertLegal_error_iff.mp hLegal).2, rfl⟩

end Exec

end ServiceKernel
