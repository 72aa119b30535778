/-! The fine-grained kernel state, the coarse phase it belongs to, and the table
of legal transitions. -/
namespace ServiceKernel

/-- The five-stage view of the run cycle. -/
inductive Phase where
  | idle
  | boot
  | load
  | exec
  | shutdown
  deriving DecidableEq, Repr

def Phase.ordinal : Phase → Nat
  | .idle => 0
  | .boot => 1
  | .load => 2
  | .exec => 3
  | .shutdown => 4

/-- The eight-state view, in declaration order. -/
inductive KernelState where
  | created
  | booting
  | loading
  | running
  | degraded
  | stopping
  | stopped
  | failed
  deriving DecidableEq, Repr

namespace KernelState

def asStr : KernelState → String
  | created => "created"
  | booting => "booting"
  | loading => "loading"
  | running => "running"
  | degraded => "degraded"
  | stopping => "stopping"
  | stopped => "stopped"
  | failed => "failed"

def phase : KernelState → Phase
  | created => .idle
  | booting => .boot
  | loading => .load
  | running => .exec
  | degraded => .exec
  | stopping => .shutdown
  | stopped => .shutdown
  | failed => .shutdown

/-- No transition leaves a terminal state. -/
def isTerminal : KernelState → Bool
  | stopped => true
  | failed => true
  | _ => false

/-- The row of `LEGAL_TRANSITIONS` for a source state: where it may move. -/
def legalTransitions : KernelState → List KernelState
  | created => [booting]
  | booting => [loading, failed]
  | loading => [running, failed]
  | running => [degraded, stopping, failed]
  | degraded => [running, stopping, failed]
  | stopping => [stopped, failed]
  | stopped => []
  | failed => []

end KernelState

def isLegal (fromState toState : KernelState) : Bool := toState ∈ fromState.legalTransitions

structure TransitionError where
  fromState : KernelState
  toState : KernelState
  deriving DecidableEq, Repr

def assertLegal (fromState toState : KernelState) : Except TransitionError Unit :=
  if isLegal fromState toState then .ok () else .error ⟨fromState, toState⟩

theorem assertLegal_ok_iff {fromState toState : KernelState} :
    assertLegal fromState toState = .ok () ↔ isLegal fromState toState := by
  cases h : isLegal fromState toState <;> simp [assertLegal, h]

theorem assertLegal_error_iff {fromState toState : KernelState} {e : TransitionError} :
    assertLegal fromState toState = .error e ↔
      isLegal fromState toState = false ∧ e = ⟨fromState, toState⟩ := by
  cases h : isLegal fromState toState <;> simp [assertLegal, h, eq_comm (a := e)]

/-- Only a fresh kernel can be booted. -/
theorem isLegal_booting {s : KernelState} : isLegal s .booting ↔ s = .created := by
  cases s <;> decide

/-- A kernel that is stopping can only move to a terminal state. -/
theorem isLegal_stopping {s toState : KernelState} (h : isLegal s toState = true)
    (hStopping : s = .stopping ∨ s.isTerminal = true) : toState.isTerminal = true := by
  revert h hStopping
  cases s <;> cases toState <;> decide

end ServiceKernel
