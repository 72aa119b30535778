import ServiceKernel.Worker.Spec

/-! Hung-worker detection: which heartbeat cells have gone stale. -/
namespace ServiceKernel

structure WatchdogTarget where
  id : WorkerId
  name : String
  lastHeartbeatNanos : Int
  heartbeatInterval : Duration

structure WatchdogTimeout where
  id : WorkerId
  name : String
  silentFor : Duration

def u64FromNanos (n : Int) : UInt64 :=
  if n < 0 then 0 else if n > 18446744073709551615 then .ofNat 18446744073709551615 else .ofNat n.toNat

namespace Watchdog

/-- Nanoseconds of silence after which a worker counts as hung. The interval is
cast to `i64` before it is doubled. -/
def threshold (interval : Duration) : Int := asI64 interval.nanos * 2

def checkTarget (now : Int) (target : WatchdogTarget) : Option WatchdogTimeout :=
  if target.lastHeartbeatNanos ≤ 0 then none
  else
    let silent := now - target.lastHeartbeatNanos
    if silent > threshold target.heartbeatInterval then
      some ⟨target.id, target.name, .fromNanos (u64FromNanos silent)⟩
    else none

/-- The targets silent for more than twice their interval, in target order.
Targets that have never heartbeated are skipped. -/
def check (targets : List WatchdogTarget) (now : Int) : List WatchdogTimeout :=
  targets.filterMap (checkTarget now)

/-- The check on one heartbeat cell. -/
def Stale (interval : Duration) (lastHeartbeat now : Int) : Prop :=
  0 < lastHeartbeat ∧ threshold interval < now - lastHeartbeat

instance (interval : Duration) (lastHeartbeat now : Int) :
    Decidable (Stale interval lastHeartbeat now) :=
  inferInstanceAs (Decidable (_ ∧ _))

theorem checkTarget_eq_some_iff {now : Int} {target : WatchdogTarget} {timeout : WatchdogTimeout} :
    checkTarget now target = some timeout ↔
      Stale target.heartbeatInterval target.lastHeartbeatNanos now ∧
        timeout = ⟨target.id, target.name,
          .fromNanos (u64FromNanos (now - target.lastHeartbeatNanos))⟩ := by
  simp only [checkTarget, Stale]
  split_ifs with hNever hSilent
  · simp only [false_iff]
    omega
  · simp only [Option.some.injEq]
    constructor
    · rintro rfl
      exact ⟨by omega, rfl⟩
    · rintro ⟨-, rfl⟩
      rfl
  · simp only [false_iff]
    omega

/-- The threshold is twice the interval as long as the interval fits an `i64`. -/
theorem threshold_of_lt {interval : Duration} (h : interval.nanos < 2 ^ 63) :
    threshold interval = 2 * (interval.nanos : Int) := by
  rw [threshold, asI64_of_lt h, Int.mul_comm]

/-- A cell is rightly called stale exactly when its interval fits an `i64`:
beyond that no two readings are that far apart. -/
theorem silent_iff_of_stale {interval : Duration} {lastHeartbeat now : Int}
    (hNow : now ≤ i64Max) (h : Stale interval lastHeartbeat now) :
    2 * (interval.nanos : Int) < now - lastHeartbeat ↔ interval.nanos < 2 ^ 63 := by
  constructor
  · intro hSilent
    have := h.1
    simp only [i64Max] at hNow
    omega
  · intro hFits
    rw [← threshold_of_lt hFits]
    exact h.2

end Watchdog

end ServiceKernel
