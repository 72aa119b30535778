import Mathlib.Tactic.ByContra
import ServiceKernel.Primitives.Time

/-! Deadlines: an instant and whether it has passed. A sum that the clock cannot
represent falls back to the instant it was taken from, which has passed already. -/
namespace ServiceKernel

structure Deadline where
  instant : Instant
  deriving DecidableEq, Repr

namespace Deadline

/-- `Deadline::from_now`, at a reading of the clock. -/
def fromNow (now : Instant) (duration : Duration) : Deadline := ⟨(now.checkedAdd duration).getD now⟩

def isExpired (d : Deadline) (now : Instant) : Bool := d.instant ≤ now

/-- The time left in nanoseconds. -/
def remaining (d : Deadline) (now : Instant) : Option Nat :=
  if d.instant ≤ now then none else some (Instant.durationSince d.instant now)

/-- A deadline built from this duration has not passed when it is built, unless the
duration is zero. -/
structure OpenWhenBuilt (now : Instant) (duration : Duration) : Prop where
  notExpired : duration.nanos ≠ 0 → (fromNow now duration).isExpired now = false
  remains : duration.nanos ≠ 0 → ((fromNow now duration).remaining now).isSome

/-- The longer duration gives no earlier deadline, and neither has passed. -/
structure MonotoneAt (now : Instant) (shorter longer : Duration) : Prop where
  ordered : (fromNow now shorter).instant ≤ (fromNow now longer).instant
  shorterOpen : OpenWhenBuilt now shorter
  longerOpen : OpenWhenBuilt now longer

variable {now : Instant} {duration shorter longer : Duration}

theorem fromNow_of_some {instant : Instant} (h : now.checkedAdd duration = some instant) :
    fromNow now duration = ⟨now + duration.nanos⟩ := by
  unfold Instant.checkedAdd at h
  split_ifs at h with hFits
  simp [fromNow, Instant.checkedAdd, hFits]

theorem fromNow_of_none (h : now.checkedAdd duration = none) : fromNow now duration = ⟨now⟩ := by
  simp [fromNow, h]

/-- A shorter duration is representable if a longer one is. -/
theorem checkedAdd_isSome_mono (hLe : shorter.nanos ≤ longer.nanos)
    (h : (now.checkedAdd longer).isSome) : (now.checkedAdd shorter).isSome := by
  unfold Instant.checkedAdd at h ⊢
  have hLong : now + longer.nanos < 9223372036854775808 * 1000000000 := by
    by_contra hNot
    rw [if_neg hNot] at h
    cases h
  have hShort : now + shorter.nanos < 9223372036854775808 * 1000000000 :=
    Nat.lt_of_le_of_lt (Nat.add_le_add_left hLe now) hLong
  simp [hShort]

/-- The deadline is open exactly if it could be computed. -/
theorem openWhenBuilt_iff :
    OpenWhenBuilt now duration ↔ duration.nanos = 0 ∨ (now.checkedAdd duration).isSome := by
  by_cases hZero : duration.nanos = 0
  · simp only [hZero, true_or, iff_true]
    exact ⟨fun h => absurd hZero h, fun h => absurd hZero h⟩
  · simp only [hZero, false_or]
    cases hSum : now.checkedAdd duration with
    | none =>
        have hBuilt := fromNow_of_none hSum
        constructor
        · intro h
          have hOpen := h.notExpired hZero
          simp [hBuilt, isExpired] at hOpen
        · intro h
          cases h
    | some instant =>
        have hBuilt := fromNow_of_some hSum
        have hLater : ¬ now + duration.nanos ≤ now := by
          intro hLe
          exact hZero (Nat.le_zero.mp (Nat.le_of_add_le_add_left hLe))
        refine ⟨fun _ => rfl, fun _ => ⟨fun _ => ?_, fun _ => ?_⟩⟩
        · simp only [hBuilt, isExpired]
          exact decide_eq_false hLater
        · simp only [hBuilt, remaining]
          rw [if_neg hLater]
          rfl

/-- Of two durations, the deadlines are ordered and open exactly if the longer one is zero
or its sum with the clock is representable. -/
theorem fromNow_monotone_iff (hLe : shorter.nanos ≤ longer.nanos) :
    MonotoneAt now shorter longer ↔ longer.nanos = 0 ∨ (now.checkedAdd longer).isSome := by
  constructor
  · exact fun h => openWhenBuilt_iff.mp h.longerOpen
  · intro h
    rcases h with hZero | hSome
    · have hShort : shorter.nanos = 0 := by omega
      obtain rfl : shorter = longer := Duration.ext (hShort.trans hZero.symm)
      exact ⟨Nat.le_refl _, openWhenBuilt_iff.mpr (Or.inl hShort),
        openWhenBuilt_iff.mpr (Or.inl hZero)⟩
    · have hShort := checkedAdd_isSome_mono hLe hSome
      refine ⟨?_, openWhenBuilt_iff.mpr (Or.inr hShort), openWhenBuilt_iff.mpr (Or.inr hSome)⟩
      obtain ⟨early, hEarly⟩ := Option.isSome_iff_exists.mp hShort
      obtain ⟨late, hLate⟩ := Option.isSome_iff_exists.mp hSome
      rw [fromNow_of_some hEarly, fromNow_of_some hLate]
      exact Nat.add_le_add_left hLe now

theorem fromNow_monotone_second :
    MonotoneAt 5 (.fromMillis 1) (.fromSecs 1) ↔
      (Duration.fromSecs 1).nanos = 0 ∨ (Instant.checkedAdd 5 (.fromSecs 1)).isSome :=
  fromNow_monotone_iff (by decide)

/-- The deadline of the longest duration has passed when it is built, and comes before
that of a nanosecond. -/
theorem longest_not_monotone : ¬ ∀ (now : Instant) (shorter longer : Duration),
    shorter.nanos ≤ longer.nanos → MonotoneAt now shorter longer := by
  intro hClaim
  have h := (hClaim 0 (.fromNanos 1) (.new 18446744073709551615 999999999) (by decide)).ordered
  revert h
  decide

end Deadline

end ServiceKernel
