import Mathlib.Order.MinMax
import Mathlib.Tactic.ByContra
import ServiceKernel.Worker.Policy

/-! The exponential delay in exact integer arithmetic. The shift stops growing at 63
doublings, which is short of the cap when the base is small and the cap is huge. -/
namespace ServiceKernel

namespace BackoffPolicy

variable {base max : Duration} {attempt earlier : UInt32}

/-- The product before the cap, as `delay` computes it. -/
def scaled (base : Duration) (attempt : UInt32) : Nat :=
  saturatingMulU128 base.nanos (1 <<< min attempt.toNat 63)

/-- What an exponential delay is for, at one attempt. -/
structure ExactDelay (base max : Duration) (attempt : UInt32) : Prop where
  exact : ((exponential base max).delay attempt).nanos =
    min (base.nanos * 2 ^ attempt.toNat) max.nanos
  capped : ((exponential base max).delay attempt).nanos ≤ max.nanos
  monotone : ∀ earlier ≤ attempt, ((exponential base max).delay earlier).nanos ≤
    ((exponential base max).delay attempt).nanos
  secondsFit : min (scaled base attempt) max.nanos / 1000000000 < 2 ^ 64
  restFits : min (scaled base attempt) max.nanos % 1000000000 < 2 ^ 32

/-- The saturation of the product is out of reach of the cap. -/
theorem min_scaled (base max : Duration) (attempt : UInt32) :
    min (scaled base attempt) max.nanos =
      min (base.nanos * 2 ^ min attempt.toNat 63) max.nanos := by
  have hCap := max.bounded
  rw [scaled, saturatingMulU128, Nat.one_shiftLeft, Nat.min_assoc]
  congr 1
  exact Nat.min_eq_right (by omega)

/-- The split into seconds and nanoseconds loses nothing. -/
theorem new_split {nanos : Nat} (h : nanos < 18446744073709551616 * 1000000000) :
    (Duration.new (.ofNat (nanos / 1000000000)) (Fin.ofNat 1000000000 (nanos % 1000000000))).nanos =
      nanos := by
  have hSecs : (UInt64.ofNat (nanos / 1000000000)).toNat = nanos / 1000000000 := by
    rw [UInt64.toNat_ofNat']
    exact Nat.mod_eq_of_lt (by omega)
  have hRest : (Fin.ofNat 1000000000 (nanos % 1000000000)).val = nanos % 1000000000 := by
    simp [Fin.ofNat]
  simp only [Duration.new, hSecs, hRest]
  omega

/-- What `delay` computes: at most 63 doublings of the base, up to the cap. -/
theorem delay_exponential (base max : Duration) (attempt : UInt32) :
    ((exponential base max).delay attempt).nanos =
      min (base.nanos * 2 ^ min attempt.toNat 63) max.nanos := by
  simp only [delay]
  split_ifs with hZero
  · rcases hZero with hBase | hCap
    · simp [hBase, Duration.zero]
    · simp [hCap, Duration.zero]
  · have hBound : min (scaled base attempt) max.nanos < 18446744073709551616 * 1000000000 :=
      Nat.lt_of_le_of_lt (Nat.min_le_right _ _) max.bounded
    exact (new_split hBound).trans (min_scaled base max attempt)

theorem delay_le_max : ((exponential base max).delay attempt).nanos ≤ max.nanos := by
  rw [delay_exponential]
  exact Nat.min_le_right _ _

/-- A later attempt does not wait less. -/
theorem delay_mono (h : earlier ≤ attempt) : ((exponential base max).delay earlier).nanos ≤
    ((exponential base max).delay attempt).nanos := by
  have hShift : min earlier.toNat 63 ≤ min attempt.toNat 63 :=
    min_le_min_right 63 (UInt32.le_iff_toNat_le.mp h)
  rw [delay_exponential, delay_exponential]
  exact min_le_min_right _ (Nat.mul_le_mul_left _ (Nat.pow_le_pow_right (by decide) hShift))

/-- Two numbers of doublings that give the same delay under the cap. -/
theorem min_doublings_iff {base cap few many : Nat} (h : few < many) :
    min (base * 2 ^ few) cap = min (base * 2 ^ many) cap ↔ base = 0 ∨ cap ≤ base * 2 ^ few := by
  rcases Nat.eq_zero_or_pos base with rfl | hPos
  · simp
  · have hLess : base * 2 ^ few < base * 2 ^ many :=
      Nat.mul_lt_mul_of_pos_left (Nat.pow_lt_pow_right (by decide) h) hPos
    constructor
    · intro hSame
      apply Or.inr
      by_contra hBelow
      omega
    · intro hCap
      have hReached : cap ≤ base * 2 ^ few := by
        rcases hCap with hZero | hReached
        · omega
        · exact hReached
      omega

/-- The delay is exact unless more than 63 doublings are needed to reach the cap. -/
theorem exactDelay_iff (base max : Duration) (attempt : UInt32) : ExactDelay base max attempt ↔
    attempt.toNat ≤ 63 ∨ base.nanos = 0 ∨ max.nanos ≤ base.nanos * 2 ^ 63 := by
  have hExact : ((exponential base max).delay attempt).nanos =
      min (base.nanos * 2 ^ attempt.toNat) max.nanos ↔
      attempt.toNat ≤ 63 ∨ base.nanos = 0 ∨ max.nanos ≤ base.nanos * 2 ^ 63 := by
    rw [delay_exponential]
    by_cases hFew : attempt.toNat ≤ 63
    · simp [hFew]
    · have hMany : 63 < attempt.toNat := Nat.lt_of_not_le hFew
      simp only [hFew, false_or]
      rw [Nat.min_eq_right (Nat.le_of_lt hMany)]
      exact min_doublings_iff hMany
  constructor
  · exact fun h => hExact.mp h.exact
  · intro h
    have hCap := max.bounded
    have hChosen : min (scaled base attempt) max.nanos ≤ max.nanos := Nat.min_le_right _ _
    exact ⟨hExact.mpr h, delay_le_max, fun _ => delay_mono, by omega, by omega⟩

/-- A nanosecond doubled 64 times is less than the longest duration, but the delay stops
at 63 doublings. -/
theorem delay_not_exact : ¬ ∀ base max attempt, ExactDelay base max attempt := by
  intro hClaim
  have h := (hClaim (.fromNanos 1) (.new 18446744073709551615 999999999) 64).exact
  rw [delay_exponential] at h
  revert h
  decide

end BackoffPolicy

end ServiceKernel
