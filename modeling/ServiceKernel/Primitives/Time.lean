import Mathlib.Algebra.Group.Int.Defs
import Mathlib.Algebra.GroupWithZero.Nat
import Mathlib.Data.Int.Init
import Mathlib.Tactic.SplitIfs

/-! Clock readings and durations, with the ranges the standard library gives them. -/
namespace ServiceKernel

/-- A span of time: at most `u64::MAX` seconds and `999_999_999` nanoseconds. -/
@[ext]
structure Duration where
  nanos : Nat
  bounded : nanos < 18446744073709551616 * 1000000000
  deriving DecidableEq

namespace Duration

instance nanosPerSec_neZero : NeZero 1000000000 := ⟨by decide⟩

/-- `Duration::new` from whole seconds and a subsecond part. -/
def new (secs : UInt64) (nanos : Fin 1000000000) : Duration :=
  ⟨secs.toNat * 1000000000 + nanos.val, by
    have := secs.toNat_lt
    have := nanos.isLt
    omega⟩

def zero : Duration := ⟨0, by decide⟩

def fromSecs (secs : UInt64) : Duration := new secs 0

def fromMillis (millis : UInt64) : Duration :=
  ⟨millis.toNat * 1000000, by have := millis.toNat_lt; omega⟩

/-- `Duration::from_nanos` takes a `u64`. -/
def fromNanos (nanos : UInt64) : Duration :=
  ⟨nanos.toNat, by have := nanos.toNat_lt; omega⟩

def isZero (d : Duration) : Bool := d.nanos = 0

@[simp] theorem fromNanos_nanos (n : UInt64) : (fromNanos n).nanos = n.toNat := rfl

@[simp] theorem isZero_iff (d : Duration) : d.isZero = true ↔ d.nanos = 0 := by
  simp [isZero]

end Duration

/-- A reading of the monotonic clock, in nanoseconds since its origin. -/
abbrev Instant := Nat

/-- `Instant::duration_since` in nanoseconds; it saturates at zero. -/
def Instant.durationSince (now earlier : Instant) : Nat := now - earlier

/-- `Instant::checked_add`; a reading keeps its seconds in an `i64`. `+` on instants
panics where this is `none`. -/
def Instant.checkedAdd (now : Instant) (d : Duration) : Option Instant :=
  if now + d.nanos < 9223372036854775808 * 1000000000 then some (now + d.nanos) else none

def i64Max : Int := 9223372036854775807

/-- `as i64` on a `u128`: the low 64 bits in two's complement. -/
def asI64 (n : Nat) : Int := Int.bmod n 18446744073709551616

/-- `unix_nanos()` for a system-clock reading: nanoseconds since the Unix epoch
capped at `i64::MAX`, and zero when the clock is before the epoch. -/
def unixNanos (sinceEpoch : Option Nat) : Int :=
  match sinceEpoch with
  | some nanos => min nanos i64Max
  | none => 0

theorem unixNanos_le (sinceEpoch : Option Nat) : unixNanos sinceEpoch ≤ i64Max := by
  cases sinceEpoch with
  | none => decide
  | some nanos => exact Int.min_le_right _ _

/-- The cast is exact on what fits and never exceeds `i64::MAX`. -/
theorem asI64_of_lt {n : Nat} (h : n < 2 ^ 63) : asI64 n = n := by
  refine Int.bmod_eq_of_le ?_ ?_ <;> omega

end ServiceKernel
