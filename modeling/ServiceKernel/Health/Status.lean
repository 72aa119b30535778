import Mathlib.Data.List.AList
import Mathlib.Order.MinMax

/-! The five-level health vocabulary and its aggregation rule: the aggregate
of a set of subsystems is the worst status among them. -/
namespace ServiceKernel

inductive HealthStatus where
  | healthy
  | degraded
  | unhealthy
  | critical
  | unknown
  deriving DecidableEq, Repr

namespace HealthStatus

/-- The `u8` discriminant, in declaration order. -/
def toU8 : HealthStatus → UInt8
  | .healthy => 0
  | .degraded => 1
  | .unhealthy => 2
  | .critical => 3
  | .unknown => 4

def fromU8 : UInt8 → HealthStatus
  | 0 => .healthy
  | 1 => .degraded
  | 2 => .unhealthy
  | 3 => .critical
  | _ => .unknown

@[simp] theorem fromU8_toU8 (s : HealthStatus) : fromU8 s.toU8 = s := by
  cases s <;> rfl

theorem toU8_injective : Function.Injective toU8 :=
  Function.LeftInverse.injective fromU8_toU8

/-- `Healthy < Degraded < Unhealthy < Critical < Unknown`: a subsystem that has
not reported ranks worst. -/
instance : LinearOrder HealthStatus :=
  LinearOrder.lift' (fun s => s.toU8.toNat) fun _ _ h => toU8_injective (UInt8.toNat_inj.mp h)

instance : Inhabited HealthStatus := ⟨.unknown⟩

theorem healthy_le (s : HealthStatus) : healthy ≤ s := by
  cases s <;> decide

end HealthStatus

/-- Equality of maps by their entries, in a form that evaluates. -/
instance decidableEqAList {α : Type} {β : α → Type} [DecidableEq α] [∀ a, DecidableEq (β a)] :
    DecidableEq (AList β) :=
  fun m m' => decidable_of_iff (m.entries = m'.entries) AList.ext_iff.symm

/-- The statuses reported so far, by subsystem name. -/
abbrev HealthMap := AList fun _ : String => HealthStatus

namespace HealthMap

def values (m : HealthMap) : List HealthStatus := m.entries.map (·.2)

/-- The worst status in the map, `Healthy` when nothing has reported. -/
def worst (m : HealthMap) : HealthStatus := m.values.max?.getD .healthy

theorem mem_values {m : HealthMap} {s : HealthStatus} :
    s ∈ m.values ↔ ∃ name, m.lookup name = some s := by
  simp only [values, List.mem_map, Sigma.exists, AList.mem_lookup_iff.symm,
    Option.mem_def]
  constructor
  · rintro ⟨_, status, h, rfl⟩
    exact ⟨_, h⟩
  · rintro ⟨name, h⟩
    exact ⟨name, s, h, rfl⟩

theorem le_worst {m : HealthMap} {name : String} {s : HealthStatus} (h : m.lookup name = some s) :
    s ≤ m.worst := by
  have hMem : s ∈ m.values := mem_values.mpr ⟨name, h⟩
  cases hMax : m.values.max? with
  | none => simp [List.max?_eq_none_iff.mp hMax] at hMem
  | some top => simpa [worst, hMax] using (List.max?_eq_some_iff.mp hMax).2 s hMem

theorem worst_attained (m : HealthMap) :
    m.worst = .healthy ∨ ∃ name, m.lookup name = some m.worst := by
  cases hMax : m.values.max? with
  | none => exact Or.inl (by simp [worst, hMax])
  | some top =>
      refine Or.inr (mem_values.mp ?_)
      simpa [worst, hMax] using (List.max?_eq_some_iff.mp hMax).1

/-- The worst status is the one bound that is attained. -/
theorem worst_eq_iff {m : HealthMap} {s : HealthStatus} :
    m.worst = s ↔ (∀ name q, m.lookup name = some q → q ≤ s) ∧
      (s = .healthy ∨ ∃ name, m.lookup name = some s) := by
  constructor
  · rintro rfl
    exact ⟨fun _ _ h => le_worst h, worst_attained m⟩
  · rintro ⟨hBound, hAttained⟩
    apply le_antisymm
    · rcases worst_attained m with h | ⟨name, h⟩
      · exact h ▸ HealthStatus.healthy_le s
      · exact hBound name _ h
    · rcases hAttained with rfl | ⟨name, h⟩
      · exact HealthStatus.healthy_le _
      · exact le_worst h

theorem lookup_insert_eq (m : HealthMap) (name other : String) (s : HealthStatus) :
    (m.insert name s).lookup other = if other = name then some s else m.lookup other := by
  by_cases h : other = name
  · subst h
    simp
  · simp [h, AList.lookup_insert_ne h]

end HealthMap

end ServiceKernel
