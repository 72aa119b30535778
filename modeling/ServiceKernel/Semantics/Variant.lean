import ServiceKernel.Semantics.Execution

/-! Runs that come to an end. A variant falls in every step that counts and rises in none,
so a run has no more such steps than the variant has room for. -/
namespace Execution

variable {State Label : Type*}

/-- Among the states of `inv`, the variant falls in the steps that count and rises in none. -/
structure Variant (step : State → Label → State → Prop) (counts : Label → Bool)
    (inv : State → Prop) (left : State → Nat) : Prop where
  keeps : ∀ s label s', inv s → step s label s' → inv s'
  falls : ∀ s label s', inv s → step s label s' → counts label = true → left s' < left s
  holds : ∀ s label s', inv s → step s label s' → counts label = false → left s' ≤ left s

variable {step : State → Label → State → Prop} {counts : Label → Bool} {inv : State → Prop}
  {left : State → Nat} {start finish : State} {labels : List Label}

/-- The steps that count are paid for by the variant. -/
theorem Variant.bound (V : Variant step counts inv left) (hStart : inv start)
    (run : Runs step start labels finish) :
    inv finish ∧ labels.countP counts + left finish ≤ left start := by
  induction run with
  | zero => simpa using hStart
  | @succ middle finish labels label prior last ih =>
      obtain ⟨hInv, hPaid⟩ := ih
      refine ⟨V.keeps _ _ _ hInv last, ?_⟩
      rw [List.countP_append, List.countP_singleton]
      cases hCounts : counts label with
      | true =>
          have hFalls := V.falls _ _ _ hInv last hCounts
          simp only [if_true]
          omega
      | false =>
          have hHolds := V.holds _ _ _ hInv last hCounts
          simp only [Bool.false_eq_true, if_false]
          omega

/-- Where a step that counts can be taken short of the goal, the goal is attained by such
steps alone. -/
theorem Variant.attains (V : Variant step counts inv left) (goal : State → Prop)
    (hNext : ∀ s, inv s → ¬ goal s → ∃ label s', counts label = true ∧ step s label s')
    (hStart : inv start) :
    ∃ labels finish, Runs (Restrict step fun _ label => counts label = true) start labels finish ∧
      goal finish := by
  induction hLeft : left start using Nat.strongRecOn generalizing start with
  | _ n ih =>
      by_cases hGoal : goal start
      · exact ⟨[], start, Runs.zero start, hGoal⟩
      · obtain ⟨label, middle, hCounts, hStep⟩ := hNext start hStart hGoal
        have hFalls : left middle < n := hLeft ▸ V.falls _ _ _ hStart hStep hCounts
        obtain ⟨labels, finish, run, hAttained⟩ :=
          ih _ hFalls (V.keeps _ _ _ hStart hStep) rfl
        exact ⟨label :: labels, finish, Runs.cons ⟨hStep, hCounts⟩ run, hAttained⟩

end Execution
