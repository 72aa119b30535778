import ServiceKernel.Semantics.Execution

/-! Runs with a ghost beside the state: a value that is computed from the steps taken and
that the system itself neither stores nor reads. -/
namespace Execution

variable {State Label Ghost : Type*}

/-- A step of the system together with the update of the ghost. -/
def Ghosted (step : State → Label → State → Prop) (update : Ghost → State → Label → State → Ghost) :
    State × Ghost → Label → State × Ghost → Prop :=
  fun c label c' => step c.1 label c'.1 ∧ c'.2 = update c.2 c.1 label c'.1

variable {step : State → Label → State → Prop} {update : Ghost → State → Label → State → Ghost}
  {c c' : State × Ghost} {start finish : State} {ghost : Ghost} {labels : List Label}

/-- Without the ghost, what is left is a run of the system. -/
theorem Runs.forget (run : Runs (Ghosted step update) c labels c') :
    Runs step c.1 labels c'.1 := by
  induction run with
  | zero => exact Runs.zero _
  | succ prior last ih => exact Runs.succ ih last.1

/-- Every run of the system keeps a ghost. -/
theorem Runs.ghosted (run : Runs step start labels finish)
    (update : Ghost → State → Label → State → Ghost) (ghost : Ghost) :
    ∃ ghost', Runs (Ghosted step update) (start, ghost) labels (finish, ghost') := by
  induction run with
  | zero => exact ⟨ghost, Runs.zero _⟩
  | succ prior last ih =>
      obtain ⟨before, hPrior⟩ := ih
      exact ⟨update before _ _ _, Runs.succ hPrior ⟨last, rfl⟩⟩

theorem Reachable.forget (reach : Reachable (Ghosted step update) c c') :
    Reachable step c.1 c'.1 := by
  obtain ⟨labels, run⟩ := reach
  exact ⟨labels, run.forget⟩

/-- What relates the ghost to the state at the start, and is kept by every step from a
state that `base` holds of, relates them throughout. -/
theorem Reachable.ghost_invariant (base : State → Prop) (inv : State → Ghost → Prop)
    (reach : Reachable (Ghosted step update) (start, ghost) c)
    (hBase : ∀ s, Reachable step start s → base s) (hStart : inv start ghost)
    (hStep : ∀ s g label s', base s → inv s g → step s label s' → inv s' (update g s label s')) :
    inv c.1 c.2 := by
  obtain ⟨labels, run⟩ := reach
  induction run with
  | zero => exact hStart
  | succ prior last ih =>
      rw [last.2]
      exact hStep _ _ _ _ (hBase _ prior.forget.reachable) ih last.1

/-- The system and its ghost, executed. -/
def ghostedExec (exec : State → Label → Option State)
    (update : Ghost → State → Label → State → Ghost) (c : State × Ghost) (label : Label) :
    Option (State × Ghost) :=
  (exec c.1 label).map fun s' => (s', update c.2 c.1 label s')

theorem ghosted_of_exec {exec : State → Label → Option State} {label : Label}
    (h : ghostedExec exec update c label = some c') :
    Ghosted (fun s label s' => exec s label = some s') update c label c' := by
  obtain ⟨s', hExec, rfl⟩ := Option.map_eq_some_iff.mp h
  exact ⟨hExec, rfl⟩

end Execution
