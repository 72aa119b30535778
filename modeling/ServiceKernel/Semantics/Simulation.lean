import ServiceKernel.Semantics.Execution

/-! Forward simulation between two labelled transition relations. -/
namespace Execution

variable {State Label Abstract Act : Type*}

/-- If every step is matched by a run of the abstract relation, then every run is. What
relates the two may speak of what happened on either side so far. -/
theorem Runs.simulated {step : State → Label → State → Prop} {act : Abstract → Act → Abstract → Prop}
    (rel : List Label → List Act → State → Abstract → Prop) {start finish : State} {origin : Abstract}
    {labels : List Label} (run : Runs step start labels finish) (hStart : rel [] [] start origin)
    (hStep : ∀ past acts s a label s', rel past acts s a → step s label s' →
      ∃ more a', Runs act a more a' ∧ rel (past ++ [label]) (acts ++ more) s' a') :
    ∃ acts a, Runs act origin acts a ∧ rel labels acts finish a := by
  induction run with
  | zero => exact ⟨[], origin, Runs.zero _, hStart⟩
  | succ prior last ih =>
      obtain ⟨acts, a, hActs, hRel⟩ := ih
      obtain ⟨more, a', hMore, hRel'⟩ := hStep _ _ _ _ _ _ hRel last
      exact ⟨acts ++ more, a', hActs.trans hMore, hRel'⟩

/-- If every step is matched by some steps of the abstract relation, or by none, then every
reachable state is matched by a reachable one. -/
theorem Reachable.simulated {step : State → Label → State → Prop}
    {act : Abstract → Act → Abstract → Prop} (rel : State → Abstract → Prop) {start finish : State}
    {origin : Abstract} (reach : Reachable step start finish) (hStart : rel start origin)
    (hStep : ∀ s a label s', rel s a → step s label s' → ∃ a', Reachable act a a' ∧ rel s' a') :
    ∃ a, Reachable act origin a ∧ rel finish a := by
  refine reach.invariant (fun s => ∃ a, Reachable act origin a ∧ rel s a) ⟨origin, .refl _, hStart⟩ ?_
  rintro s label s' ⟨a, hReach, hRel⟩ hNext
  obtain ⟨a', hMore, hRel'⟩ := hStep s a label s' hRel hNext
  exact ⟨a', hReach.trans hMore, hRel'⟩

end Execution
