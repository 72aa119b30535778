import ServiceKernel.Kernel.Acceptance

/-! What a build that fails for a cycle reports: all that the sort could not place, so
the subsystems that lead to a cycle as well as those on one. -/
namespace ServiceKernel

open Execution Relation

section Left

variable {subsystems : List Subsystem} {cycle : List String}

/-- What is left over is what leads to a cycle. -/
theorem topoSort_cycle (hNames : (subsystems.map Subsystem.name).Nodup)
    (hSupplied : ∀ n d, DependsOn subsystems n d → d ∈ subsystems.map Subsystem.name)
    (h : topoSort subsystems = .error (.dependencyCycle cycle)) (name : String) :
    name ∈ cycle ↔ ∃ c, ReflTransGen (DependsOn subsystems) name c ∧
      TransGen (DependsOn subsystems) c c := by
  obtain ⟨sorted, left, hSame, -, -, hLeft, hOrdered, hWaits⟩ := topoSort_left hNames hSupplied h
  obtain rfl : cycle = left := by simpa using hSame
  constructor
  · exact exists_cycle hWaits
  · rintro ⟨c, hLeads, hCycle⟩
    rw [hLeft]
    induction hLeads using ReflTransGen.head_induction_on with
    | refl => exact ⟨cyclic_mem_names hCycle, fun hSorted => hOrdered.not_cyclic hSorted hCycle⟩
    | head hDep _ ih =>
        -- had it been sorted, its dependency would have been sorted before it
        refine ⟨hDep.mem_names, fun hSorted => ih.2 ?_⟩
        exact (hOrdered.backwards hSorted (TransGen.single hDep)).1

end Left

section Build

variable {b : KernelBuilder} {cycle : List String}

/-- Only the sort reports a cycle. -/
theorem build_cycle (h : b.build = .error (.dependencyCycle cycle)) :
    topoSort b.combined = .error (.dependencyCycle cycle) := by
  unfold KernelBuilder.build at h
  split at h
  · cases h
  split at h
  · cases h
  dsimp only at h
  split at h
  · cases h
  split at h
  · cases h
  split at h
  · rename_i hSort
    obtain rfl := Except.error.inj h
    exact hSort
  · cases h

/-- The error lists the subsystems that lead to a cycle. -/
theorem build_cycle_lists (h : b.build = .error (.dependencyCycle cycle)) (name : String) :
    name ∈ cycle ↔ ∃ c, ReflTransGen (DependsOn b.combined) name c ∧
      TransGen (DependsOn b.combined) c c := by
  obtain ⟨-, -, hNames, hSupplied, -⟩ := build_error h
  exact topoSort_cycle hNames (fun n d ⟨s, hMem, _, hDep⟩ => hSupplied s hMem d hDep)
    (build_cycle h) name

/-- All that is reported lies on a cycle just in case nothing else depends on one. -/
theorem cycle_reported_iff (h : b.build = .error (.dependencyCycle cycle)) :
    (∀ n ∈ cycle, TransGen (DependsOn b.combined) n n) ↔
      ∀ n d, DependsOn b.combined n d → TransGen (DependsOn b.combined) d d →
        TransGen (DependsOn b.combined) n n := by
  constructor
  · intro hAll n d hDep hCycle
    exact hAll n ((build_cycle_lists h n).mpr ⟨d, ReflTransGen.single hDep, hCycle⟩)
  · intro hNothingElse n hMem
    obtain ⟨c, hLeads, hCycle⟩ := (build_cycle_lists h n).mp hMem
    induction hLeads using ReflTransGen.head_induction_on with
    | refl => exact hCycle
    | head hDep _ ih => exact hNothingElse _ _ hDep (ih ((build_cycle_lists h _).mpr ⟨c, ‹_›, hCycle⟩))

/-- Two subsystems that depend on each other, and the builtins, which lead to neither. -/
def pairCycle : KernelBuilder :=
  ((KernelBuilder.new "app").withSubsystem "x" ["y"]).withSubsystem "y" ["x"]

theorem cycle_reported_pair : pairCycle.build = .error (.dependencyCycle ["x", "y"]) ∧
    ∀ n d, DependsOn pairCycle.combined n d → TransGen (DependsOn pairCycle.combined) d d →
      TransGen (DependsOn pairCycle.combined) n n := by
  have hBuild : pairCycle.build = .error (.dependencyCycle ["x", "y"]) := rfl
  have hForth : DependsOn pairCycle.combined "x" "y" :=
    ⟨.consumer "x" ["y"], by decide, rfl, by decide⟩
  have hBack : DependsOn pairCycle.combined "y" "x" :=
    ⟨.consumer "y" ["x"], by decide, rfl, by decide⟩
  refine ⟨hBuild, (cycle_reported_iff hBuild).mp ?_⟩
  intro n hMem
  rcases List.mem_pair.mp hMem with rfl | rfl
  · exact (TransGen.single hForth).tail hBack
  · exact (TransGen.single hBack).tail hForth

/-- A third one depends on such a pair: it is reported, though nothing depends on it. -/
theorem cycle_reported_downstream : ¬ ∀ (b : KernelBuilder) (cycle : List String),
    b.build = .error (.dependencyCycle cycle) → ∀ n ∈ cycle, TransGen (DependsOn b.combined) n n := by
  intro hAll
  let b := pairCycle.withSubsystem "z" ["x"]
  have hBuild : b.build = .error (.dependencyCycle ["x", "y", "z"]) := rfl
  have hCycle := hAll b _ hBuild "z" (by decide)
  obtain ⟨_, -, s, hMem, -, hDep⟩ := TransGen.tail'_iff.mp hCycle
  have hNone : ∀ s ∈ b.combined, "z" ∉ s.dependencies := by decide
  exact hNone s hMem hDep

end Build

end ServiceKernel
