import ServiceKernel.Kernel.TopoSort
import ServiceKernel.Semantics.Acyclic

/-! Which kernels the builder accepts, and what it says of the others: it reports the
first thing that is wrong, and a cycle with every subsystem that lies on one. -/
namespace ServiceKernel

open Execution Relation

/-- A subsystem of this name declares the other among its dependencies. -/
def DependsOn (subsystems : List Subsystem) (name dep : String) : Prop :=
  ∃ s ∈ subsystems, s.name = name ∧ dep ∈ s.dependencies

section Graph

variable {subsystems : List Subsystem} {name dep : String}

theorem mem_edgesOf : dep ∈ edgesOf subsystems name ↔ DependsOn subsystems name dep := by
  simp [edgesOf, DependsOn, and_assoc]

theorem DependsOn.mem_names (h : DependsOn subsystems name dep) :
    name ∈ subsystems.map Subsystem.name := by
  obtain ⟨s, hMem, rfl, -⟩ := h
  exact List.mem_map_of_mem hMem

theorem cyclic_mem_names (h : TransGen (DependsOn subsystems) name name) :
    name ∈ subsystems.map Subsystem.name := by
  obtain ⟨_, hFirst, -⟩ := TransGen.head'_iff.mp h
  exact hFirst.mem_names

theorem Sorting.backwards {indegree : String → Nat} {queue sorted : List String}
    (h : Sorting (edgesOf subsystems) (subsystems.map Subsystem.name) indegree queue sorted) :
    Every (fun past n => ∀ d, DependsOn subsystems n d → d ∈ past) sorted :=
  h.ordered.mono fun _ _ hLaw d hDep => hLaw d (mem_edgesOf.mpr hDep)

theorem acyclic_of_topoSort {sorted : List String} (hNames : (subsystems.map Subsystem.name).Nodup)
    (h : topoSort subsystems = .ok sorted) : Acyclic (DependsOn subsystems) := by
  intro n hCycle
  obtain ⟨hPerm, hOrdered⟩ := topoSort_ok hNames h
  refine Every.not_cyclic (hOrdered.mono fun _ _ hLaw d hDep => hLaw d (mem_edgesOf.mpr hDep)) ?_ hCycle
  exact hPerm.mem_iff.mpr (cyclic_mem_names hCycle)

/-- A sort that fails lists what it could not place: some subsystems, each with a
dependency among them. -/
theorem topoSort_left {e : BuildError} (hNames : (subsystems.map Subsystem.name).Nodup)
    (hSupplied : ∀ n d, DependsOn subsystems n d → d ∈ subsystems.map Subsystem.name)
    (h : topoSort subsystems = .error e) :
    ∃ sorted left, e = .dependencyCycle left ∧ left ≠ [] ∧
      left.Sublist (subsystems.map Subsystem.name) ∧
      (∀ n, n ∈ left ↔ n ∈ subsystems.map Subsystem.name ∧ n ∉ sorted) ∧
      Every (fun past n => ∀ d, DependsOn subsystems n d → d ∈ past) sorted ∧
      ∀ n ∈ left, ∃ d ∈ left, DependsOn subsystems n d := by
  obtain ⟨indegree, sorted, hEnd, hResult⟩ := topoSort_sorting hNames
  rw [hResult] at h
  split at h
  · rename_i hLength
    obtain rfl := Except.error.inj h
    have hReady : ∀ n ∈ subsystems.map Subsystem.name, n ∈ sorted ↔ indegree n = 0 := by
      simpa using hEnd.ready
    let left := (subsystems.filter fun s => indegree s.name > 0).map Subsystem.name
    have hLeft : ∀ n, n ∈ left ↔ n ∈ subsystems.map Subsystem.name ∧ n ∉ sorted := by
      intro n
      constructor
      · intro hMem
        obtain ⟨s, hFilter, rfl⟩ := List.mem_map.mp hMem
        obtain ⟨hSubsystem, hPos⟩ := List.mem_filter.mp hFilter
        have hName := List.mem_map_of_mem (f := Subsystem.name) hSubsystem
        have hWaits : indegree s.name ≠ 0 := Nat.ne_of_gt (by simpa using hPos)
        exact ⟨hName, fun hSorted => hWaits ((hReady _ hName).mp hSorted)⟩
      · intro hMem
        obtain ⟨s, hSubsystem, rfl⟩ := List.mem_map.mp hMem.1
        have hWaits : indegree s.name ≠ 0 := fun hZero => hMem.2 ((hReady _ hMem.1).mpr hZero)
        exact List.mem_map_of_mem
          (List.mem_filter.mpr ⟨hSubsystem, by simpa using Nat.pos_of_ne_zero hWaits⟩)
    refine ⟨sorted, left, rfl, ?_, List.filter_sublist.map _, hLeft, hEnd.backwards, ?_⟩
    · intro hNone
      have hAll : ∀ n ∈ subsystems.map Subsystem.name, n ∈ sorted := fun n hMem => by
        by_contra hUnsorted
        have hMore := (hLeft n).mpr ⟨hMem, hUnsorted⟩
        rw [hNone] at hMore
        cases hMore
      have hDistinct : sorted.Nodup := by simpa using hEnd.distinct
      have hKnown : ∀ n ∈ sorted, n ∈ subsystems.map Subsystem.name := by simpa using hEnd.known
      have hMost := (List.subperm_of_subset hNames hAll).length_le
      have hLeast := (List.subperm_of_subset hDistinct hKnown).length_le
      rw [List.length_map] at hMost hLeast
      exact hLength (Nat.le_antisymm hLeast hMost)
    · intro n hMem
      obtain ⟨hName, hWaits⟩ := (hLeft n).mp hMem
      rw [hReady n hName, hEnd.waiting, List.countP_eq_zero] at hWaits
      push Not at hWaits
      obtain ⟨d, hEdge, hLater⟩ := hWaits
      have hDep := mem_edgesOf.mp hEdge
      exact ⟨d, (hLeft d).mpr ⟨hSupplied n d hDep, by simpa using hLater⟩, hDep⟩
  · cases h

/-- When the sort fails there is a cycle, and it lists all that lies on one. -/
theorem cyclic_of_topoSort {e : BuildError} (hNames : (subsystems.map Subsystem.name).Nodup)
    (hSupplied : ∀ n d, DependsOn subsystems n d → d ∈ subsystems.map Subsystem.name)
    (h : topoSort subsystems = .error e) :
    ¬ Acyclic (DependsOn subsystems) ∧ ∃ cycle, e = .dependencyCycle cycle ∧
      cycle.Sublist (subsystems.map Subsystem.name) ∧
      ∀ n, TransGen (DependsOn subsystems) n n → n ∈ cycle := by
  obtain ⟨sorted, left, rfl, hNonempty, hSub, hLeft, hOrdered, hWaits⟩ :=
    topoSort_left hNames hSupplied h
  refine ⟨fun hAcyclic => ?_, left, rfl, hSub, fun n hCycle => ?_⟩
  · obtain ⟨n, hMem, hIndependent⟩ := hAcyclic.exists_independent hNonempty
    obtain ⟨d, hNext, hDep⟩ := hWaits n hMem
    exact hIndependent d hNext hDep
  · rw [hLeft]
    exact ⟨cyclic_mem_names hCycle, fun hSorted => hOrdered.not_cyclic hSorted hCycle⟩

end Graph

section Checks

variable {names seen : List String} {subsystems : List Subsystem}

/-- The first name that repeats one before it. -/
theorem firstDuplicate_some {name : String} (h : firstDuplicate seen names = some name) :
    ∃ before after, names = before ++ name :: after ∧ (name ∈ before ∨ name ∈ seen) ∧
      before.Nodup ∧ ∀ n ∈ before, n ∉ seen := by
  induction names generalizing seen with
  | nil => cases h
  | cons first names ih =>
      simp only [firstDuplicate] at h
      split at h
      · rename_i hSeen
        obtain rfl := Option.some.inj h
        exact ⟨[], names, rfl, Or.inr hSeen, List.nodup_nil, by simp⟩
      · rename_i hFresh
        obtain ⟨before, after, rfl, hRepeats, hDistinct, hNew⟩ := ih h
        have hOther : first ∉ before := fun hMem => hNew first hMem (by simp)
        refine ⟨first :: before, after, rfl, ?_, List.nodup_cons.mpr ⟨hOther, hDistinct⟩, ?_⟩
        · rcases hRepeats with hBefore | hSeen
          · exact Or.inl (List.mem_cons_of_mem first hBefore)
          · rcases List.mem_cons.mp hSeen with rfl | hSeen
            · exact Or.inl List.mem_cons_self
            · exact Or.inr hSeen
        · intro n hMem
          rcases List.mem_cons.mp hMem with rfl | hBefore
          · exact hFresh
          · exact fun hSeen => hNew n hBefore (List.mem_cons_of_mem first hSeen)

theorem firstDuplicate_eq_none_iff : firstDuplicate [] names = none ↔ names.Nodup := by
  refine ⟨fun h => (firstDuplicate_none h).1, fun hDistinct => ?_⟩
  cases h : firstDuplicate [] names with
  | none => rfl
  | some name =>
      obtain ⟨before, after, rfl, hRepeats, -⟩ := firstDuplicate_some h
      have hBefore : name ∈ before := hRepeats.resolve_right (List.not_mem_nil)
      exact absurd rfl ((List.nodup_append.mp hDistinct).2.2 name hBefore name List.mem_cons_self)

theorem firstMissing_eq_none_iff :
    firstMissing names subsystems = none ↔ ∀ s ∈ subsystems, ∀ d ∈ s.dependencies, d ∈ names := by
  simp [firstMissing, List.findSome?_eq_none_iff, List.find?_eq_none]

theorem firstMissing_append {more : List Subsystem} (h : firstMissing names subsystems = none) :
    firstMissing names (subsystems ++ more) = firstMissing names more := by
  rw [firstMissing, List.findSome?_append]
  rw [firstMissing] at h
  rw [h]
  rfl

/-- The first subsystem with a dependency that is missing, and the first such of its. -/
theorem firstMissing_some {name dep : String} (h : firstMissing names subsystems = some (name, dep)) :
    ∃ before s after, subsystems = before ++ s :: after ∧ s.name = name ∧
      (∀ p ∈ before, ∀ d ∈ p.dependencies, d ∈ names) ∧
      ∃ front back, s.dependencies = front ++ dep :: back ∧ dep ∉ names ∧ ∀ d ∈ front, d ∈ names := by
  obtain ⟨before, s, after, rfl, hSome, hNone⟩ := List.findSome?_eq_some_iff.mp h
  obtain ⟨d, hFind, hPair⟩ := Option.map_eq_some_iff.mp hSome
  obtain ⟨rfl, rfl⟩ := Prod.mk.inj hPair
  obtain ⟨hMissing, front, back, hSplit, hFront⟩ := List.find?_eq_some_iff_append.mp hFind
  refine ⟨before, s, after, rfl, rfl, fun p hMem d hDep => ?_, front, back, hSplit,
    by simpa using hMissing, fun d hMem => by simpa using hFront d hMem⟩
  have hAll := hNone p hMem
  simp only [Option.map_eq_none_iff, List.find?_eq_none] at hAll
  simpa using hAll d hDep

end Checks

section Build

/-- All subsystems of a kernel before they are sorted. -/
def KernelBuilder.combined (b : KernelBuilder) : List Subsystem := boxedBuiltins ++ b.consumers

/-- What a builder must fulfil. -/
structure KernelBuilder.Accepted (b : KernelBuilder) : Prop where
  named : b.name ≠ ""
  unreserved : ∀ s ∈ b.consumers, s.name ∉ builtinNames
  distinct : (b.combined.map Subsystem.name).Nodup
  supplied : ∀ s ∈ b.combined, ∀ d ∈ s.dependencies, d ∈ b.combined.map Subsystem.name
  acyclic : Acyclic (DependsOn b.combined)

/-- The error names the first thing that is wrong with a builder, and the first consumer
in registration order with which it is. -/
def KernelBuilder.FirstFault (b : KernelBuilder) : BuildError → Prop
  | .emptyName => b.name = ""
  | .reservedName name => b.name ≠ "" ∧
      ∃ before s after, b.consumers = before ++ s :: after ∧ s.name = name ∧ name ∈ builtinNames ∧
        ∀ p ∈ before, p.name ∉ builtinNames
  | .duplicateSubsystem name => b.name ≠ "" ∧ (∀ s ∈ b.consumers, s.name ∉ builtinNames) ∧
      ∃ before s after, b.consumers = before ++ s :: after ∧ s.name = name ∧
        name ∈ before.map Subsystem.name ∧ (before.map Subsystem.name).Nodup
  | .missingDependency name dep => b.name ≠ "" ∧ (∀ s ∈ b.consumers, s.name ∉ builtinNames) ∧
      (b.combined.map Subsystem.name).Nodup ∧
      ∃ before s after, b.consumers = before ++ s :: after ∧ s.name = name ∧
        (∀ p ∈ before, ∀ d ∈ p.dependencies, d ∈ b.combined.map Subsystem.name) ∧
        ∃ front back, s.dependencies = front ++ dep :: back ∧
          dep ∉ b.combined.map Subsystem.name ∧ ∀ d ∈ front, d ∈ b.combined.map Subsystem.name
  | .dependencyCycle cycle => b.name ≠ "" ∧ (∀ s ∈ b.consumers, s.name ∉ builtinNames) ∧
      (b.combined.map Subsystem.name).Nodup ∧
      (∀ s ∈ b.combined, ∀ d ∈ s.dependencies, d ∈ b.combined.map Subsystem.name) ∧
      ¬ Acyclic (DependsOn b.combined) ∧ cycle.Sublist (b.combined.map Subsystem.name) ∧
      ∀ n, TransGen (DependsOn b.combined) n n → n ∈ cycle

variable {b : KernelBuilder}

theorem builtins_supplied : ∀ s ∈ boxedBuiltins, ∀ d ∈ s.dependencies, d ∈ builtinNames := by
  decide

/-- A name that repeats an earlier one is the name of a consumer. -/
theorem duplicate_in_consumers {before after : List String} {name : String}
    (hUnreserved : ∀ s ∈ b.consumers, s.name ∉ builtinNames)
    (hSplit : b.combined.map Subsystem.name = before ++ name :: after) (hRepeats : name ∈ before)
    (hDistinct : before.Nodup) :
    ∃ front s back, b.consumers = front ++ s :: back ∧ s.name = name ∧
      name ∈ front.map Subsystem.name ∧ (front.map Subsystem.name).Nodup := by
  rw [KernelBuilder.combined, List.map_append, boxedBuiltins_names] at hSplit
  rcases List.append_eq_append_iff.mp hSplit with
    ⟨middle, rfl, hConsumers⟩ | ⟨middle, hBuiltins, hLater⟩
  · obtain ⟨front, rest, hFront, rfl, hRest⟩ := List.map_eq_append_iff.mp hConsumers
    obtain ⟨s, back, rfl, hName, -⟩ := List.map_eq_cons_iff.mp hRest
    have hKnown : name ∉ builtinNames := hName ▸ hUnreserved s (by simp [hFront])
    exact ⟨front, s, back, hFront, hName, (List.mem_append.mp hRepeats).resolve_left hKnown,
      (List.nodup_append.mp hDistinct).2.1⟩
  · have hKnown : name ∈ builtinNames := by
      rw [hBuiltins]
      exact List.mem_append_left middle hRepeats
    cases middle with
    | nil =>
        have hConsumer : name ∈ b.consumers.map Subsystem.name := by
          rw [List.nil_append] at hLater
          rw [← hLater]
          exact List.mem_cons_self
        obtain ⟨s, hMem, rfl⟩ := List.mem_map.mp hConsumer
        exact absurd hKnown (hUnreserved s hMem)
    | cons first rest =>
        obtain ⟨rfl, -⟩ := List.cons.inj hLater
        have hBuiltinNames : builtinNames.Nodup := by decide
        rw [hBuiltins] at hBuiltinNames
        exact absurd rfl
          ((List.nodup_append.mp hBuiltinNames).2.2 name hRepeats name List.mem_cons_self)

/-- A failed build reports the first fault. -/
theorem build_error {e : BuildError} (h : b.build = .error e) : b.FirstFault e := by
  unfold KernelBuilder.build at h
  split at h
  · rename_i hName
    obtain rfl := Except.error.inj h
    exact hName
  rename_i hName
  split at h
  · rename_i s hFind
    obtain rfl := Except.error.inj h
    obtain ⟨hReserved, before, after, hSplit, hBefore⟩ := List.find?_eq_some_iff_append.mp hFind
    exact ⟨hName, before, s, after, hSplit, rfl, by simpa using hReserved,
      fun p hMem => by simpa using hBefore p hMem⟩
  rename_i hFind
  have hUnreserved : ∀ s ∈ b.consumers, s.name ∉ builtinNames := fun s hMem => by
    simpa using List.find?_eq_none.mp hFind s hMem
  dsimp only at h
  split at h
  · rename_i name hDuplicate
    obtain rfl := Except.error.inj h
    obtain ⟨before, after, hSplit, hRepeats, hDistinct, -⟩ := firstDuplicate_some hDuplicate
    exact ⟨hName, hUnreserved, duplicate_in_consumers hUnreserved hSplit
      (hRepeats.resolve_right List.not_mem_nil) hDistinct⟩
  rename_i hDuplicate
  have hDistinct := firstDuplicate_eq_none_iff.mp hDuplicate
  split at h
  · rename_i name dep hMissing
    obtain rfl := Except.error.inj h
    rw [firstMissing_append (firstMissing_eq_none_iff.mpr fun s hMem d hDep => by
      rw [List.map_append, boxedBuiltins_names]
      exact List.mem_append_left _ (builtins_supplied s hMem d hDep))] at hMissing
    exact ⟨hName, hUnreserved, hDistinct, firstMissing_some hMissing⟩
  rename_i hMissing
  have hSupplied := firstMissing_eq_none_iff.mp hMissing
  split at h
  · rename_i e' hSort
    obtain rfl := Except.error.inj h
    obtain ⟨hCyclic, cycle, rfl, hSub, hCycle⟩ := cyclic_of_topoSort hDistinct
      (fun n d ⟨s, hMem, _, hDep⟩ => hSupplied s hMem d hDep) hSort
    exact ⟨hName, hUnreserved, hDistinct, hSupplied, hCyclic, hSub, hCycle⟩
  · cases h

theorem KernelBuilder.Accepted.no_fault (h : b.Accepted) (e : BuildError) : ¬ b.FirstFault e := by
  intro hFault
  cases e with
  | emptyName => exact h.named hFault
  | reservedName name =>
      obtain ⟨-, before, s, after, hSplit, rfl, hReserved, -⟩ := hFault
      exact h.unreserved s (by simp [hSplit]) hReserved
  | duplicateSubsystem name =>
      obtain ⟨-, -, before, s, after, hSplit, rfl, hRepeats, -⟩ := hFault
      have hDistinct := h.distinct
      rw [KernelBuilder.combined, List.map_append, hSplit, List.map_append] at hDistinct
      have hConsumers := (List.nodup_append.mp hDistinct).2.1
      exact (List.nodup_append.mp hConsumers).2.2 _ hRepeats _ (by simp) rfl
  | missingDependency name dep =>
      obtain ⟨-, -, -, before, s, after, hSplit, -, -, front, back, hDeps, hMissing, -⟩ := hFault
      have hMem : s ∈ b.combined := List.mem_append_right _ (by simp [hSplit])
      exact hMissing (h.supplied s hMem dep (by simp [hDeps]))
  | dependencyCycle cycle =>
      obtain ⟨-, -, -, -, hCyclic, -⟩ := hFault
      exact hCyclic h.acyclic

theorem build_ok_iff : (∃ k, b.build = .ok k) ↔ b.Accepted := by
  constructor
  · rintro ⟨k, h⟩
    unfold KernelBuilder.build at h
    split at h
    · cases h
    rename_i hName
    split at h
    · cases h
    rename_i hFind
    dsimp only at h
    split at h
    · cases h
    rename_i hDuplicate
    split at h
    · cases h
    rename_i hMissing
    split at h
    · cases h
    rename_i sorted hSort
    have hDistinct := firstDuplicate_eq_none_iff.mp hDuplicate
    exact ⟨hName, fun s hMem => by simpa using List.find?_eq_none.mp hFind s hMem, hDistinct,
      firstMissing_eq_none_iff.mp hMissing, acyclic_of_topoSort hDistinct hSort⟩
  · intro hAccepted
    cases hBuild : b.build with
    | ok k => exact ⟨k, rfl⟩
    | error e => exact absurd (build_error hBuild) (hAccepted.no_fault e)

/-- The builder accepts exactly the well-formed graphs, keeps every subsystem and puts it
after its dependencies; otherwise it reports the first fault. -/
theorem build_accepts_iff (b : KernelBuilder) :
    ((∃ k, b.build = .ok k) ↔ b.Accepted) ∧
      (∀ k, b.build = .ok k → k.subsystems.Perm b.combined ∧
        Every (fun past s => ∀ d ∈ s.dependencies, ∃ p ∈ past, p.name = d) k.subsystems) ∧
      ∀ e, b.build = .error e → b.FirstFault e :=
  ⟨build_ok_iff, fun _ h => ⟨(build_wellFormed h).members, (build_wellFormed h).ordered⟩,
    fun _ => build_error⟩

end Build

end ServiceKernel
