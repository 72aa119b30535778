import ServiceKernel.Kernel.Acceptance

/-! The boot order goes by depth: the queue of the sort is first-in first-out and at any
time holds two neighbouring depths at most. -/
namespace ServiceKernel

open Execution

section Loop

variable {edges : String → List String} {names : List String} {depth : String → Nat}
  {dependents : String → List String} {indegree : String → Nat} {queue sorted first : List String}
  {name : String}

/-- What is sorted or queued stands by depth, and the depths in the queue are neighbours;
nothing was queued at depth zero but what the sort started with. -/
structure Levels (depth : String → Nat) (first queue sorted : List String) : Prop where
  rising : (sorted ++ queue).Pairwise fun n m => depth n ≤ depth m
  neighbours : ∀ n ∈ queue, ∀ m ∈ queue, depth m ≤ depth n + 1
  free : (sorted ++ queue).filter (fun n => depth n = 0) = first

/-- A node is queued when its deepest dependency is sorted. -/
theorem Levels.fresh_depth (h : Levels depth first (name :: queue) sorted) {n : String}
    (hDepth : depth n = depthOver depth (edges n)) (hEdge : name ∈ edges n)
    (hSorted : ∀ d ∈ edges n, d ∈ sorted ++ [name]) : depth n = depth name + 1 := by
  rw [hDepth]
  apply depthOver_deepest hEdge
  intro d hDep
  rcases List.mem_append.mp (hSorted d hDep) with hOld | hLast
  · exact (List.pairwise_append.mp h.rising).2.2 d hOld name List.mem_cons_self
  · rw [List.mem_singleton.mp hLast]

theorem Levels.pass (h : Levels depth first (name :: queue) sorted)
    (hSorting : Sorting edges names indegree (name :: queue) sorted)
    (hEdges : ∀ n, (dependents name).count n = (edges n).count name)
    (hDepth : ∀ n, edges n ≠ [] → depth n = depthOver depth (edges n)) :
    Levels depth first (releaseChildren indegree queue (dependents name)).2 (sorted ++ [name]) := by
  obtain ⟨fresh, hQueue, -, -, hFresh⟩ := hSorting.release hEdges
  have hNext : ∀ n ∈ fresh, depth n = depth name + 1 := by
    intro n hMem
    obtain ⟨hEdge, hWaits⟩ := (hFresh n).mp hMem
    rw [List.countP_eq_zero] at hWaits
    have hSorted : ∀ d ∈ edges n, d ∈ sorted ++ [name] := fun d hDep => by
      simpa [or_iff_not_imp_left] using hWaits d hDep
    exact h.fresh_depth (hDepth n (List.ne_nil_of_mem hEdge)) hEdge hSorted
  obtain ⟨-, hRest, hCross⟩ := List.pairwise_append.mp h.rising
  have hLeast : ∀ n ∈ queue, depth name ≤ depth n := (List.pairwise_cons.mp hRest).1
  have hMost : ∀ n ∈ sorted ++ name :: queue, depth n ≤ depth name + 1 := by
    intro n hMem
    rcases List.mem_append.mp hMem with hOld | hQueued
    · exact (hCross n hOld name List.mem_cons_self).trans (Nat.le_succ _)
    · exact h.neighbours name List.mem_cons_self n hQueued
  have hList : (sorted ++ [name]) ++ (queue ++ fresh) = (sorted ++ name :: queue) ++ fresh := by
    simp
  rw [hQueue]
  constructor
  · rw [hList, List.pairwise_append]
    refine ⟨h.rising, List.pairwise_of_forall_mem_list fun n hMem m hOther => ?_,
      fun n hOld m hMem => ?_⟩
    · rw [hNext n hMem, hNext m hOther]
    · rw [hNext m hMem]
      exact hMost n hOld
  · intro n hMem m hOther
    have hLow : depth name ≤ depth n := by
      rcases List.mem_append.mp hMem with hOld | hNew
      · exact hLeast n hOld
      · rw [hNext n hNew]
        exact Nat.le_succ _
    have hHigh : depth m ≤ depth name + 1 := by
      rcases List.mem_append.mp hOther with hOld | hNew
      · exact hMost m (List.mem_append_right _ (List.mem_cons_of_mem _ hOld))
      · rw [hNext m hNew]
    omega
  · rw [hList, List.filter_append, h.free]
    have hNone : fresh.filter (fun n => depth n = 0) = [] := by
      rw [List.filter_eq_nil_iff]
      intro n hMem
      rw [hNext n hMem]
      simp
    rw [hNone, List.append_nil]

theorem sortLoop_levels (passes : Nat) (h : Levels depth first queue sorted)
    (hSorting : Sorting edges names indegree queue sorted)
    (hEdges : ∀ d n, (dependents d).count n = (edges n).count d)
    (hNames : ∀ n, edges n ≠ [] → n ∈ names)
    (hDepth : ∀ n, edges n ≠ [] → depth n = depthOver depth (edges n)) :
    Levels depth first (sortLoop dependents passes indegree queue sorted).2.1
      (sortLoop dependents passes indegree queue sorted).2.2 := by
  induction passes generalizing indegree queue sorted with
  | zero => cases queue <;> exact h
  | succ passes ih =>
      cases queue with
      | nil => exact h
      | cons name queue =>
          exact ih (h.pass hSorting (hEdges name) hDepth) (hSorting.pass (hEdges name) hNames)

end Loop

section Depth

variable {subsystems : List Subsystem} {depth : String → Nat} {sorted : List String}

/-- A subsystem without dependencies has depth zero, any other is one deeper than the
deepest of its dependencies. -/
def IsDepth (subsystems : List Subsystem) (depth : String → Nat) : Prop :=
  ∀ s ∈ subsystems, depth s.name = depthOver depth s.dependencies

theorem IsDepth.of_edges (hNames : (subsystems.map Subsystem.name).Nodup)
    (h : IsDepth subsystems depth) {n : String} (hMem : n ∈ subsystems.map Subsystem.name) :
    depth n = depthOver depth (edgesOf subsystems n) := by
  obtain ⟨s, hSubsystem, rfl⟩ := List.mem_map.mp hMem
  rw [edgesOf_name hNames hSubsystem]
  exact h s hSubsystem

/-- Subsystems that can be sorted have depths. -/
theorem exists_isDepth (hNames : (subsystems.map Subsystem.name).Nodup)
    (h : topoSort subsystems = .ok sorted) : ∃ depth, IsDepth subsystems depth := by
  obtain ⟨hPerm, hOrdered⟩ := topoSort_ok hNames h
  obtain ⟨depth, hDepth⟩ := exists_depth (hPerm.nodup_iff.mpr hNames) hOrdered
  refine ⟨depth, fun s hMem => ?_⟩
  have hSame := hDepth s.name (hPerm.mem_iff.mpr (List.mem_map_of_mem hMem))
  rwa [edgesOf_name hNames hMem] at hSame

/-- The sort goes by depth, and keeps the order of what depends on nothing. -/
theorem topoSort_levels (hNames : (subsystems.map Subsystem.name).Nodup)
    (h : topoSort subsystems = .ok sorted) (hDepth : IsDepth subsystems depth) :
    sorted.Pairwise (fun n m => depth n ≤ depth m) ∧
      sorted.filter (fun n => depth n = 0) =
        (subsystems.map Subsystem.name).filter fun n => depth n = 0 := by
  have hTallies := SortMaps.ofSubsystems_tallies subsystems
  let maps := SortMaps.ofSubsystems subsystems
  let queue := (subsystems.filter fun s => maps.indegree s.name = 0).map Subsystem.name
  have hFree : ∀ n ∈ subsystems.map Subsystem.name, depth n = 0 ↔ maps.indegree n = 0 := by
    intro n hMem
    rw [hDepth.of_edges hNames hMem, depthOver_eq_zero_iff, (hTallies n).1, List.length_eq_zero_iff]
  have hQueue : queue = (subsystems.map Subsystem.name).filter fun n => depth n = 0 := by
    rw [List.filter_map]
    apply congrArg (List.map Subsystem.name)
    apply List.filter_congr
    intro s hMem
    simp [hFree s.name (List.mem_map_of_mem hMem)]
  have hZero : ∀ n ∈ queue, depth n = 0 := by
    intro n hMem
    rw [hQueue] at hMem
    simpa using (List.mem_filter.mp hMem).2
  have hStart : Levels depth queue queue [] := by
    constructor
    · apply List.pairwise_of_forall_mem_list
      intro n hMem m _
      rw [hZero n hMem]
      exact Nat.zero_le _
    · intro n _ m hMem
      rw [hZero m hMem]
      exact Nat.zero_le _
    · exact List.filter_eq_self.mpr fun n hMem => by simpa using hZero n hMem
  have hCounts := fun d n => (hTallies n).2 d
  have hEnd := sortLoop_levels subsystems.length hStart (sorting_start hNames) hCounts
    (fun n => mem_names_of_edges) fun n hEdges => hDepth.of_edges hNames (mem_names_of_edges hEdges)
  have hEmpty := (sortLoop_spec subsystems.length (sorting_start hNames) hCounts
    (fun n => mem_names_of_edges) (by simp)).1
  unfold topoSort at h
  dsimp only at h
  split at h
  · cases h
  · obtain rfl := Except.ok.inj h
    rw [hEmpty] at hEnd
    have hRising := hEnd.rising
    have hFirst := hEnd.free
    rw [List.append_nil] at hRising hFirst
    exact ⟨hRising, hFirst.trans hQueue⟩

/-- Lists of known subsystems with the same names are the same. -/
theorem eq_of_names (hNames : (subsystems.map Subsystem.name).Nodup) {left right : List Subsystem}
    (hLeft : ∀ s ∈ left, s ∈ subsystems) (hRight : ∀ s ∈ right, s ∈ subsystems)
    (h : left.map Subsystem.name = right.map Subsystem.name) : left = right := by
  have hIndexed : ∀ list : List Subsystem, (∀ s ∈ list, s ∈ subsystems) →
      (list.map Subsystem.name).map (indexByName subsystems) = list.map some := by
    intro list hKnown
    rw [List.map_map]
    apply List.map_congr_left
    intro s hMem
    exact (indexByName_some hNames).mpr ⟨hKnown s hMem, rfl⟩
  apply List.map_injective_iff.mpr (Option.some_injective Subsystem)
  rw [← hIndexed left hLeft, h, hIndexed right hRight]

end Depth

section Build

variable {b : KernelBuilder} {k : Kernel}

/-- The subsystems of a kernel that was built stand by depth; those that depend on
nothing stand in declaration order. -/
theorem boot_order_by_depth (h : b.build = .ok k) :
    (∃ depth, IsDepth b.combined depth) ∧ ∀ depth, IsDepth b.combined depth →
      k.subsystems.Pairwise (fun s t => depth s.name ≤ depth t.name) ∧
        k.subsystems.filter (fun s => depth s.name = 0) =
          b.combined.filter fun s => depth s.name = 0 := by
  obtain ⟨hNames, sorted, hSort, rfl⟩ := build_sorted h
  obtain ⟨hMap, hPerm⟩ := reorder_spec hNames (topoSort_ok hNames hSort).1
  refine ⟨exists_isDepth hNames hSort, fun depth hDepth => ?_⟩
  obtain ⟨hRising, hFree⟩ := topoSort_levels hNames hSort hDepth
  rw [← hMap] at hRising hFree
  refine ⟨?_, ?_⟩
  · rw [List.pairwise_map] at hRising
    exact hRising
  · apply eq_of_names hNames
    · exact fun s hMem => hPerm.mem_iff.mp (List.mem_filter.mp hMem).1
    · exact fun s hMem => (List.mem_filter.mp hMem).1
    · rw [List.filter_map, List.filter_map] at hFree
      exact hFree

def lateStore : KernelBuilder :=
  ((KernelBuilder.new "app").withSubsystem "cache" ["metrics"]).withSubsystem "store" []

/-- A subsystem that depends on nothing boots right after the lifecycle, though it is
registered last. -/
theorem boot_order_late_store : ∃ k, lateStore.build = .ok k ∧
    (k.subsystems.map Subsystem.name).take 2 = ["lifecycle", "store"] ∧
    ∀ depth, IsDepth lateStore.combined depth →
      k.subsystems.Pairwise fun s t => depth s.name ≤ depth t.name :=
  ⟨_, rfl, rfl, fun depth hDepth => ((boot_order_by_depth rfl).2 depth hDepth).1⟩

end Build

end ServiceKernel
