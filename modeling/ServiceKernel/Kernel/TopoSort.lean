import Mathlib.Data.List.Perm.Subperm
import ServiceKernel.Kernel.Builder
import ServiceKernel.Semantics.History

/-! The boot order: a kernel that was built runs its subsystems in an order where
every one comes after all that it depends on, each exactly once. -/
namespace ServiceKernel

open Execution

/-- Every dependency declared under a name, with repetitions. -/
def edgesOf (subsystems : List Subsystem) (name : String) : List String :=
  (subsystems.filter fun s => s.name = name).flatMap Subsystem.dependencies

section Maps

/-- The maps record these edges: how many each node has, and how often each
appears among the dependents of its target. -/
def SortMaps.Tallies (m : SortMaps) (edges : String → List String) : Prop :=
  ∀ n, m.indegree n = (edges n).length ∧ ∀ d, (m.dependents d).count n = (edges n).count d

variable {m : SortMaps} {edges : String → List String}

theorem SortMaps.Tallies.addEdge (h : m.Tallies edges) (name dep : String) :
    (m.addEdge name dep).Tallies (Function.update edges name (edges name ++ [dep])) := by
  intro n
  rcases eq_or_ne n name with rfl | hNode
  · refine ⟨by simp [SortMaps.addEdge, (h n).1], fun d => ?_⟩
    rcases eq_or_ne d dep with rfl | hDep
    · simp [SortMaps.addEdge, (h n).2]
    · simp [SortMaps.addEdge, hDep, hDep.symm, (h n).2]
  · refine ⟨by simp [SortMaps.addEdge, hNode, (h n).1], fun d => ?_⟩
    rcases eq_or_ne d dep with rfl | hDep
    · simp [SortMaps.addEdge, hNode, hNode.symm, (h n).2]
    · simp [SortMaps.addEdge, hNode, hDep, (h n).2]

theorem SortMaps.Tallies.addEdges (h : m.Tallies edges) (name : String) (deps : List String) :
    (deps.foldl (fun m dep => m.addEdge name dep) m).Tallies
      (Function.update edges name (edges name ++ deps)) := by
  induction deps generalizing m edges with
  | nil => simpa using h
  | cons dep deps ih =>
      have hNext := ih (h.addEdge name dep)
      simpa [Function.update_idem] using hNext

theorem SortMaps.Tallies.addSubsystems (h : m.Tallies edges) (subsystems : List Subsystem) :
    (subsystems.foldl (fun m s => s.dependencies.foldl (fun m dep => m.addEdge s.name dep) m)
      m).Tallies fun n => edges n ++ edgesOf subsystems n := by
  induction subsystems generalizing m edges with
  | nil => simpa [edgesOf] using h
  | cons s subsystems ih =>
      have hNext := ih (h.addEdges s.name s.dependencies)
      intro n
      rcases eq_or_ne s.name n with rfl | hName
      · simpa [edgesOf, List.append_assoc] using hNext s.name
      · simpa [edgesOf, hName, hName.symm] using hNext n

theorem SortMaps.ofSubsystems_tallies (subsystems : List Subsystem) :
    (SortMaps.ofSubsystems subsystems).Tallies (edgesOf subsystems) := by
  have hEmpty : SortMaps.empty.Tallies fun _ => [] := fun n => by simp [SortMaps.empty]
  simpa [SortMaps.ofSubsystems] using hEmpty.addSubsystems subsystems

end Maps

section Kahn

/-- What a pass over the dependents of a sorted node does: it uses up their edges
to it and queues each of them whose last edge that was. -/
theorem releaseChildren_spec {indegree : String → Nat} (queue : List String) {children : List String}
    (hCount : ∀ n, children.count n ≤ indegree n) :
    ∃ fresh, (releaseChildren indegree queue children).2 = queue ++ fresh ∧
      (∀ n, (releaseChildren indegree queue children).1 n + children.count n = indegree n) ∧
      fresh.Nodup ∧
      ∀ n, n ∈ fresh ↔
        0 < children.count n ∧ (releaseChildren indegree queue children).1 n = 0 := by
  induction children generalizing indegree queue with
  | nil => exact ⟨[], by simp [releaseChildren]⟩
  | cons child children ih =>
      have hPos : 0 < indegree child := by
        have := hCount child
        simp only [List.count_cons_self] at this
        omega
      let rest := Function.update indegree child (indegree child - 1)
      have hRest : ∀ n, rest n + (if n = child then 1 else 0) = indegree n := by
        intro n
        rcases eq_or_ne n child with rfl | hne
        · simp only [rest, Function.update_self, if_true]
          omega
        · simp [rest, hne]
      have hLe : ∀ n, children.count n ≤ rest n := by
        intro n
        have hCons := hCount n
        have hSplit := hRest n
        rw [List.count_cons] at hCons
        rcases eq_or_ne n child with rfl | hne
        · simp at hCons hSplit
          omega
        · simp [hne.symm] at hCons
          simp [hne] at hSplit
          omega
      have hUnfold : ∀ q, releaseChildren indegree q (child :: children) =
          releaseChildren rest (if rest child = 0 then q ++ [child] else q) children := by
        intro q
        simp [releaseChildren, hPos, rest]
      obtain ⟨fresh, hQueue, hLeft, hNodup, hFresh⟩ :=
        ih (if rest child = 0 then queue ++ [child] else queue) hLe
      rw [hUnfold]
      have hSum : ∀ n, (releaseChildren rest (if rest child = 0 then queue ++ [child] else queue)
          children).1 n + (child :: children).count n = indegree n := by
        intro n
        rw [← hRest n, ← hLeft n, List.count_cons]
        rcases eq_or_ne n child with rfl | hne
        · simp
          omega
        · simp [hne, hne.symm]
      by_cases hZero : rest child = 0
      · have hNone : children.count child = 0 := Nat.le_zero.mp (hZero ▸ hLe child)
        have hEnd := hLeft child
        simp only [hZero, if_true] at hQueue hLeft hFresh hSum hEnd ⊢
        refine ⟨child :: fresh, by simp [hQueue], hSum, ?_, fun n => ?_⟩
        · refine List.nodup_cons.mpr ⟨fun hMem => ?_, hNodup⟩
          have := ((hFresh child).mp hMem).1
          omega
        · rw [List.mem_cons, hFresh, List.count_cons]
          rcases eq_or_ne n child with rfl | hne
          · simp
            omega
          · simp [hne, hne.symm]
      · simp only [hZero, if_false] at hQueue hLeft hFresh hSum ⊢
        refine ⟨fresh, hQueue, hSum, hNodup, fun n => ?_⟩
        rw [hFresh, List.count_cons]
        rcases eq_or_ne n child with rfl | hne
        · have hEnd := hLeft n
          simp only [beq_self_eq_true, if_true]
          omega
        · simp [hne.symm]

/-- Where the sort stands: the nodes already sorted come after their dependencies,
the queue holds those with nothing left to wait for, and every other node waits
for its edges to unsorted nodes. -/
structure Sorting (edges : String → List String) (names : List String)
    (indegree : String → Nat) (queue sorted : List String) : Prop where
  distinct : (sorted ++ queue).Nodup
  known : ∀ n ∈ sorted ++ queue, n ∈ names
  waiting : ∀ n, indegree n = (edges n).countP (· ∉ sorted)
  ready : ∀ n ∈ names, n ∈ sorted ++ queue ↔ indegree n = 0
  ordered : Every (fun past n => ∀ d ∈ edges n, d ∈ past) sorted

variable {edges : String → List String} {names : List String}
  {dependents : String → List String} {indegree : String → Nat} {queue sorted : List String}
  {name : String}

theorem countP_notMem_append (list sorted : List String) (hName : name ∉ sorted) :
    list.countP (· ∉ sorted ++ [name]) + list.count name = list.countP (· ∉ sorted) := by
  induction list with
  | nil => simp
  | cons d list ih =>
      rcases eq_or_ne d name with rfl | hne
      · simp only [List.countP_cons, List.count_cons_self]
        simp [hName] at ih ⊢
        omega
      · simp only [List.countP_cons]
        simp [hne] at ih ⊢
        omega

theorem Sorting.unsorted (h : Sorting edges names indegree (name :: queue) sorted) : name ∉ sorted :=
  fun hMem => (List.nodup_append.mp h.distinct).2.2 name hMem name (by simp) rfl

/-- The node at the head of the queue queues those that waited for it only. -/
theorem Sorting.release (h : Sorting edges names indegree (name :: queue) sorted)
    (hEdges : ∀ n, (dependents name).count n = (edges n).count name) :
    ∃ fresh, (releaseChildren indegree queue (dependents name)).2 = queue ++ fresh ∧
      (∀ n, (releaseChildren indegree queue (dependents name)).1 n =
        (edges n).countP (· ∉ sorted ++ [name])) ∧
      fresh.Nodup ∧
      ∀ n, n ∈ fresh ↔ name ∈ edges n ∧ (edges n).countP (· ∉ sorted ++ [name]) = 0 := by
  have hCount : ∀ n, (dependents name).count n ≤ indegree n := by
    intro n
    have hSplit := countP_notMem_append (edges n) sorted h.unsorted
    rw [hEdges, h.waiting, ← hSplit]
    exact Nat.le_add_left _ _
  obtain ⟨fresh, hQueue, hSum, hNodup, hFresh⟩ := releaseChildren_spec queue hCount
  have hLeft : ∀ n, (releaseChildren indegree queue (dependents name)).1 n =
      (edges n).countP (· ∉ sorted ++ [name]) := by
    intro n
    have hSplit := countP_notMem_append (edges n) sorted h.unsorted
    have hBefore := hSum n
    rw [hEdges, h.waiting] at hBefore
    omega
  refine ⟨fresh, hQueue, hLeft, hNodup, fun n => ?_⟩
  rw [hFresh, hLeft, hEdges, List.count_pos_iff]

/-- One pass of the loop sorts the node at the head of the queue. -/
theorem Sorting.pass (h : Sorting edges names indegree (name :: queue) sorted)
    (hEdges : ∀ n, (dependents name).count n = (edges n).count name)
    (hNames : ∀ n, edges n ≠ [] → n ∈ names) :
    Sorting edges names (releaseChildren indegree queue (dependents name)).1
      (releaseChildren indegree queue (dependents name)).2 (sorted ++ [name]) := by
  obtain ⟨fresh, hQueue, hLeft, hNodup, hFresh⟩ := h.release hEdges
  have hKnown : ∀ n ∈ fresh, n ∈ names := fun n hMem =>
    hNames n (List.ne_nil_of_mem ((hFresh n).mp hMem).1)
  have hNew : ∀ n ∈ fresh, n ∉ sorted ++ name :: queue := by
    intro n hMem hOld
    have hZero := (h.ready n (hKnown n hMem)).mp hOld
    rw [h.waiting, List.countP_eq_zero] at hZero
    exact hZero name ((hFresh n).mp hMem).1 (by simpa using h.unsorted)
  have hList : (sorted ++ [name]) ++ (queue ++ fresh) = (sorted ++ name :: queue) ++ fresh := by
    simp
  rw [hQueue]
  refine ⟨?_, ?_, fun n => ?_, fun n hMem => ?_, ?_⟩
  · rw [hList]
    refine List.nodup_append.mpr ⟨h.distinct, hNodup, ?_⟩
    rintro a hOld b hFreshMem rfl
    exact hNew a hFreshMem hOld
  · rw [hList]
    intro n hMem
    rcases List.mem_append.mp hMem with hOld | hFreshMem
    · exact h.known n hOld
    · exact hKnown n hFreshMem
  · exact hLeft n
  · rw [hList, List.mem_append, h.ready n hMem, hFresh, hLeft, h.waiting]
    have hSplit := countP_notMem_append (edges n) sorted h.unsorted
    have hEdge : name ∈ edges n ↔ 0 < (edges n).count name := List.count_pos_iff.symm
    rw [hEdge]
    omega
  · refine every_concat.mpr ⟨h.ordered, fun d hDep => ?_⟩
    have hZero := (h.ready name (h.known name (by simp))).mp (by simp)
    rw [h.waiting, List.countP_eq_zero] at hZero
    simpa using hZero d hDep

/-- The loop ends with an empty queue. -/
theorem sortLoop_spec (passes : Nat) (h : Sorting edges names indegree queue sorted)
    (hEdges : ∀ d n, (dependents d).count n = (edges n).count d)
    (hNames : ∀ n, edges n ≠ [] → n ∈ names) (hPasses : names.length ≤ sorted.length + passes) :
    (sortLoop dependents passes indegree queue sorted).2.1 = [] ∧
      Sorting edges names (sortLoop dependents passes indegree queue sorted).1 []
        (sortLoop dependents passes indegree queue sorted).2.2 := by
  induction passes generalizing indegree queue sorted with
  | zero =>
      cases queue with
      | nil => exact ⟨rfl, h⟩
      | cons name queue =>
          have hLength := (List.subperm_of_subset h.distinct h.known).length_le
          simp at hLength hPasses
          omega
  | succ passes ih =>
      cases queue with
      | nil => exact ⟨rfl, h⟩
      | cons name queue =>
          apply ih (h.pass (hEdges name) hNames)
          simp
          omega

/-- What is sorted stays in front. -/
theorem sortLoop_prefix (dependents : String → List String) (passes : Nat)
    (indegree : String → Nat) (queue sorted : List String) :
    sorted <+: (sortLoop dependents passes indegree queue sorted).2.2 := by
  induction passes generalizing indegree queue sorted with
  | zero => cases queue <;> exact List.prefix_refl sorted
  | succ passes ih =>
      cases queue with
      | nil => exact List.prefix_refl sorted
      | cons name queue => exact (List.prefix_append sorted [name]).trans (ih _ _ _)

end Kahn

section Reorder

variable {subsystems : List Subsystem}

theorem edgesOf_name (hNames : (subsystems.map Subsystem.name).Nodup) {s : Subsystem}
    (hMem : s ∈ subsystems) : edgesOf subsystems s.name = s.dependencies := by
  induction subsystems with
  | nil => cases hMem
  | cons first rest ih =>
      obtain ⟨hFirst, hRest⟩ := List.nodup_cons.mp hNames
      rcases List.mem_cons.mp hMem with rfl | hLater
      · have hNone : rest.filter (fun other => other.name = s.name) = [] := by
          simp only [List.filter_eq_nil_iff, decide_eq_true_eq]
          intro other hOther hSame
          exact hFirst (hSame ▸ List.mem_map_of_mem hOther)
        simp [edgesOf, hNone]
      · have hOther : first.name ≠ s.name := fun hSame =>
          hFirst (hSame ▸ List.mem_map_of_mem hLater)
        have hSkip : edgesOf (first :: rest) s.name = edgesOf rest s.name := by
          simp [edgesOf, hOther]
        rw [hSkip, ih hRest hLater]

theorem mem_names_of_edges {n : String} (h : edgesOf subsystems n ≠ []) :
    n ∈ subsystems.map Subsystem.name := by
  obtain ⟨d, hDep⟩ := List.exists_mem_of_ne_nil _ h
  simp only [edgesOf, List.mem_flatMap, List.mem_filter, decide_eq_true_eq] at hDep
  obtain ⟨s, ⟨hMem, rfl⟩, -⟩ := hDep
  exact List.mem_map_of_mem hMem

/-- Where the sort starts: what depends on nothing is queued, in declaration order. -/
theorem sorting_start (hNames : (subsystems.map Subsystem.name).Nodup) :
    Sorting (edgesOf subsystems) (subsystems.map Subsystem.name)
      (SortMaps.ofSubsystems subsystems).indegree
      ((subsystems.filter fun s => (SortMaps.ofSubsystems subsystems).indegree s.name = 0).map
        Subsystem.name) [] := by
  have hTallies := SortMaps.ofSubsystems_tallies subsystems
  have hSub := (List.filter_sublist (l := subsystems)
    (p := fun s => (SortMaps.ofSubsystems subsystems).indegree s.name = 0)).map Subsystem.name
  refine ⟨hNames.sublist hSub, fun n hMem => hSub.subset hMem, fun n => ?_, fun n hMem => ?_,
    every_nil⟩
  · simp [(hTallies n).1]
  · constructor
    · intro hQueue
      obtain ⟨s, hFilter, rfl⟩ := List.mem_map.mp hQueue
      simpa using (List.mem_filter.mp hFilter).2
    · intro hZero
      obtain ⟨s, hSubsystem, rfl⟩ := List.mem_map.mp hMem
      exact List.mem_map_of_mem (List.mem_filter.mpr ⟨hSubsystem, by simpa using hZero⟩)

/-- How the sort ends: nothing is queued, and it fails if some node is left over. -/
theorem topoSort_sorting (hNames : (subsystems.map Subsystem.name).Nodup) :
    ∃ indegree sorted, Sorting (edgesOf subsystems) (subsystems.map Subsystem.name) indegree [] sorted ∧
      topoSort subsystems = if sorted.length ≠ subsystems.length then
          .error (.dependencyCycle
            ((subsystems.filter fun s => indegree s.name > 0).map Subsystem.name))
        else .ok sorted := by
  have hTallies := SortMaps.ofSubsystems_tallies subsystems
  obtain ⟨-, hEnd⟩ := sortLoop_spec subsystems.length (sorting_start hNames)
    (fun d n => (hTallies n).2 d) (fun n => mem_names_of_edges) (by simp)
  exact ⟨_, _, hEnd, rfl⟩

/-- A sort that succeeds lists every name once, after the names it depends on. -/
theorem topoSort_ok {sorted : List String} (hNames : (subsystems.map Subsystem.name).Nodup)
    (h : topoSort subsystems = .ok sorted) :
    sorted.Perm (subsystems.map Subsystem.name) ∧
      Every (fun past n => ∀ d ∈ edgesOf subsystems n, d ∈ past) sorted := by
  obtain ⟨indegree, listed, hEnd, hResult⟩ := topoSort_sorting hNames
  rw [hResult] at h
  split at h
  · cases h
  · rename_i hLength
    obtain rfl := Except.ok.inj h
    have hDistinct : listed.Nodup := by simpa using hEnd.distinct
    have hKnown := hEnd.known
    simp only [List.append_nil] at hKnown
    have hEnough : (subsystems.map Subsystem.name).length ≤ listed.length := by
      simpa using (not_not.mp hLength).ge
    exact ⟨(List.subperm_of_subset hDistinct hKnown).perm_of_length_le hEnough, hEnd.ordered⟩

/-- A subsystem that is registered first and depends on nothing comes first. -/
theorem topoSort_first {first : Subsystem} {rest : List Subsystem} {sorted : List String}
    (hNames : ((first :: rest).map Subsystem.name).Nodup) (hFree : first.dependencies = [])
    (h : topoSort (first :: rest) = .ok sorted) : [first.name] <+: sorted := by
  have hEdges := edgesOf_name hNames List.mem_cons_self
  have hZero : (SortMaps.ofSubsystems (first :: rest)).indegree first.name = 0 := by
    rw [(SortMaps.ofSubsystems_tallies _ _).1, hEdges, hFree]
    rfl
  unfold topoSort at h
  dsimp only at h
  rw [List.filter_cons_of_pos (by simpa using hZero)] at h
  simp only [List.map_cons, List.length_cons, sortLoop] at h
  split at h
  · cases h
  · obtain rfl := Except.ok.inj h
    exact sortLoop_prefix ..

theorem indexByName_some (hNames : (subsystems.map Subsystem.name).Nodup) {n : String}
    {s : Subsystem} : indexByName subsystems n = some s ↔ s ∈ subsystems ∧ s.name = n := by
  induction subsystems with
  | nil => simp [indexByName]
  | cons first rest ih =>
      obtain ⟨hFirst, hRest⟩ := List.nodup_cons.mp hNames
      have hUnfold : indexByName (first :: rest) =
          Function.update (indexByName rest) first.name (some first) := rfl
      rw [hUnfold]
      rcases eq_or_ne n first.name with rfl | hne
      · simp only [Function.update_self, Option.some.injEq, List.mem_cons]
        constructor
        · rintro rfl
          exact ⟨Or.inl rfl, rfl⟩
        · rintro ⟨rfl | hMem, hSame⟩
          · rfl
          · exact absurd (hSame ▸ List.mem_map_of_mem hMem) hFirst
      · rw [Function.update_of_ne hne, ih hRest, List.mem_cons]
        constructor
        · rintro ⟨hMem, rfl⟩
          exact ⟨Or.inr hMem, rfl⟩
        · rintro ⟨rfl | hMem, rfl⟩
          · exact absurd rfl hne
          · exact ⟨hMem, rfl⟩

theorem takeInOrder_spec (indexed : String → Option Subsystem) {order : List String}
    (hOrder : order.Nodup) (hIndexed : ∀ n ∈ order, ∃ s, indexed n = some s ∧ s.name = n) :
    (takeInOrder indexed order).map Subsystem.name = order ∧
      ∀ s ∈ takeInOrder indexed order, indexed s.name = some s := by
  induction order generalizing indexed with
  | nil => simp [takeInOrder]
  | cons n order ih =>
      obtain ⟨hFirst, hRest⟩ := List.nodup_cons.mp hOrder
      obtain ⟨s, hSome, rfl⟩ := hIndexed n (by simp)
      have hLater : ∀ m ∈ order, m ≠ s.name := fun m hMem hSame => hFirst (hSame ▸ hMem)
      obtain ⟨hMap, hTaken⟩ := ih (Function.update indexed s.name none) hRest
        fun m hMem => by simpa [hLater m hMem] using hIndexed m (by simp [hMem])
      have hUnfold : takeInOrder indexed (s.name :: order) =
          s :: takeInOrder (Function.update indexed s.name none) order := by
        simp [takeInOrder, hSome]
      rw [hUnfold]
      refine ⟨by simp [hMap], fun other hMem => ?_⟩
      rcases List.mem_cons.mp hMem with rfl | hOther
      · exact hSome
      · have hKept := hTaken other hOther
        rcases eq_or_ne other.name s.name with hSame | hne
        · simp [hSame] at hKept
        · simpa [hne] using hKept

/-- Reordering by a permutation of the names loses and duplicates nothing. -/
theorem reorder_spec {order : List String} (hNames : (subsystems.map Subsystem.name).Nodup)
    (hPerm : order.Perm (subsystems.map Subsystem.name)) :
    (reorder subsystems order).map Subsystem.name = order ∧
      (reorder subsystems order).Perm subsystems := by
  obtain ⟨hMap, hTaken⟩ := takeInOrder_spec (indexByName subsystems)
    (hPerm.nodup_iff.mpr hNames) fun n hMem => by
      obtain ⟨s, hSubsystem, rfl⟩ := List.mem_map.mp (hPerm.mem_iff.mp hMem)
      exact ⟨s, (indexByName_some hNames).mpr ⟨hSubsystem, rfl⟩, rfl⟩
  refine ⟨hMap, ?_⟩
  have hDistinct : (reorder subsystems order).Nodup :=
    List.Nodup.of_map Subsystem.name (by rw [reorder, hMap]; exact hPerm.nodup_iff.mpr hNames)
  have hSubset : reorder subsystems order ⊆ subsystems := fun s hMem =>
    ((indexByName_some hNames).mp (hTaken s hMem)).1
  apply (List.subperm_of_subset hDistinct hSubset).perm_of_length_le
  have hLength := congrArg List.length hMap
  rw [List.length_map] at hLength
  rw [reorder, hLength, hPerm.length_eq, List.length_map]

end Reorder

section Build

theorem firstDuplicate_none {seen names : List String} (h : firstDuplicate seen names = none) :
    names.Nodup ∧ ∀ n ∈ names, n ∉ seen := by
  induction names generalizing seen with
  | nil => simp
  | cons name names ih =>
      simp only [firstDuplicate] at h
      split at h
      · cases h
      · rename_i hSeen
        obtain ⟨hNodup, hNew⟩ := ih h
        refine ⟨List.nodup_cons.mpr ⟨fun hMem => hNew name hMem (by simp), hNodup⟩, ?_⟩
        intro n hMem hOld
        rcases List.mem_cons.mp hMem with rfl | hLater
        · exact hSeen hOld
        · exact hNew n hLater (by simp [hOld])

/-- What the other functions of a kernel may assume of its subsystems. -/
structure Kernel.WellFormed (k : Kernel) (b : KernelBuilder) : Prop where
  members : k.subsystems.Perm (boxedBuiltins ++ b.consumers)
  distinct : (k.subsystems.map Subsystem.name).Nodup
  ordered : Every (fun past s => ∀ d ∈ s.dependencies, ∃ p ∈ past, p.name = d) k.subsystems
  grace : k.shutdownGrace = b.shutdownGrace
  workers : k.workers = b.workers

/-- A kernel that is built runs what was registered, in the order of the sort. -/
theorem build_sorted {b : KernelBuilder} {k : Kernel} (h : b.build = .ok k) :
    ((boxedBuiltins ++ b.consumers).map Subsystem.name).Nodup ∧
      ∃ sorted, topoSort (boxedBuiltins ++ b.consumers) = .ok sorted ∧
        k = ⟨b.name, reorder (boxedBuiltins ++ b.consumers) sorted, b.shutdownGrace, b.workers⟩ := by
  unfold KernelBuilder.build at h
  split at h
  · cases h
  split at h
  · cases h
  dsimp only at h
  split at h
  · cases h
  rename_i hDuplicate
  split at h
  · cases h
  split at h
  · cases h
  rename_i sorted hSort
  exact ⟨(firstDuplicate_none hDuplicate).1, sorted, hSort, (Except.ok.inj h).symm⟩

theorem build_wellFormed {b : KernelBuilder} {k : Kernel} (h : b.build = .ok k) :
    k.WellFormed b := by
  obtain ⟨hNames, sorted, hSort, rfl⟩ := build_sorted h
  obtain ⟨hPerm, hOrdered⟩ := topoSort_ok hNames hSort
  obtain ⟨hMap, hMembers⟩ := reorder_spec hNames hPerm
  refine ⟨hMembers, ?_, ?_, rfl, rfl⟩
  · rw [hMap]
    exact hPerm.nodup_iff.mpr hNames
  · rw [← hMap, every_map] at hOrdered
    intro past s later hEq d hDep
    have hMem : s ∈ boxedBuiltins ++ b.consumers :=
      hMembers.mem_iff.mp (by
        simp only at hEq
        simp [hEq])
    have hEarlier := hOrdered past s later hEq d (by rwa [edgesOf_name hNames hMem])
    simpa using hEarlier

/-- The built-in lifecycle subsystem boots first. -/
theorem build_first {b : KernelBuilder} {k : Kernel} (h : b.build = .ok k) :
    k.subsystems[0]? = some lifecycleSubsystem := by
  have hBuilt := build_wellFormed h
  have hName : (k.subsystems.map Subsystem.name)[0]? = some lifecycleSubsystem.name := by
    obtain ⟨hNames, sorted, hSort, rfl⟩ := build_sorted h
    rw [(reorder_spec hNames (topoSort_ok hNames hSort).1).1]
    obtain ⟨later, rfl⟩ := topoSort_first hNames rfl hSort
    rfl
  obtain ⟨s, hFirst, hSame⟩ : ∃ s, k.subsystems[0]? = some s ∧ s.name = lifecycleSubsystem.name := by
    simpa using hName
  have hMem : lifecycleSubsystem ∈ k.subsystems := hBuilt.members.mem_iff.mpr (by simp [boxedBuiltins])
  rw [hFirst, List.inj_on_of_nodup_map hBuilt.distinct (List.mem_of_getElem? hFirst) hMem hSame]

end Build

end ServiceKernel
