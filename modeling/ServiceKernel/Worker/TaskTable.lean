import Mathlib.Tactic.SplitIfs
import ServiceKernel.Semantics.History
import ServiceKernel.Worker.Supervisor

/-! The join set and the task map agree: every unjoined task is filed under its
id with its owner, and nothing else is. -/
namespace ServiceKernel

open Execution

/-- The part of the supervisor that tracks tasks. -/
structure TaskTable where
  ids : List WorkerId
  joinSet : List Task
  taskToWorker : AList fun _ : TaskId => WorkerId
  contexts : List WorkerId

namespace TaskTable

/-- The table after `spawnTask`. -/
def spawn (T : TaskIds) (t : TaskTable) (id : WorkerId) : TaskTable :=
  let run := t.contexts.length
  let taskId := T.next run (t.joinSet.map Task.id)
  ⟨t.ids, t.joinSet ++ [⟨taskId, id, run, none⟩], t.taskToWorker.insert taskId id,
    t.contexts ++ [id]⟩

def remove (t : TaskTable) (task : Task) : TaskTable :=
  { t with
    joinSet := t.joinSet.filter fun other => other.id ≠ task.id
    taskToWorker := t.taskToWorker.erase task.id }

def endTask (t : TaskTable) (run : Nat) (result : Task → JoinResult) : TaskTable :=
  { t with joinSet := t.joinSet.map fun task =>
      if task.run = run then { task with result := some (result task) } else task }

/-- What the join set, the map and the contexts say of each other. -/
structure Consistent (t : TaskTable) : Prop where
  distinct : (t.joinSet.map Task.id).Nodup
  mapped : ∀ taskId worker, t.taskToWorker.lookup taskId = some worker ↔
    ∃ task ∈ t.joinSet, task.id = taskId ∧ task.worker = worker
  numbered : (t.joinSet.map Task.run).Nodup
  known : ∀ task ∈ t.joinSet, task.worker ∈ t.ids
  context : ∀ task ∈ t.joinSet, t.contexts[task.run]? = some task.worker
  owned : ∀ task ∈ t.joinSet, ∀ worker outcome,
    task.result = some (.returned worker outcome) → worker = task.worker

/-- No task was aborted. -/
def Unaborted (t : TaskTable) : Prop := ∀ task ∈ t.joinSet, task.result ≠ some .cancelled

/-- The tasks of one worker that are not joined yet. -/
def inFlight (t : TaskTable) (id : WorkerId) : Nat := t.joinSet.countP fun task => task.worker = id

variable {T : TaskIds} {t : TaskTable} {id : WorkerId} {task : Task}

theorem Consistent.run_lt (h : t.Consistent) (hMem : task ∈ t.joinSet) :
    task.run < t.contexts.length :=
  (List.getElem?_eq_some_iff.mp (h.context task hMem)).1

theorem Consistent.lookup (h : t.Consistent) (hMem : task ∈ t.joinSet) :
    t.taskToWorker.lookup task.id = some task.worker :=
  (h.mapped _ _).mpr ⟨task, hMem, rfl, rfl⟩

/-- Whether the map names a worker is whether it has a task in flight. -/
theorem Consistent.named_iff (h : t.Consistent) :
    (t.taskToWorker.entries.any fun entry => entry.2 = id) = true ↔ 0 < t.inFlight id := by
  rw [List.any_eq_true, inFlight, List.countP_pos_iff]
  constructor
  · rintro ⟨⟨taskId, worker⟩, hMem, hWorker⟩
    obtain ⟨task, hTask, -, rfl⟩ := (h.mapped taskId worker).mp (AList.mem_lookup_iff.mpr hMem)
    exact ⟨task, hTask, hWorker⟩
  · rintro ⟨task, hTask, hWorker⟩
    exact ⟨⟨task.id, task.worker⟩, AList.mem_lookup_iff.mp (h.lookup hTask), hWorker⟩

theorem Consistent.empty (ids : List WorkerId) : Consistent ⟨ids, [], ∅, []⟩ where
  distinct := List.nodup_nil
  mapped := by simp
  numbered := List.nodup_nil
  known := by simp
  context := by simp
  owned := by simp

/-- Spawning files the new task: its id is fresh and its run number is new. -/
theorem Consistent.spawn (h : t.Consistent) (hId : id ∈ t.ids) : (t.spawn T id).Consistent where
  distinct := by
    simp only [TaskTable.spawn, List.map_append, List.map_cons, List.map_nil]
    rw [← List.concat_eq_append]
    exact h.distinct.concat (T.fresh _ _)
  mapped taskId worker := by
    simp only [TaskTable.spawn, List.mem_append, List.mem_singleton]
    have hFresh := T.fresh t.contexts.length (t.joinSet.map Task.id)
    generalize T.next t.contexts.length (t.joinSet.map Task.id) = new at hFresh
    rcases eq_or_ne taskId new with rfl | hne
    · rw [AList.lookup_insert, Option.some.injEq]
      constructor
      · rintro rfl
        exact ⟨_, Or.inr rfl, rfl, rfl⟩
      · rintro ⟨task, hMem | rfl, hTaskId, hWorker⟩
        · exact absurd (List.mem_map.mpr ⟨task, hMem, hTaskId⟩) hFresh
        · exact hWorker
    · rw [AList.lookup_insert_ne hne, h.mapped]
      constructor
      · rintro ⟨task, hMem, hTask⟩
        exact ⟨task, Or.inl hMem, hTask⟩
      · rintro ⟨task, hMem | rfl, hTaskId, hWorker⟩
        · exact ⟨task, hMem, hTaskId, hWorker⟩
        · exact absurd hTaskId.symm hne
  numbered := by
    simp only [TaskTable.spawn, List.map_append, List.map_cons, List.map_nil]
    rw [← List.concat_eq_append]
    apply h.numbered.concat
    intro hMem
    obtain ⟨task, hTask, hRun⟩ := List.mem_map.mp hMem
    exact absurd (h.run_lt hTask) (by omega)
  known task hMem := by
    simp only [TaskTable.spawn, List.mem_append, List.mem_singleton] at hMem
    rcases hMem with hMem | rfl
    · exact h.known task hMem
    · exact hId
  context task hMem := by
    simp only [TaskTable.spawn, List.mem_append, List.mem_singleton] at hMem ⊢
    rcases hMem with hMem | rfl
    · rw [List.getElem?_append_left (h.run_lt hMem), h.context task hMem]
    · simp
  owned task hMem worker outcome hResult := by
    simp only [TaskTable.spawn, List.mem_append, List.mem_singleton] at hMem
    rcases hMem with hMem | rfl
    · exact h.owned task hMem worker outcome hResult
    · cases hResult

/-- Joining unfiles the task and no other. -/
theorem Consistent.remove (h : t.Consistent) : (t.remove task).Consistent where
  distinct := h.distinct.sublist (List.filter_sublist.map _)
  mapped taskId worker := by
    simp only [TaskTable.remove, List.mem_filter, decide_eq_true_eq]
    rcases eq_or_ne taskId task.id with rfl | hne
    · rw [AList.lookup_erase]
      simp only [reduceCtorEq, false_iff]
      rintro ⟨other, ⟨-, hOther⟩, hId, -⟩
      exact hOther hId
    · rw [AList.lookup_erase_ne hne, h.mapped]
      constructor
      · rintro ⟨other, hMem, rfl, hWorker⟩
        exact ⟨other, ⟨hMem, hne⟩, rfl, hWorker⟩
      · rintro ⟨other, ⟨hMem, -⟩, hOther⟩
        exact ⟨other, hMem, hOther⟩
  numbered := h.numbered.sublist (List.filter_sublist.map _)
  known other hMem := h.known other (List.mem_filter.mp hMem).1
  context other hMem := h.context other (List.mem_filter.mp hMem).1
  owned other hMem := h.owned other (List.mem_filter.mp hMem).1

theorem mem_endTask {run : Nat} {result : Task → JoinResult} :
    task ∈ (t.endTask run result).joinSet ↔ ∃ old ∈ t.joinSet,
      (if old.run = run then { old with result := some (result old) } else old) = task := by
  simp [endTask]

@[simp] theorem endTask_inFlight {run : Nat} {result : Task → JoinResult} :
    (t.endTask run result).inFlight id = t.inFlight id := by
  simp only [inFlight, endTask, List.countP_map]
  apply List.countP_congr
  intro task _
  simp only [Function.comp_apply]
  split_ifs <;> rfl

theorem Consistent.endTask (h : t.Consistent) {run : Nat} {result : Task → JoinResult}
    (hResult : ∀ task worker outcome, result task = .returned worker outcome → worker = task.worker) :
    (t.endTask run result).Consistent where
  distinct := by
    have hSame : (t.endTask run result).joinSet.map Task.id = t.joinSet.map Task.id := by
      simp only [TaskTable.endTask, List.map_map]
      apply List.map_congr_left
      intro task _
      simp only [Function.comp_apply]
      split_ifs <;> rfl
    rw [hSame]
    exact h.distinct
  mapped taskId worker := by
    rw [show (t.endTask run result).taskToWorker = t.taskToWorker from rfl, h.mapped]
    constructor
    · rintro ⟨old, hMem, hId, hWorker⟩
      refine ⟨_, mem_endTask.mpr ⟨old, hMem, rfl⟩, ?_⟩
      split_ifs <;> exact ⟨hId, hWorker⟩
    · rintro ⟨task, hMem, hTask⟩
      obtain ⟨old, hOld, rfl⟩ := mem_endTask.mp hMem
      refine ⟨old, hOld, ?_⟩
      split_ifs at hTask <;> exact hTask
  numbered := by
    have hSame : (t.endTask run result).joinSet.map Task.run = t.joinSet.map Task.run := by
      simp only [TaskTable.endTask, List.map_map]
      apply List.map_congr_left
      intro task _
      simp only [Function.comp_apply]
      split_ifs <;> rfl
    rw [hSame]
    exact h.numbered
  known task hMem := by
    obtain ⟨old, hOld, rfl⟩ := mem_endTask.mp hMem
    split_ifs <;> exact h.known old hOld
  context task hMem := by
    obtain ⟨old, hOld, rfl⟩ := mem_endTask.mp hMem
    split_ifs <;> exact h.context old hOld
  owned task hMem worker outcome hEnd := by
    obtain ⟨old, hOld, rfl⟩ := mem_endTask.mp hMem
    split_ifs at hEnd ⊢ with hRun
    · exact hResult old worker outcome (Option.some.inj hEnd)
    · exact h.owned old hOld worker outcome hEnd

@[simp] theorem spawn_inFlight {i : WorkerId} :
    (t.spawn T id).inFlight i = if i = id then t.inFlight i + 1 else t.inFlight i := by
  simp only [inFlight, spawn, List.countP_append, List.countP_singleton, decide_eq_true_eq]
  split_ifs with h h' h' <;> simp_all

/-- Joining a task takes it out of the join set and leaves the others in order. -/
theorem Consistent.remove_split (h : t.Consistent) (hMem : task ∈ t.joinSet) :
    ∃ front back, t.joinSet = front ++ task :: back ∧
      (t.remove task).joinSet = front ++ back := by
  obtain ⟨front, back, hSplit⟩ := List.append_of_mem hMem
  have hNodup := h.distinct
  rw [hSplit, List.map_append, List.map_cons, List.nodup_middle, List.nodup_cons] at hNodup
  have hKeep : ∀ other ∈ front ++ back, decide (other.id ≠ task.id) = true := by
    intro other hOther
    refine decide_eq_true fun hId => hNodup.1 ?_
    rw [← List.map_append]
    exact List.mem_map.mpr ⟨other, hOther, hId⟩
  have hFront := List.filter_eq_self.mpr fun other hOther =>
    hKeep other (List.mem_append_left _ hOther)
  have hBack := List.filter_eq_self.mpr fun other hOther =>
    hKeep other (List.mem_append_right _ hOther)
  refine ⟨front, back, hSplit, ?_⟩
  simp only [TaskTable.remove, hSplit, List.filter_append, hFront]
  rw [List.filter_cons_of_neg (by simp), hBack]

/-- Joining a task takes exactly it out of its owner's count. -/
theorem Consistent.remove_inFlight (h : t.Consistent) (hMem : task ∈ t.joinSet) (i : WorkerId) :
    t.inFlight i =
      if i = task.worker then (t.remove task).inFlight i + 1 else (t.remove task).inFlight i := by
  obtain ⟨front, back, hSplit, hRest⟩ := h.remove_split hMem
  simp only [inFlight, hRest]
  rw [hSplit]
  simp only [List.countP_append, List.countP_cons, decide_eq_true_eq]
  split_ifs with hA hB hB
  · omega
  · exact absurd hA.symm hB
  · exact absurd hB.symm hA
  · omega

theorem Unaborted.spawn (h : t.Unaborted) : (t.spawn T id).Unaborted := by
  intro task hMem
  simp only [TaskTable.spawn, List.mem_append, List.mem_singleton] at hMem
  rcases hMem with hMem | rfl
  · exact h task hMem
  · exact fun hResult => by cases hResult

theorem Unaborted.remove (h : t.Unaborted) : (t.remove task).Unaborted :=
  fun other hMem => h other (List.mem_filter.mp hMem).1

theorem Unaborted.endTask (h : t.Unaborted) {run : Nat} {result : Task → JoinResult}
    (hResult : ∀ task, result task ≠ .cancelled) : (t.endTask run result).Unaborted := by
  intro task hMem
  obtain ⟨old, hOld, rfl⟩ := mem_endTask.mp hMem
  split_ifs
  · exact fun hEnd => hResult old (Option.some.inj hEnd)
  · exact h old hOld

end TaskTable

end ServiceKernel
