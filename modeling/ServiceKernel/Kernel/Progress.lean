import Mathlib.Data.List.Induction
import ServiceKernel.Kernel.Orchestration
import ServiceKernel.Kernel.TopoSort

/-! What a stage of the orchestration says about the history and the shared state of
a kernel, and that every step keeps it true. -/
namespace ServiceKernel

open Interleaving Execution

variable {Thread : Type}

/-- The callbacks so far, by subsystem name in order: those that started, those of
the forward phases that returned `Ok`, and the shutdowns that returned. -/
@[ext]
structure Progress where
  started : Callback → List String
  succeeded : Callback → List String
  closed : List String

namespace Progress

def none : Progress := ⟨fun _ => [], fun _ => [], []⟩

def after (p : Progress) : KernelRecord → Progress
  | .started c name => { p with started := Function.update p.started c (p.started c ++ [name]) }
  | .finished .shutdown name _ => { p with closed := p.closed ++ [name] }
  | .finished c name .ok =>
    { p with succeeded := Function.update p.succeeded c (p.succeeded c ++ [name]) }
  | _ => p

/-- So many callbacks of each kind, along the boot order and back. -/
def reached (names : List String) (bootStarted booted loadStarted loaded startedUp closedUp : Nat) :
    Progress where
  started
    | .boot => names.take bootStarted
    | .load => names.take loadStarted
    | .shutdown => ((names.take loaded).drop startedUp).reverse
  succeeded
    | .boot => names.take booted
    | .load => names.take loaded
    | .shutdown => []
  closed := ((names.take loaded).drop closedUp).reverse

end Progress

def progress (trace : List (Thread × KernelRecord)) : Progress :=
  trace.foldl (fun p e => p.after e.2) .none

@[simp] theorem progress_nil : progress ([] : List (Thread × KernelRecord)) = .none := rfl

@[simp] theorem progress_concat (trace : List (Thread × KernelRecord)) (e : Thread × KernelRecord) :
    progress (trace ++ [e]) = (progress trace).after e.2 := by
  simp [progress]

namespace Stage

def names (k : Kernel) : List String := k.subsystems.map Subsystem.name

/-- The callbacks that have been made when the kernel is at a stage. -/
def progress (k : Kernel) (stage : Stage) : Progress :=
  let all := k.subsystems.length
  match stage with
  | created => .reached (names k) 0 0 0 0 0 0
  | forward .boot done => .reached (names k) done done 0 0 0 0
  | calling .boot done => .reached (names k) (done + 1) done 0 0 0 0
  | recording .boot done => .reached (names k) (done + 1) (done + 1) 0 0 0 0
  | broken .boot done => .reached (names k) (done + 1) done 0 0 0 0
  | failed .boot done => .reached (names k) (done + 1) done 0 0 0 0
  | forward .load done => .reached (names k) all all done done done done
  | calling .load done => .reached (names k) all all (done + 1) done done done
  | recording .load done =>
    .reached (names k) all all (done + 1) (done + 1) (done + 1) (done + 1)
  | broken .load done => .reached (names k) all all (done + 1) done done done
  | failed .load done => .reached (names k) all all (done + 1) done 0 0
  | closing rollback loaded up =>
    .reached (names k) all all (if rollback then loaded + 1 else loaded) loaded up up
  | callingShutdown rollback loaded up =>
    .reached (names k) all all (if rollback then loaded + 1 else loaded) loaded up (up + 1)
  | exec _ => .reached (names k) all all all all all all
  | stopped => .reached (names k) all all all all 0 0
  | _ => .none

/-- How many subsystems are recorded as loaded. -/
def recorded (k : Kernel) : Stage → Nat
  | forward .load done => done
  | calling .load done => done
  | recording .load done => done
  | broken .load done => done
  | failed .load done => done
  | closing _ loaded _ => loaded
  | callingShutdown _ loaded _ => loaded
  | exec _ => k.subsystems.length
  | stopped => k.subsystems.length
  | _ => 0

/-- The numbers of a stage stay within the list. -/
def Valid (k : Kernel) : Stage → Prop
  | closing rollback loaded up =>
    up ≤ loaded ∧ loaded ≤ k.subsystems.length ∧ (rollback = false → loaded = k.subsystems.length)
  | callingShutdown rollback loaded up =>
    up < loaded ∧ loaded ≤ k.subsystems.length ∧ (rollback = false → loaded = k.subsystems.length)
  | forward _ done => done ≤ k.subsystems.length
  | calling _ done => done < k.subsystems.length
  | recording _ done => done < k.subsystems.length
  | broken _ done => done < k.subsystems.length
  | _ => True

/-- The coordinator has not been marked completed yet. -/
def beforeClaim : Stage → Bool
  | exec .claimed => false
  | exec .overflowed => false
  | exec .sequencing => false
  | exec .released => false
  | closing false _ _ => false
  | callingShutdown false _ _ => false
  | stopped => false
  | _ => true

/-- The workers have not been handed to a supervisor yet. -/
def beforeWorkers : Stage → Bool
  | exec .entered => true
  | exec _ => false
  | closing false _ _ => false
  | callingShutdown false _ _ => false
  | stopped => false
  | _ => true

section Steps

variable {k : Kernel} {stage stage' : Stage} {c : Callback} {s : Subsystem}

theorem names_getElem? {done : Nat} (h : k.subsystems[done]? = some s) :
    (names k)[done]? = some s.name := by
  simp [names, h]

theorem take_names {done : Nat} (h : k.subsystems[done]? = some s) :
    (names k).take (done + 1) = (names k).take done ++ [s.name] := by
  rw [List.take_add_one, names_getElem? h]
  rfl

theorem drop_names {loaded up : Nat} (h : k.subsystems[up]? = some s) (hUp : up < loaded) :
    (((names k).take loaded).drop up).reverse =
      (((names k).take loaded).drop (up + 1)).reverse ++ [s.name] := by
  have hAt : ((names k).take loaded)[up]? = some s.name := by
    rw [List.getElem?_take_of_lt hUp, names_getElem? h]
  obtain ⟨hLt, hName⟩ := List.getElem?_eq_some_iff.mp hAt
  rw [List.drop_eq_getElem_cons hLt, hName, List.reverse_cons]

/-- Starting a callback adds it to the progress. -/
theorem starts_progress (hValid : stage.Valid k) (h : stage.starts k c s = some stage') :
    stage'.progress k = (stage.progress k).after (.started c s.name) ∧ stage'.Valid k := by
  cases starts_cases h with
  | @forward c done s hForward hNext =>
      refine ⟨?_, (List.getElem?_eq_some_iff.mp hNext).1⟩
      cases c with
      | shutdown => exact absurd rfl hForward
      | boot | load =>
          ext1
          · funext c'
            cases c' <;> simp [progress, Progress.after, Progress.reached, take_names hNext]
          · rfl
          · rfl
  | closing hNext =>
      obtain ⟨hUp, hLoaded⟩ := hValid
      refine ⟨?_, hUp, hLoaded⟩
      ext1
      · funext c'
        cases c' <;> simp [progress, Progress.after, Progress.reached, drop_names hNext hUp]
      · rfl
      · rfl

/-- Finishing a callback adds its success, or the return of a shutdown. -/
theorem finishes_progress {outcome : CallbackOutcome} (hValid : stage.Valid k)
    (h : stage.finishes k c s outcome = some stage') :
    stage'.progress k = (stage.progress k).after (.finished c s.name outcome) ∧
      stage'.Valid k := by
  cases finishes_cases h with
  | @ok c done s hForward hNext =>
      have hNone : ∀ n, ((names k).take n).drop n = [] := fun n =>
        List.drop_eq_nil_iff.mpr (List.length_take_le _ _)
      refine ⟨?_, hValid⟩
      cases c with
      | shutdown => exact absurd rfl hForward
      | boot | load =>
          ext1
          · funext c'
            cases c' <;> simp [progress, Progress.after, Progress.reached, hNone]
          · funext c'
            cases c' <;> simp [progress, Progress.after, Progress.reached, take_names hNext]
          · simp [progress, Progress.after, Progress.reached, hNone]
  | @broken c done s outcome hForward hNext hFailed =>
      refine ⟨?_, hValid⟩
      cases c with
      | shutdown => exact absurd rfl hForward
      | boot | load =>
          cases outcome with
          | ok => exact absurd rfl hFailed
          | err e | panicked payload => rfl
  | closing hNext =>
      obtain ⟨hUp, hLoaded⟩ := hValid
      refine ⟨?_, Nat.le_of_lt hUp, hLoaded⟩
      ext1
      · rfl
      · rfl
      · simp [progress, Progress.after, Progress.reached, drop_names hNext hUp]

/-- A move of the lifecycle makes no callback. -/
theorem moves_progress {toState : KernelState} (hValid : stage.Valid k)
    (h : stage.moves k toState = some stage') :
    stage'.progress k = stage.progress k ∧ stage'.Valid k ∧ stage'.state = toState ∧
      stage'.recorded k = stage.recorded k := by
  cases moves_cases h with
  | booted => exact ⟨rfl, Nat.zero_le _, rfl, rfl⟩
  | loaded | bootFailed | loadFailed => exact ⟨rfl, trivial, rfl, rfl⟩
  | stopping => exact ⟨rfl, ⟨Nat.le_refl _, Nat.le_refl _, fun _ => rfl⟩, rfl, rfl⟩
  | stopped =>
      obtain rfl := hValid.2.2 rfl
      exact ⟨rfl, trivial, rfl, rfl⟩

/-- Recording a success makes no callback. -/
theorem records_progress {name : String} (hValid : stage.Valid k)
    (h : stage.records k c name = some stage') :
    stage'.progress k = stage.progress k ∧ stage'.Valid k ∧ stage'.state = stage.state ∧
      ∀ n, n ∈ (names k).take (stage'.recorded k) ↔
        n ∈ (names k).take (stage.recorded k) ∨ c = .load ∧ n = name := by
  obtain ⟨done, hForward, hNext, rfl, rfl⟩ := records_cases h
  cases c with
  | shutdown => exact absurd rfl hForward
  | boot => exact ⟨rfl, hValid, rfl, by simp [recorded]⟩
  | load =>
      refine ⟨rfl, hValid, rfl, fun n => ?_⟩
      simp only [recorded, true_and]
      rw [List.take_add_one, List.mem_append]
      simp [names, hNext, eq_comm]

/-- Reading the keys starts a rollback of what they name. -/
theorem reads_progress {keys : List String} (hValid : stage.Valid k)
    (h : stage.reads k keys = some stage') :
    stage'.progress k = stage.progress k ∧ stage'.Valid k ∧ stage'.state = stage.state ∧
      stage'.recorded k = stage.recorded k := by
  unfold reads at h
  split at h
  · simp only [Option.ite_none_right_eq_some, Option.some.injEq] at h
    obtain ⟨-, rfl⟩ := h
    refine ⟨rfl, ⟨Nat.le_refl _, Nat.le_of_lt hValid, fun hNot => ?_⟩, rfl, rfl⟩
    cases hNot
  · cases h

end Steps

end Stage

section Trace

variable {trace : List (Thread × KernelRecord)} {c : Callback} {name : String}

/-- The callback has been started. -/
def Started (c : Callback) (name : String) (trace : List (Thread × KernelRecord)) : Prop :=
  ∃ t, (t, .started c name) ∈ trace

/-- The callback has returned `Ok`. -/
def ReturnedOk (c : Callback) (name : String) (trace : List (Thread × KernelRecord)) : Prop :=
  ∃ t, (t, .finished c name .ok) ∈ trace

/-- The callback has returned, or panicked. -/
def Returned (c : Callback) (name : String) (trace : List (Thread × KernelRecord)) : Prop :=
  ∃ t outcome, (t, .finished c name outcome) ∈ trace

/-- How often the callback was started. -/
def startCount (c : Callback) (name : String) (trace : List (Thread × KernelRecord)) : Nat :=
  (trace.map Prod.snd).count (.started c name)

/-- Only the start of the callback adds to its list. -/
theorem Progress.after_started (p : Progress) (r : KernelRecord) (c : Callback) :
    (p.after r).started c = p.started c ++
      match r with
      | .started c' name => if c' = c then [name] else []
      | _ => [] := by
  cases r with
  | started c' name =>
      rcases eq_or_ne c c' with rfl | hne
      · simp [after]
      · simp [after, hne, hne.symm]
  | finished c' name outcome => cases c' <;> cases outcome <;> simp [after]
  | _ => simp [after]

theorem Progress.after_succeeded (p : Progress) (r : KernelRecord) {c : Callback}
    (hForward : c ≠ .shutdown) :
    (p.after r).succeeded c = p.succeeded c ++
      match r with
      | .finished c' name .ok => if c' = c then [name] else []
      | _ => [] := by
  cases r with
  | finished c' name outcome =>
      cases outcome with
      | ok =>
          rcases eq_or_ne c c' with rfl | hne
          · cases c with
            | shutdown => exact absurd rfl hForward
            | boot | load => simp [after]
          · cases c' <;> simp [after, hne, hne.symm]
      | err e | panicked payload => cases c' <;> simp [after]
  | _ => simp [after]

theorem Progress.after_closed (p : Progress) (r : KernelRecord) :
    (p.after r).closed = p.closed ++
      match r with
      | .finished .shutdown name _ => [name]
      | _ => [] := by
  cases r with
  | finished c name outcome => cases c <;> cases outcome <;> simp [after]
  | _ => simp [after]

theorem count_started : ((progress trace).started c).count name = startCount c name trace := by
  induction trace using List.reverseRecOn with
  | nil => rfl
  | append_singleton trace e ih =>
      obtain ⟨t, r⟩ := e
      rw [progress_concat, Progress.after_started, List.count_append, ih]
      simp only [startCount, List.map_append, List.count_append, List.map_cons, List.map_nil]
      congr 1
      cases r with
      | started c' name' =>
          rcases eq_or_ne c' c with rfl | hne
          · simp [List.count_cons]
          · simp [hne]
      | _ => simp

theorem mem_started : name ∈ (progress trace).started c ↔ Started c name trace := by
  rw [← List.count_pos_iff, count_started, startCount, List.count_pos_iff, List.mem_map]
  constructor
  · rintro ⟨⟨t, r⟩, hMem, rfl⟩
    exact ⟨t, hMem⟩
  · rintro ⟨t, hMem⟩
    exact ⟨_, hMem, rfl⟩

theorem mem_succeeded (hForward : c ≠ .shutdown) :
    name ∈ (progress trace).succeeded c ↔ ReturnedOk c name trace := by
  induction trace using List.reverseRecOn with
  | nil => simp [Progress.none, ReturnedOk]
  | append_singleton trace e ih =>
      obtain ⟨t, r⟩ := e
      rw [progress_concat, Progress.after_succeeded _ _ hForward, List.mem_append, ih]
      simp only [ReturnedOk, List.mem_append, exists_or]
      apply or_congr_right
      split
      · rename_i c' name'
        rcases eq_or_ne c' c with rfl | hne
        · simp [eq_comm]
        · simp [hne, hne.symm]
      · rename_i hOther
        constructor
        · intro hMem
          cases hMem
        · rintro ⟨u, hMem⟩
          obtain ⟨-, rfl⟩ := Prod.mk.inj (List.mem_singleton.mp hMem)
          exact (hOther c name rfl).elim

theorem mem_closed : name ∈ (progress trace).closed ↔ Returned .shutdown name trace := by
  induction trace using List.reverseRecOn with
  | nil => simp [Progress.none, Returned]
  | append_singleton trace e ih =>
      obtain ⟨t, r⟩ := e
      rw [progress_concat, Progress.after_closed, List.mem_append, ih]
      simp only [Returned, List.mem_append, exists_or]
      apply or_congr_right
      split
      · simp [eq_comm]
      · rename_i hOther
        constructor
        · intro hMem
          cases hMem
        · rintro ⟨u, outcome, hMem⟩
          obtain ⟨-, rfl⟩ := Prod.mk.inj (List.mem_singleton.mp hMem)
          exact (hOther name outcome rfl).elim

end Trace

end ServiceKernel
