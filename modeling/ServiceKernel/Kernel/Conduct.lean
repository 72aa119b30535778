import ServiceKernel.Kernel.Progress

/-! The shared state and the history of a kernel always fit the stage that its
orchestration has reached. -/
namespace ServiceKernel

open Interleaving Execution

variable {Thread : Type}

/-- What holds whenever a callback starts, given the history before it. -/
structure LawfulStart (k : Kernel) (past : List (Thread × KernelRecord)) (c : Callback)
    (name : String) : Prop where
  fresh : ¬ Started c name past
  booted : c = .load → ∀ n ∈ Stage.names k, ReturnedOk .boot n past
  loaded : c = .shutdown → ReturnedOk .load name past
  supplied : c ≠ .shutdown → ∀ s ∈ k.subsystems, s.name = name → ∀ d ∈ s.dependencies,
    ReturnedOk c d past
  released : c = .shutdown → ∀ s ∈ k.subsystems, name ∈ s.dependencies →
    Started .shutdown s.name past → Returned .shutdown s.name past
  unreleased : c = .shutdown → ∀ s ∈ k.subsystems, s.name = name → ∀ d ∈ s.dependencies,
    ¬ Started .shutdown d past

/-- Every start of a callback is lawful. -/
def StartsLawfully (k : Kernel) (trace : List (Thread × KernelRecord)) : Prop :=
  Every (fun past e => ∀ c name, e.2 = .started c name → LawfulStart k past c name) trace

section Starts

variable {k : Kernel} {b : KernelBuilder} {stage stage' : Stage} {c : Callback} {s : Subsystem}
  {past : List (Thread × KernelRecord)} {done : Nat}

theorem Stage.length_names : (Stage.names k).length = k.subsystems.length := List.length_map _

/-- What a subsystem depends on comes before it. -/
theorem Kernel.WellFormed.supplied (h : k.WellFormed b) (hNext : k.subsystems[done]? = some s)
    {other : Subsystem} (hOther : other ∈ k.subsystems) (hName : other.name = s.name) {d : String}
    (hDep : d ∈ other.dependencies) : d ∈ (Stage.names k).take done := by
  obtain rfl : other = s :=
    List.inj_on_of_nodup_map h.distinct hOther (List.mem_of_getElem? hNext) hName
  obtain ⟨p, hPast, rfl⟩ := h.ordered.of_getElem hNext d hDep
  rw [Stage.names, ← List.map_take]
  exact List.mem_map_of_mem hPast

theorem Kernel.WellFormed.not_before (h : k.WellFormed b) (hNext : k.subsystems[done]? = some s) :
    s.name ∉ (Stage.names k).take done := by
  intro hMem
  have hLt := (List.getElem?_eq_some_iff.mp (Stage.names_getElem? hNext)).1
  apply List.disjoint_take_drop h.distinct (Nat.le_refl done) hMem
  apply List.mem_of_getElem? (i := 0)
  rw [List.getElem?_drop]
  exact Stage.names_getElem? hNext

theorem Kernel.WellFormed.not_after (h : k.WellFormed b) (hNext : k.subsystems[done]? = some s)
    (loaded : Nat) : s.name ∉ (((Stage.names k).take loaded).drop (done + 1)).reverse := by
  intro hMem
  rw [List.mem_reverse, List.drop_take] at hMem
  have hBefore : s.name ∈ (Stage.names k).take (done + 1) := by
    rw [Stage.take_names hNext]
    simp
  exact List.disjoint_take_drop h.distinct (Nat.le_refl (done + 1)) hBefore
    (List.mem_of_mem_take hMem)

/-- The orchestration starts callbacks lawfully. -/
theorem lawful_of_starts (h : k.WellFormed b) (hProgress : progress past = stage.progress k)
    (hValid : stage.Valid k) (hStart : stage.starts k c s = some stage') :
    LawfulStart k past c s.name := by
  cases Stage.starts_cases hStart with
  | @forward c done s hForward hNext =>
      refine ⟨?_, ?_, ?_, ?_, ?_, ?_⟩
      · rw [← mem_started, hProgress]
        cases c with
        | shutdown => exact absurd rfl hForward
        | boot | load => exact h.not_before hNext
      · intro hLoad n hMem
        cases hLoad
        rw [← mem_succeeded (by decide), hProgress]
        simpa [Stage.progress, Progress.reached, ← Stage.length_names] using hMem
      · intro hShutdown
        exact absurd hShutdown hForward
      · intro _ other hOther hName d hDep
        rw [← mem_succeeded hForward, hProgress]
        cases c with
        | shutdown => exact absurd rfl hForward
        | boot | load => exact h.supplied hNext hOther hName hDep
      · intro hShutdown
        exact absurd hShutdown hForward
      · intro hShutdown
        exact absurd hShutdown hForward
  | @closing rollback loaded up s hNext =>
      obtain ⟨hUp, -, -⟩ := hValid
      refine ⟨?_, ?_, ?_, ?_, ?_, ?_⟩
      · rw [← mem_started, hProgress]
        exact h.not_after hNext loaded
      · intro hLoad
        cases hLoad
      · intro _
        have hAt : ((Stage.names k).take loaded)[up]? = some s.name := by
          rw [List.getElem?_take_of_lt hUp]
          exact Stage.names_getElem? hNext
        rw [← mem_succeeded (by decide), hProgress]
        exact List.mem_of_getElem? hAt
      · intro hForward
        exact absurd rfl hForward
      · intro _ other hOther hDep hOld
        rw [← mem_started, hProgress] at hOld
        rw [← mem_closed, hProgress]
        exact hOld
      · intro _ other hOther hName d hDep hOld
        rw [← mem_started, hProgress] at hOld
        have hBefore := h.supplied hNext hOther hName hDep
        simp only [Stage.progress, Progress.reached, List.mem_reverse, List.drop_take] at hOld
        exact List.disjoint_take_drop h.distinct (Nat.le_succ up) hBefore
          (List.mem_of_mem_take hOld)

end Starts

/-- The shared state and the history fit a stage. -/
structure Recorded (k : Kernel) (stage : Stage) (w : KernelWorld Thread) : Prop where
  valid : stage.Valid k
  state : w.shared.lifecycle.state = stage.state
  progress : progress w.trace = stage.progress k
  keys : ∀ name, name ∈ w.shared.book.loadedAt.keys ↔
    name ∈ (Stage.names k).take (stage.recorded k)
  unclaimed : stage.beforeClaim = true → w.shared.coordinator.completed = false
  workers : stage.beforeWorkers = true → w.shared.workers = k.workers
  noRuntime : (∃ t e, (t, .runtimeBuilt .multiThread (.error e)) ∈ w.trace) ↔
    stage = .exec .noRuntime
  lawful : StartsLawfully k w.trace

theorem recorded_start (k : Kernel) (clock : Instant) :
    Recorded k .created (⟨KernelInner.new k clock, []⟩ : KernelWorld Thread) where
  valid := trivial
  state := rfl
  progress := by
    ext1
    · funext c
      cases c <;> simp [Stage.progress, Progress.reached, Progress.none]
    · funext c
      cases c <;> simp [Stage.progress, Progress.reached, Progress.none]
    · simp [Stage.progress, Progress.reached, Progress.none]
  keys name := by simp [KernelInner.new, SubsystemBookkeeping.new, Stage.recorded]
  unclaimed _ := rfl
  workers _ := rfl
  noRuntime := by simp
  lawful := every_nil

/-- The part of the shared state that stages speak of. -/
def KernelInner.SameCore (s s' : KernelInner Thread) : Prop :=
  s'.lifecycle.state = s.lifecycle.state ∧ s'.book.loadedAt = s.book.loadedAt ∧
    s'.coordinator.completed = s.coordinator.completed ∧ s'.workers = s.workers

/-- The operations that change the core. -/
def KernelOp.touchesCore : KernelOp → Bool
  | .lifecycle (.checkAndSet _) => true
  | .coordinator .markCompleted => true
  | .insertLoaded _ => true
  | .takeWorkers => true
  | _ => false

section Frame

variable {t : Thread} {o : KernelOp} {a : KernelSig.Ans o} {s s' : KernelInner Thread}

theorem coordinatorExec_completed {o : CoordinatorOp} {a : CoordinatorSig.Ans o}
    {c c' : Clocked CoordinatorInner} (h : (coordinatorMachine Thread).exec t o a c = some c')
    (hMark : o ≠ .markCompleted) : c'.state.completed = c.state.completed := by
  cases coordinatorExec_effect h with
  | completed => exact absurd rfl hMark
  | _ => rfl

theorem lifecycleExec_state {o : LifecycleOp} {a : LifecycleSig.Ans o}
    {l l' : Clocked LifecycleInner} (h : (lifecycleMachine Thread).exec t o a l = some l')
    (hMove : ∀ toState, o ≠ .checkAndSet toState) : l' = l := by
  cases o with
  | checkAndSet toState => exact absurd rfl (hMove toState)
  | snapshot =>
      simp only [lifecycleMachine, Option.ite_none_right_eq_some, Option.some.injEq] at h
      exact h.2.symm
  | emit | gauge | counter => exact (Option.some.inj h).symm

theorem kernelExec_sameCore (h : kernelExec t o a s = some s') (hCore : o.touchesCore = false) :
    s.SameCore s' := by
  cases kernelExec_effect h with
  | lifecycle hExec =>
      have hSame := lifecycleExec_state hExec fun toState hMove => by
        subst hMove
        cases hCore
      exact ⟨congrArg (·.state.state) hSame, rfl, rfl, rfl⟩
  | coordinator hExec =>
      refine ⟨rfl, rfl, ?_, rfl⟩
      exact coordinatorExec_completed hExec fun hMark => by
        subst hMark
        cases hCore
  | insertLoaded | takeWorkers => cases hCore
  | _ => exact ⟨rfl, rfl, rfl, rfl⟩

/-- The lifecycle moves along the table. -/
theorem kernelExec_legal (h : kernelExec t o a s = some s') :
    s'.lifecycle.state = s.lifecycle.state ∨
      (isLegal s.lifecycle.state s'.lifecycle.state = true ∧
        o = .lifecycle (.checkAndSet s'.lifecycle.state)) := by
  cases hCore : o.touchesCore with
  | false => exact Or.inl (kernelExec_sameCore h hCore).1
  | true =>
      cases o with
      | lifecycle o => cases o with
        | checkAndSet toState =>
            obtain ⟨l, hExec, rfl⟩ := KernelInner.withLifecycle_some.mp h
            cases a with
            | error e =>
                obtain ⟨-, -, rfl⟩ := lifecycle_refused hExec
                exact Or.inl rfl
            | ok move =>
                obtain ⟨hLegal, -, -, rfl⟩ := lifecycle_moved hExec
                exact Or.inr ⟨hLegal, rfl⟩
        | _ => cases hCore
      | coordinator o => cases o with
        | markCompleted =>
            obtain ⟨c, -, rfl⟩ := KernelInner.withCoordinator_some.mp h
            exact Or.inl rfl
        | _ => cases hCore
      | insertLoaded | takeWorkers =>
          simp only [kernelExec, Option.ite_none_right_eq_some, Option.some.injEq] at h
          obtain ⟨-, rfl⟩ := h
          exact Or.inl rfl
      | _ => cases hCore

/-- No kernel becomes fresh again. -/
theorem kernelExec_created (h : kernelExec t o a s = some s')
    (hCreated : s'.lifecycle.state = .created) : s.lifecycle.state = .created := by
  rcases kernelExec_legal h with hSame | ⟨hLegal, -⟩
  · rw [← hSame, hCreated]
  · rw [hCreated] at hLegal
    cases hState : s.lifecycle.state <;> rw [hState] at hLegal <;> cases hLegal

end Frame

section Advance

variable {k : Kernel} {b : KernelBuilder} {stage stage' : Stage} {w : KernelWorld Thread} {t : Thread}
  {o : KernelOp} {a : KernelSig.Ans o} {shared : KernelInner Thread}

/-- The next stage is recorded if it says the right thing of the new shared state and
of the new event. -/
theorem Recorded.advance (h : Recorded k stage w) (hValid : stage'.Valid k)
    (hState : shared.lifecycle.state = stage'.state)
    (hProgress : stage'.progress k = (stage.progress k).after (kernelRecord o a))
    (hKeys : ∀ name, name ∈ shared.book.loadedAt.keys ↔
      name ∈ (Stage.names k).take (stage'.recorded k))
    (hClaim : stage'.beforeClaim = true → shared.coordinator.completed = false)
    (hWorkers : stage'.beforeWorkers = true → shared.workers = k.workers)
    (hRuntime : (stage = .exec .noRuntime ∨
      ∃ e, kernelRecord o a = .runtimeBuilt .multiThread (.error e)) ↔ stage' = .exec .noRuntime)
    (hLawful : ∀ c name, kernelRecord o a = .started c name → LawfulStart k w.trace c name) :
    Recorded k stage' ((kernelMachine Thread).after w t o a shared) where
  valid := hValid
  state := hState
  progress := by
    rw [Machine.after_trace, progress_concat, h.progress, hProgress]
    rfl
  keys := hKeys
  unclaimed := hClaim
  workers := hWorkers
  noRuntime := by
    rw [← hRuntime, ← h.noRuntime]
    simp only [Machine.after_trace, List.mem_append, List.mem_singleton, Prod.mk.injEq]
    constructor
    · rintro ⟨u, e, hOld | ⟨-, hNew⟩⟩
      · exact Or.inl ⟨u, e, hOld⟩
      · exact Or.inr ⟨e, hNew.symm⟩
    · rintro (⟨u, e, hOld⟩ | ⟨e, hNew⟩)
      · exact ⟨u, e, Or.inl hOld⟩
      · exact ⟨t, e, Or.inr ⟨rfl, hNew.symm⟩⟩
  lawful := every_concat.mpr ⟨h.lawful, hLawful⟩

/-- The same when the operation leaves the core alone. -/
theorem Recorded.advance_core (h : Recorded k stage w) (hCore : w.shared.SameCore shared)
    (hValid : stage'.Valid k) (hState : stage'.state = stage.state)
    (hProgress : stage'.progress k = (stage.progress k).after (kernelRecord o a))
    (hKeys : stage'.recorded k = stage.recorded k)
    (hClaim : stage'.beforeClaim = true → stage.beforeClaim = true)
    (hWorkers : stage'.beforeWorkers = true → stage.beforeWorkers = true)
    (hRuntime : (stage = .exec .noRuntime ∨
      ∃ e, kernelRecord o a = .runtimeBuilt .multiThread (.error e)) ↔ stage' = .exec .noRuntime)
    (hLawful : ∀ c name, kernelRecord o a = .started c name → LawfulStart k w.trace c name) :
    Recorded k stage' ((kernelMachine Thread).after w t o a shared) := by
  obtain ⟨hSameState, hSameLoaded, hSameCompleted, hSameWorkers⟩ := hCore
  refine h.advance hValid ?_ hProgress (fun name => ?_) (fun hBefore => ?_) (fun hBefore => ?_)
    hRuntime hLawful
  · rw [hSameState, h.state, hState]
  · rw [hSameLoaded, h.keys, hKeys]
  · rw [hSameCompleted, h.unclaimed (hClaim hBefore)]
  · rw [hSameWorkers, h.workers (hWorkers hBefore)]

/-- An event that is neither a callback nor the building of a runtime. -/
def KernelRecord.Plain : KernelRecord → Prop
  | .started .. => False
  | .finished .. => False
  | .runtimeBuilt .. => False
  | _ => True

theorem KernelRecord.Plain.after {r : KernelRecord} (h : r.Plain) (p : Progress) :
    p.after r = p := by
  cases r with
  | started | finished | runtimeBuilt => exact h.elim
  | _ => rfl

/-- Between two exec stages, or at the same stage, with a plain event. -/
theorem Recorded.plain (h : Recorded k stage w) (hCore : w.shared.SameCore shared)
    (hPlain : (kernelRecord o a).Plain) (hValid : stage'.Valid k)
    (hState : stage'.state = stage.state) (hProgress : stage'.progress k = stage.progress k)
    (hKeys : stage'.recorded k = stage.recorded k)
    (hClaim : stage'.beforeClaim = true → stage.beforeClaim = true)
    (hWorkers : stage'.beforeWorkers = true → stage.beforeWorkers = true)
    (hRuntime : stage = .exec .noRuntime ↔ stage' = .exec .noRuntime) :
    Recorded k stage' ((kernelMachine Thread).after w t o a shared) := by
  refine h.advance_core hCore hValid hState ?_ hKeys hClaim hWorkers ?_ ?_
  · rw [hPlain.after, hProgress]
  · rw [← hRuntime]
    constructor
    · rintro (hOld | ⟨e, hNew⟩)
      · exact hOld
      · rw [hNew] at hPlain
        exact hPlain.elim
    · exact Or.inl
  · intro c name hNew
    rw [hNew] at hPlain
    exact hPlain.elim

theorem Recorded.stay (h : Recorded k stage w) (hCore : w.shared.SameCore shared)
    (hPlain : (kernelRecord o a).Plain) :
    Recorded k stage ((kernelMachine Thread).after w t o a shared) :=
  h.plain hCore hPlain h.valid rfl rfl rfl id id Iff.rfl

end Advance

section Inside

variable {k : Kernel} {b : KernelBuilder} {stage : Stage} {w : KernelWorld Thread} {t : Thread}
  {shared : KernelInner Thread}

theorem Stage.moves_isLegal {stage' : Stage} {toState : KernelState}
    (h : stage.moves k toState = some stage') : isLegal stage.state toState = true := by
  cases moves_cases h <;> rfl

theorem Stage.moves_claims {stage' : Stage} {toState : KernelState}
    (h : stage.moves k toState = some stage') :
    (stage'.beforeClaim = true → stage.beforeClaim = true) ∧
      (stage'.beforeWorkers = true → stage.beforeWorkers = true) ∧
      stage ≠ .exec .noRuntime ∧ stage' ≠ .exec .noRuntime := by
  cases moves_cases h <;> simp [beforeClaim, beforeWorkers]

/-- A granted move of the lifecycle. -/
theorem Recorded.moves (h : Recorded k stage w) {toState : KernelState}
    {a : LifecycleSig.Ans (.checkAndSet toState)}
    (hPermits : (orchestration k).Permits (.inside stage) (.lifecycle (.checkAndSet toState)))
    (hExec : kernelExec t (.lifecycle (.checkAndSet toState)) a w.shared = some shared) :
    ∃ stage', Position.next k (.inside stage) (.lifecycle (.checkAndSet toState)) a =
        some (.inside stage') ∧
      Recorded k stage' ((kernelMachine Thread).after w t
        (.lifecycle (.checkAndSet toState)) a shared) := by
  obtain ⟨a', hPermits⟩ := hPermits
  obtain ⟨stage', hMove⟩ : ∃ stage', stage.moves k toState = some stage' := by
    cases a' with
    | error e => simp [Position.next, Position.lifecycle] at hPermits
    | ok move => simpa [Position.next, Position.lifecycle, Option.isSome_iff_exists] using hPermits
  obtain ⟨l, hLifecycle, rfl⟩ := KernelInner.withLifecycle_some.mp hExec
  cases a with
  | error e =>
      have hRefused := (lifecycle_refused hLifecycle).1
      rw [show w.shared.lifecycle.state = stage.state from h.state, Stage.moves_isLegal hMove]
        at hRefused
      cases hRefused
  | ok move =>
      obtain ⟨fromState, now⟩ := move
      obtain ⟨-, -, -, rfl⟩ := lifecycle_moved hLifecycle
      obtain ⟨hProgress, hValid, hState, hKeys⟩ := Stage.moves_progress h.valid hMove
      obtain ⟨hClaim, hWorkers, hBefore, hAfter⟩ := Stage.moves_claims hMove
      refine ⟨stage', by simp [Position.next, Position.lifecycle, hMove], ?_⟩
      refine h.advance hValid hState.symm ?_ (fun name => ?_) (fun hB => h.unclaimed (hClaim hB))
        (fun hB => h.workers (hWorkers hB)) ?_ ?_
      · exact hProgress
      · rw [hKeys]
        exact h.keys name
      · simp [hBefore, hAfter, kernelRecord]
      · simp [kernelRecord]

theorem Stage.starts_frame {stage' : Stage} {c : Callback} {s : Subsystem}
    (h : stage.starts k c s = some stage') :
    stage'.state = stage.state ∧ stage'.recorded k = stage.recorded k ∧
      stage'.beforeClaim = stage.beforeClaim ∧ stage'.beforeWorkers = stage.beforeWorkers ∧
      stage ≠ .exec .noRuntime ∧ stage' ≠ .exec .noRuntime := by
  cases starts_cases h with
  | @forward c => cases c <;> simp [state, recorded, beforeClaim, beforeWorkers]
  | @closing rollback => cases rollback <;> simp [state, recorded, beforeClaim, beforeWorkers]

theorem Recorded.starts (h : Recorded k stage w) (hBuilt : k.WellFormed b) {c : Callback}
    {s : Subsystem} {a : KernelSig.Ans (.startCallback c s)}
    (hPermits : (orchestration k).Permits (.inside stage) (.startCallback c s))
    (hExec : kernelExec t (.startCallback c s) a w.shared = some shared) :
    ∃ stage', Position.next k (.inside stage) (.startCallback c s) a = some (.inside stage') ∧
      Recorded k stage' ((kernelMachine Thread).after w t (.startCallback c s) a shared) := by
  obtain ⟨a', hPermits⟩ := hPermits
  obtain ⟨stage', hStart⟩ : ∃ stage', stage.starts k c s = some stage' := by
    simpa [Position.next, Position.within, Option.isSome_iff_exists] using hPermits
  obtain ⟨hProgress, hValid⟩ := Stage.starts_progress h.valid hStart
  obtain ⟨hState, hKeys, hClaim, hWorkers, hBefore, hAfter⟩ := Stage.starts_frame hStart
  refine ⟨stage', by simp [Position.next, Position.within, hStart], ?_⟩
  refine h.advance_core (kernelExec_sameCore hExec rfl) hValid hState hProgress hKeys
    (fun hB => hClaim ▸ hB) (fun hB => hWorkers ▸ hB) ?_ ?_
  · simp [hBefore, hAfter, kernelRecord]
  · intro c' name hNew
    obtain ⟨rfl, rfl⟩ := KernelRecord.started.inj hNew
    exact lawful_of_starts hBuilt h.progress h.valid hStart

theorem Stage.finishes_frame {stage' : Stage} {c : Callback} {s : Subsystem}
    {outcome : CallbackOutcome} (h : stage.finishes k c s outcome = some stage') :
    stage'.state = stage.state ∧ stage'.recorded k = stage.recorded k ∧
      stage'.beforeClaim = stage.beforeClaim ∧ stage'.beforeWorkers = stage.beforeWorkers ∧
      stage ≠ .exec .noRuntime ∧ stage' ≠ .exec .noRuntime := by
  cases finishes_cases h with
  | @ok c | @broken c => cases c <;> simp [state, recorded, beforeClaim, beforeWorkers]
  | @closing rollback => cases rollback <;> simp [state, recorded, beforeClaim, beforeWorkers]

/-- Whether a callback may finish at a stage does not depend on how it ends. -/
theorem Stage.finishes_isSome {c : Callback} {s : Subsystem} (outcome : CallbackOutcome)
    (h : (stage.finishes k c s outcome).isSome) (other : CallbackOutcome) :
    (stage.finishes k c s other).isSome := by
  obtain ⟨stage', hFinish⟩ := Option.isSome_iff_exists.mp h
  cases finishes_cases hFinish with
  | ok hForward hNext | broken hForward hNext =>
      rw [finishes_calling hForward hNext]
      rfl
  | closing hNext => simp [finishes, hNext]

theorem Recorded.finishes (h : Recorded k stage w) {c : Callback} {s : Subsystem}
    {a : KernelSig.Ans (.finishCallback c s)}
    (hPermits : (orchestration k).Permits (.inside stage) (.finishCallback c s))
    (hExec : kernelExec t (.finishCallback c s) a w.shared = some shared) :
    ∃ stage', Position.next k (.inside stage) (.finishCallback c s) a = some (.inside stage') ∧
      Recorded k stage' ((kernelMachine Thread).after w t (.finishCallback c s) a shared) := by
  obtain ⟨a', hPermits⟩ := hPermits
  obtain ⟨stage', hFinish⟩ : ∃ stage', stage.finishes k c s a = some stage' := by
    refine Option.isSome_iff_exists.mp (Stage.finishes_isSome a' ?_ a)
    simpa [Position.next, Position.within] using hPermits
  obtain ⟨hProgress, hValid⟩ := Stage.finishes_progress h.valid hFinish
  obtain ⟨hState, hKeys, hClaim, hWorkers, hBefore, hAfter⟩ := Stage.finishes_frame hFinish
  refine ⟨stage', by simp [Position.next, Position.within, hFinish], ?_⟩
  refine h.advance_core (kernelExec_sameCore hExec rfl) hValid hState hProgress hKeys
    (fun hB => hClaim ▸ hB) (fun hB => hWorkers ▸ hB) ?_ ?_
  · simp [hBefore, hAfter, kernelRecord]
  · simp [kernelRecord]

theorem Stage.records_frame {stage' : Stage} {c : Callback} {name : String}
    (h : stage.records k c name = some stage') :
    stage'.beforeClaim = stage.beforeClaim ∧ stage'.beforeWorkers = stage.beforeWorkers ∧
      stage ≠ .exec .noRuntime ∧ stage' ≠ .exec .noRuntime := by
  obtain ⟨done, hForward, -, rfl, rfl⟩ := records_cases h
  cases c with
  | shutdown => exact absurd rfl hForward
  | boot | load => simp [beforeClaim, beforeWorkers]

theorem Recorded.recordsBooted (h : Recorded k stage w) {name : String}
    {a : KernelSig.Ans (.insertBooted name)}
    (hPermits : (orchestration k).Permits (.inside stage) (.insertBooted name))
    (hExec : kernelExec t (.insertBooted name) a w.shared = some shared) :
    ∃ stage', Position.next k (.inside stage) (.insertBooted name) a = some (.inside stage') ∧
      Recorded k stage' ((kernelMachine Thread).after w t (.insertBooted name) a shared) := by
  obtain ⟨a', hPermits⟩ := hPermits
  obtain ⟨stage', hRecord⟩ : ∃ stage', stage.records k .boot name = some stage' := by
    simpa [Position.next, Position.within, Option.isSome_iff_exists] using hPermits
  obtain ⟨hProgress, hValid, hState, hKeys⟩ := Stage.records_progress h.valid hRecord
  obtain ⟨hClaim, hWorkers, hBefore, hAfter⟩ := Stage.records_frame hRecord
  obtain ⟨hSameState, hSameLoaded, hSameCompleted, hSameWorkers⟩ :=
    kernelExec_sameCore hExec rfl
  refine ⟨stage', by simp [Position.next, Position.within, hRecord], ?_⟩
  refine h.advance hValid ?_ hProgress (fun n => ?_) (fun hB => ?_) (fun hB => ?_) ?_ ?_
  · rw [hSameState, h.state, hState]
  · rw [hSameLoaded, h.keys, hKeys]
    simp
  · rw [hSameCompleted, h.unclaimed (hClaim ▸ hB)]
  · rw [hSameWorkers, h.workers (hWorkers ▸ hB)]
  · simp [hBefore, hAfter, kernelRecord]
  · simp [kernelRecord]

theorem Recorded.recordsLoaded (h : Recorded k stage w) {name : String}
    {a : KernelSig.Ans (.insertLoaded name)}
    (hPermits : (orchestration k).Permits (.inside stage) (.insertLoaded name))
    (hExec : kernelExec t (.insertLoaded name) a w.shared = some shared) :
    ∃ stage', Position.next k (.inside stage) (.insertLoaded name) a = some (.inside stage') ∧
      Recorded k stage' ((kernelMachine Thread).after w t (.insertLoaded name) a shared) := by
  obtain ⟨a', hPermits⟩ := hPermits
  obtain ⟨stage', hRecord⟩ : ∃ stage', stage.records k .load name = some stage' := by
    simpa [Position.next, Position.within, Option.isSome_iff_exists] using hPermits
  obtain ⟨hProgress, hValid, hState, hKeys⟩ := Stage.records_progress h.valid hRecord
  obtain ⟨hClaim, hWorkers, hBefore, hAfter⟩ := Stage.records_frame hRecord
  simp only [kernelExec, Option.ite_none_right_eq_some, Option.some.injEq] at hExec
  obtain ⟨-, rfl⟩ := hExec
  refine ⟨stage', by simp [Position.next, Position.within, hRecord], ?_⟩
  refine h.advance hValid (by rw [hState]; exact h.state) hProgress (fun n => ?_)
    (fun hB => h.unclaimed (hClaim ▸ hB)) (fun hB => h.workers (hWorkers ▸ hB)) ?_ ?_
  · rw [← AList.mem_keys, AList.mem_insert, AList.mem_keys, h.keys, hKeys]
    simp [or_comm]
  · simp [hBefore, hAfter, kernelRecord]
  · simp [kernelRecord]

/-- The rollback reads the keys that were recorded. -/
theorem Recorded.reads (h : Recorded k stage w) {a : KernelSig.Ans .loadedKeys}
    (hPermits : (orchestration k).Permits (.inside stage) .loadedKeys)
    (hExec : kernelExec t .loadedKeys a w.shared = some shared) :
    ∃ stage', Position.next k (.inside stage) .loadedKeys a = some (.inside stage') ∧
      Recorded k stage' ((kernelMachine Thread).after w t .loadedKeys a shared) := by
  obtain ⟨a', hPermits⟩ := hPermits
  obtain ⟨done, rfl⟩ : ∃ done, stage = .broken .load done := by
    obtain ⟨stage', hRead⟩ : ∃ stage', stage.reads k a' = some stage' := by
      simpa [Position.next, Position.within, Option.isSome_iff_exists] using hPermits
    unfold Stage.reads at hRead
    split at hRead
    · exact ⟨_, rfl⟩
    · cases hRead
  have hCore := kernelExec_sameCore hExec rfl
  simp only [kernelExec, Option.ite_none_right_eq_some, Option.some.injEq] at hExec
  obtain ⟨rfl, -⟩ := hExec
  have hRead : (Stage.broken .load done).reads k w.shared.book.loadedAt.keys =
      some (.closing true done done) := if_pos fun name _ => h.keys name
  obtain ⟨hProgress, hValid, hState, hKeys⟩ := Stage.reads_progress h.valid hRead
  refine ⟨_, by simp only [Position.next, Position.within, hRead, Option.map_some]; rfl, ?_⟩
  exact h.plain hCore trivial hValid hState hProgress hKeys (fun _ => rfl) (fun _ => rfl) (by simp)

/-- One exec stage to another, with a plain event. -/
theorem Recorded.exec {e e' : ExecStage} {o : KernelOp} {a : KernelSig.Ans o}
    (h : Recorded k (.exec e) w) (hCore : w.shared.SameCore shared) (hPlain : (kernelRecord o a).Plain)
    (hClaim : (Stage.exec e').beforeClaim = true → (Stage.exec e).beforeClaim = true)
    (hWorkers : (Stage.exec e').beforeWorkers = true → (Stage.exec e).beforeWorkers = true)
    (hRuntime : e = .noRuntime ↔ e' = .noRuntime) :
    Recorded k (.exec e') ((kernelMachine Thread).after w t o a shared) :=
  h.plain hCore hPlain trivial rfl rfl rfl hClaim hWorkers (by simpa using hRuntime)

theorem Recorded.seesWorkers (h : Recorded k stage w) {a : KernelSig.Ans .hasWorkers}
    (hPermits : (orchestration k).Permits (.inside stage) .hasWorkers)
    (hExec : kernelExec t .hasWorkers a w.shared = some shared) :
    ∃ stage', Position.next k (.inside stage) .hasWorkers a = some (.inside stage') ∧
      Recorded k stage' ((kernelMachine Thread).after w t .hasWorkers a shared) := by
  obtain ⟨a', hPermits⟩ := hPermits
  obtain rfl : stage = .exec .entered := by
    simp only [Position.next, Position.within, Option.isSome_map, Option.isSome_iff_exists] at hPermits
    obtain ⟨stage', hSee⟩ := hPermits
    unfold Stage.seesWorkers at hSee
    split at hSee
    · rfl
    · cases hSee
  exact ⟨_, rfl, h.exec (kernelExec_sameCore hExec rfl) trivial (fun _ => rfl) (fun _ => rfl) (by simp)⟩

theorem Recorded.seesSignal (h : Recorded k stage w) {a : KernelSig.Ans .signalRequested}
    (hPermits : (orchestration k).Permits (.inside stage) .signalRequested)
    (hExec : kernelExec t .signalRequested a w.shared = some shared) :
    ∃ stage', Position.next k (.inside stage) .signalRequested a = some (.inside stage') ∧
      Recorded k stage' ((kernelMachine Thread).after w t .signalRequested a shared) := by
  obtain ⟨a', hPermits⟩ := hPermits
  have hCore := kernelExec_sameCore hExec rfl
  simp only [Position.next, Position.within, Option.isSome_map, Option.isSome_iff_exists] at hPermits
  obtain ⟨stage', hSee⟩ := hPermits
  unfold Stage.seesSignal at hSee
  split at hSee
  · refine ⟨_, rfl, h.exec hCore trivial (fun _ => rfl) ?_ ?_⟩
    · split <;> simp [Stage.beforeWorkers]
    · split <;> simp
  · exact ⟨_, rfl, h.stay hCore trivial⟩
  · cases hSee

theorem Recorded.builds (h : Recorded k stage w) {flavor : RuntimeFlavor}
    {a : KernelSig.Ans (.buildRuntime flavor)}
    (hPermits : (orchestration k).Permits (.inside stage) (.buildRuntime flavor))
    (hExec : kernelExec t (.buildRuntime flavor) a w.shared = some shared) :
    ∃ stage', Position.next k (.inside stage) (.buildRuntime flavor) a = some (.inside stage') ∧
      Recorded k stage' ((kernelMachine Thread).after w t (.buildRuntime flavor) a shared) := by
  obtain ⟨a', hPermits⟩ := hPermits
  have hCore := kernelExec_sameCore hExec rfl
  have hBoth : (stage = .exec .waiting ∧ flavor = .currentThread) ∨
      (stage = .exec .needsRuntime ∧ flavor = .multiThread) := by
    simp only [Position.next, Position.within, Option.isSome_map, Option.isSome_iff_exists] at hPermits
    obtain ⟨stage', hBuild⟩ := hPermits
    unfold Stage.builds at hBuild
    split at hBuild
    · exact Or.inl ⟨rfl, rfl⟩
    · exact Or.inl ⟨rfl, rfl⟩
    · exact Or.inr ⟨rfl, rfl⟩
    · exact Or.inr ⟨rfl, rfl⟩
    · cases hBuild
  rcases hBoth with ⟨rfl, rfl⟩ | ⟨rfl, rfl⟩
  · cases a with
    | ok u =>
        exact ⟨_, rfl, h.advance_core hCore trivial rfl rfl rfl (fun _ => rfl) (fun hB => by cases hB)
          (by simp [kernelRecord]) (by simp [kernelRecord])⟩
    | error e =>
        exact ⟨_, rfl, h.advance_core hCore trivial rfl rfl rfl (fun hB => by cases hB)
          (fun hB => by cases hB) (by simp [kernelRecord]) (by simp [kernelRecord])⟩
  · cases a with
    | ok u =>
        exact ⟨_, rfl, h.advance_core hCore trivial rfl rfl rfl (fun _ => rfl) (fun hB => by cases hB)
          (by simp [kernelRecord]) (by simp [kernelRecord])⟩
    | error e =>
        exact ⟨_, rfl, h.advance_core hCore trivial rfl rfl rfl (fun _ => rfl) (fun hB => by cases hB)
          (by simp [kernelRecord]) (by simp [kernelRecord])⟩

theorem Recorded.supervises (h : Recorded k stage w) {o : KernelOp} {a : KernelSig.Ans o}
    (hOp : o = .takeWorkers ∨ ∃ workers, o = .supervise workers)
    (hPermits : (orchestration k).Permits (.inside stage) o)
    (hExec : kernelExec t o a w.shared = some shared) :
    ∃ stage', Position.next k (.inside stage) o a = some (.inside stage') ∧
      Recorded k stage' ((kernelMachine Thread).after w t o a shared) := by
  obtain ⟨a', hPermits⟩ := hPermits
  have hSuper : ∀ stage : Stage, (Position.within (.inside stage) Stage.supervises).isSome →
      stage = .exec .onRuntime := by
    intro stage hSome
    simp only [Position.within, Option.isSome_map, Option.isSome_iff_exists] at hSome
    obtain ⟨stage', hSupervise⟩ := hSome
    unfold Stage.supervises at hSupervise
    split at hSupervise
    · rfl
    · cases hSupervise
  rcases hOp with rfl | ⟨workers, rfl⟩
  · obtain rfl := hSuper stage hPermits
    simp only [kernelExec, Option.ite_none_right_eq_some, Option.some.injEq] at hExec
    obtain ⟨rfl, rfl⟩ := hExec
    exact ⟨_, rfl, h.advance h.valid h.state rfl h.keys h.unclaimed (fun hB => by cases hB)
      (by simp [kernelRecord]) (by simp [kernelRecord])⟩
  · obtain rfl := hSuper stage hPermits
    exact ⟨_, rfl, h.stay (kernelExec_sameCore hExec rfl) trivial⟩

theorem Recorded.coordinates (h : Recorded k stage w) {o : CoordinatorOp}
    {a : KernelSig.Ans (.coordinator o)}
    (hPermits : (orchestration k).Permits (.inside stage) (.coordinator o))
    (hExec : kernelExec t (.coordinator o) a w.shared = some shared) :
    ∃ stage', Position.next k (.inside stage) (.coordinator o) a = some (.inside stage') ∧
      Recorded k stage' ((kernelMachine Thread).after w t (.coordinator o) a shared) := by
  obtain ⟨a', hPermits⟩ := hPermits
  have hSome : (stage.coordinates k o a').isSome := by
    simpa [Position.next, Position.coordinator] using hPermits
  have hSequencing : ∀ {P : Prop} [Decidable P] {next : Stage},
      (if P then some next else none).isSome → P := by
    intro P _ next hIf
    by_contra hNot
    simp [hNot] at hIf
  cases o with
  | now =>
      have hCore := kernelExec_sameCore hExec rfl
      simp only [Stage.coordinates] at hSome
      split at hSome
      · exact ⟨_, rfl, h.stay hCore trivial⟩
      · exact ⟨_, rfl, h.stay hCore trivial⟩
      · cases hSome
  | stdNow =>
      have hCore := kernelExec_sameCore hExec rfl
      simp only [Stage.coordinates] at hSome
      split at hSome
      · refine ⟨_, rfl, h.exec hCore trivial ?_ ?_ ?_⟩
        · split <;> simp [Stage.beforeClaim]
        · split <;> simp [Stage.beforeWorkers]
        · split <;> simp
      · exact ⟨_, rfl, h.stay hCore trivial⟩
      · cases hSome
  | markCompleted =>
      obtain ⟨rfl, rfl⟩ : stage = .exec .onRuntime ∧ a' = false := by
        simp only [Stage.coordinates] at hSome
        split at hSome
        · exact ⟨rfl, rfl⟩
        · cases hSome
      obtain ⟨c, hMark, rfl⟩ := KernelInner.withCoordinator_some.mp hExec
      simp only [coordinatorMachine, Option.ite_none_right_eq_some, Option.some.injEq] at hMark
      obtain ⟨hAnswer, rfl⟩ := hMark
      obtain rfl : a = false := hAnswer.trans (h.unclaimed rfl)
      exact ⟨_, rfl, h.advance trivial h.state rfl h.keys (fun hB => by cases hB)
        (fun hB => by cases hB) (by simp [kernelRecord]) (by simp [kernelRecord])⟩
  | emit event =>
      have hCore := kernelExec_sameCore hExec rfl
      cases event with
      | shutdownCompleted duration drained aborted instant =>
          obtain rfl : stage = .exec .sequencing := hSequencing hSome
          exact ⟨_, rfl, h.exec hCore trivial (fun hB => by cases hB) (fun hB => by cases hB) (by simp)⟩
      | transition | shutdownStarted =>
          obtain rfl : stage = .exec .sequencing := hSequencing hSome
          exact ⟨_, rfl, h.stay hCore trivial⟩
  | takeHooks | startHook | finishHook =>
      obtain rfl : stage = .exec .sequencing := hSequencing hSome
      exact ⟨_, rfl, h.stay (kernelExec_sameCore hExec rfl) trivial⟩
  | signalToken | registerHook =>
      exact ⟨_, rfl, h.stay (kernelExec_sameCore hExec rfl) trivial⟩

/-- Whatever the thread in charge does next, the record keeps up with it. -/
theorem Recorded.inside (h : Recorded k stage w) (hBuilt : k.WellFormed b) {o : KernelOp}
    {a : KernelSig.Ans o} (hPermits : (orchestration k).Permits (.inside stage) o)
    (hExec : kernelExec t o a w.shared = some shared) :
    ∃ stage', Position.next k (.inside stage) o a = some (.inside stage') ∧
      Recorded k stage' ((kernelMachine Thread).after w t o a shared) := by
  cases o with
  | lifecycle o => cases o with
    | checkAndSet toState => exact h.moves hPermits hExec
    | emit | gauge | counter | snapshot =>
        exact ⟨_, rfl, h.stay (kernelExec_sameCore hExec rfl) trivial⟩
  | coordinator o => exact h.coordinates hPermits hExec
  | startCallback c s => exact h.starts hBuilt hPermits hExec
  | finishCallback c s => exact h.finishes hPermits hExec
  | insertBooted name => exact h.recordsBooted hPermits hExec
  | insertLoaded name => exact h.recordsLoaded hPermits hExec
  | loadedKeys => exact h.reads hPermits hExec
  | hasWorkers => exact h.seesWorkers hPermits hExec
  | signalRequested => exact h.seesSignal hPermits hExec
  | buildRuntime flavor => exact h.builds hPermits hExec
  | takeWorkers => exact h.supervises (Or.inl rfl) hPermits hExec
  | supervise workers => exact h.supervises (Or.inr ⟨workers, rfl⟩) hPermits hExec
  | _ => exact ⟨_, rfl, h.stay (kernelExec_sameCore hExec rfl) trivial⟩

end Inside

section Outside

variable {k : Kernel} {b : KernelBuilder} {stage : Stage} {w : KernelWorld Thread} {t : Thread}
  {o : KernelOp} {a : KernelSig.Ans o} {shared : KernelInner Thread}

theorem Stage.state_created : stage.state = .created ↔ stage = .created := by
  cases stage with
  | forward c | calling c | recording c | broken c => cases c <;> simp [state, Callback.state]
  | closing rollback | callingShutdown rollback => cases rollback <;> simp [state]
  | _ => simp [state]

theorem KernelOp.Neutral.plain (h : o.Neutral) (a : KernelSig.Ans o) :
    (kernelRecord o a).Plain ∧ o.touchesCore = false := by
  cases o with
  | lifecycle o => cases o with
    | checkAndSet => exact h.elim
    | _ => exact ⟨trivial, rfl⟩
  | coordinator o => cases o with
    | signalToken | registerHook => exact ⟨trivial, rfl⟩
    | _ => exact h.elim
  | startCallback | finishCallback | insertBooted | insertLoaded | loadedKeys | hasWorkers
  | signalRequested | takeWorkers | buildRuntime | supervise => exact h.elim
  | _ => exact ⟨trivial, rfl⟩

/-- What a thread outside may do: a neutral operation, or a try at booting. -/
theorem Position.permits_outside (h : (orchestration k).Permits .outside o) :
    o.Neutral ∨ o = .lifecycle (.checkAndSet .booting) := by
  obtain ⟨a', hSome⟩ := h
  cases o with
  | lifecycle o => cases o with
    | checkAndSet toState =>
        apply Or.inr
        have hBooting : toState = .booting := by
          cases a' with
          | ok move =>
              by_contra hNot
              simp [Position.next, Position.lifecycle, hNot] at hSome
          | error e =>
              by_contra hNot
              simp [Position.next, Position.lifecycle, hNot] at hSome
        rw [hBooting]
    | _ => exact Or.inl trivial
  | coordinator o => cases o with
    | signalToken | registerHook => exact Or.inl trivial
    | _ => cases hSome
  | startCallback | finishCallback | insertBooted | insertLoaded | loadedKeys | hasWorkers
  | signalRequested | takeWorkers | buildRuntime | supervise => cases hSome
  | _ => exact Or.inl trivial

/-- How an operation of a thread at this position moves the stage. -/
inductive StageMove (k : Kernel) (o : KernelOp) (a : KernelSig.Ans o) :
    Position → Stage → Stage → Prop where
  | aside {stage : Stage} (hNext : Position.next k .outside o a = some .outside)
      (hPlain : (kernelRecord o a).Plain) : StageMove k o a .outside stage stage
  | begins (hNext : Position.next k .outside o a = some (.inside (.forward .boot 0)))
      (hPlain : (kernelRecord o a).Plain) : StageMove k o a .outside .created (.forward .boot 0)
  | inside {stage stage' : Stage} (hNext : Position.next k (.inside stage) o a = some (.inside stage')) :
      StageMove k o a (.inside stage) stage stage'

/-- A thread outside leaves the stage alone, unless it is the first to boot. -/
theorem Recorded.outside (h : Recorded k stage w) (hPermits : (orchestration k).Permits .outside o)
    (hExec : kernelExec t o a w.shared = some shared) :
    ∃ p stage', Position.next k .outside o a = some p ∧ StageMove k o a .outside stage stage' ∧
      (p = .outside ∧ stage' = stage ∨ p = .inside stage' ∧ stage = .created) ∧
      Recorded k stage' ((kernelMachine Thread).after w t o a shared) := by
  rcases Position.permits_outside hPermits with hNeutral | rfl
  · obtain ⟨hPlain, hCore⟩ := hNeutral.plain a
    have hNext := hNeutral.next (k := k) .outside a
    exact ⟨_, stage, hNext, .aside hNext hPlain, Or.inl ⟨rfl, rfl⟩,
      h.stay (kernelExec_sameCore hExec hCore) hPlain⟩
  · obtain ⟨l, hLifecycle, rfl⟩ := KernelInner.withLifecycle_some.mp hExec
    cases a with
    | error e =>
        obtain ⟨-, -, rfl⟩ := lifecycle_refused hLifecycle
        exact ⟨_, stage, rfl, .aside rfl trivial, Or.inl ⟨rfl, rfl⟩,
          h.stay ⟨rfl, rfl, rfl, rfl⟩ trivial⟩
    | ok move =>
        obtain ⟨fromState, now⟩ := move
        obtain ⟨hLegal, -, -, rfl⟩ := lifecycle_moved hLifecycle
        have hCreated : stage.state = .created := by
          rw [← h.state]
          exact isLegal_booting.mp hLegal
        obtain rfl := Stage.state_created.mp hCreated
        exact ⟨_, _, rfl, .begins rfl trivial, Or.inr ⟨rfl, rfl⟩,
          h.advance (Nat.zero_le _) rfl rfl h.keys h.unclaimed h.workers
            (by simp [kernelRecord]) (by simp [kernelRecord])⟩

end Outside

section System

variable [DecidableEq Thread] {k : Kernel} {b : KernelBuilder} {stage : Stage}
  {pos : Thread → Position} {w : KernelWorld Thread} {t : Thread}

def Position.stage? : Position → Option Stage
  | outside => none
  | inside stage => some stage

theorem Position.stage?_eq_some {p : Position} : p.stage? = some stage ↔ p = .inside stage := by
  cases p <;> simp [stage?]

/-- At most one thread is in charge of the orchestration, and the world fits the stage
it has reached. -/
structure Orchestrated (k : Kernel) (stage : Stage) (pos : Thread → Position)
    (w : KernelWorld Thread) : Prop where
  recorded : Recorded k stage w
  sole : Sole (fun t => (pos t).stage?) stage
  started : ∀ t s, pos t = .inside s → s ≠ .created

omit [DecidableEq Thread] in
theorem Orchestrated.inside (h : Orchestrated k stage pos w) {s : Stage} (hPos : pos t = .inside s) :
    s = stage ∧ stage ≠ .created := by
  obtain rfl := h.sole.at_place t s (Position.stage?_eq_some.mpr hPos)
  exact ⟨rfl, h.started t s hPos⟩

theorem stage?_update (p : Position) :
    (fun u => (Function.update pos t p u).stage?) =
      Function.update (fun u => (pos u).stage?) t p.stage? := by
  funext u
  exact Function.apply_update (fun _ => Position.stage?) pos t p u

theorem Orchestrated.update_outside (h : Orchestrated k stage pos w) (t : Thread) :
    Orchestrated k stage (Function.update pos t .outside) w := by
  refine ⟨h.recorded, by rw [stage?_update]; exact h.sole.leave t, fun u s hPos => ?_⟩
  rcases eq_or_ne u t with rfl | hne
  · simp at hPos
  · exact h.started u s (by simpa [hne] using hPos)

/-- The thread in charge moves on to another stage. -/
theorem Orchestrated.moved {stage' : Stage} {w' : KernelWorld Thread}
    (hFree : ∀ u, u ≠ t → (pos u).stage? = none) (hRecorded : Recorded k stage' w')
    (hStage : stage' ≠ .created) :
    Orchestrated k stage' (Function.update pos t (.inside stage')) w' := by
  have hSole : Sole (fun u => (Function.update pos t (.inside stage') u).stage?) stage' := by
    rw [stage?_update]
    exact Sole.move hFree
  refine ⟨hRecorded, hSole, fun u s hPos => ?_⟩
  rw [hSole.at_place u s (Position.stage?_eq_some.mpr hPos)]
  exact hStage

/-- What any permitted operation does to the stage and to the positions. -/
theorem Orchestrated.step (h : Orchestrated k stage pos w) (hBuilt : k.WellFormed b)
    {o : KernelOp} {a : KernelSig.Ans o} {shared : KernelInner Thread}
    (hPermits : (orchestration k).Permits (pos t) o)
    (hExec : kernelExec t o a w.shared = some shared) :
    ∃ p stage', (orchestration k).next (pos t) o a = some p ∧
      StageMove k o a (pos t) stage stage' ∧
      Orchestrated k stage' (Function.update pos t p) ((kernelMachine Thread).after w t o a shared) := by
  cases hPos : pos t with
  | outside =>
      rw [hPos] at hPermits
      obtain ⟨p, stage', hNext, hMove, hEnd, hRecorded⟩ := h.recorded.outside hPermits hExec
      refine ⟨p, stage', hNext, hMove, ?_⟩
      rcases hEnd with ⟨rfl, rfl⟩ | ⟨rfl, rfl⟩
      · exact { h.update_outside t with recorded := hRecorded }
      · refine Orchestrated.moved (fun u _ => ?_) hRecorded ?_
        · cases hOther : pos u with
          | outside => rfl
          | inside s => exact absurd rfl (h.inside hOther).2
        · rintro rfl
          cases hMove
          rename_i hOutside _
          cases hOutside.symm.trans hNext
  | inside s =>
      obtain ⟨rfl, hStarted⟩ := h.inside hPos
      rw [hPos] at hPermits
      obtain ⟨stage', hNext, hRecorded⟩ := h.recorded.inside hBuilt hPermits hExec
      refine ⟨_, stage', hNext, .inside hNext, Orchestrated.moved (fun u hne => ?_) hRecorded ?_⟩
      · exact h.sole.free (by simp [hPos, Position.stage?]) hne
      · rintro rfl
        have hBefore := kernelExec_created hExec hRecorded.state
        rw [h.recorded.state] at hBefore
        exact hStarted (Stage.state_created.mp hBefore)

/-- The orchestration as a typestate of all threads that hold a clone. -/
abbrev orchestrationTypestate (Thread : Type) [DecidableEq Thread] (hBuilt : k.WellFormed b) :
    Typestate (kernelMachine Thread) (kernelBody k) where
  protocol := orchestration k
  begins _ := .outside
  within _ _ := True
  returns := CallLeaves
  inv pos w := ∃ stage, Orchestrated k stage pos w
  within_begins _ := trivial
  within_next _ _ _ _ _ _ _ := trivial
  obeys := follows_kernelBody hBuilt.distinct
  enters _ _ t _ hInv _ := hInv.imp fun _ h => h.update_outside t
  leaves _ _ t _ _ hInv _ := hInv.imp fun _ h => h.update_outside t
  keeps _ _ _ _ _ _ hInv hPermits hExec := by
    obtain ⟨stage, h⟩ := hInv
    obtain ⟨p, stage', hNext, -, hAfter⟩ := h.step hBuilt hPermits hExec
    exact ⟨p, hNext, stage', hAfter⟩

omit [DecidableEq Thread] in
theorem orchestrated_built (k : Kernel) (clock : Instant) :
    Orchestrated k .created (fun _ => .outside) (KernelConfig.built Thread k clock).world :=
  ⟨recorded_start k clock, Sole.of_none fun _ => rfl, fun _ _ hPos => nomatch hPos⟩

theorem typed_built (hBuilt : k.WellFormed b) (clock : Instant) :
    (orchestrationTypestate Thread hBuilt).Typed (fun _ => .outside)
      (KernelConfig.built Thread k clock) :=
  Typestate.typed_start ⟨.created, orchestrated_built k clock⟩

/-- Every step leaves the stage and the world alone or performs an operation that moves
them together. -/
theorem orchestrated_step (hBuilt : k.WellFormed b) {c c' : KernelConfig Thread}
    {label : Label KernelSig Thread KernelCall} {pos' : Thread → Position}
    (hTyped : (orchestrationTypestate Thread hBuilt).Typed pos c)
    (h : Orchestrated k stage pos c.world) (hTake : KernelStep Thread k c label c')
    (hMoves : (orchestrationTypestate Thread hBuilt).Moves pos label pos') :
    ∃ stage', Orchestrated k stage' pos' c'.world ∧ (stage' = stage ∧ c'.world = c.world ∨
      ∃ t o a shared, kernelExec t o a c.world.shared = some shared ∧
        StageMove k o a (pos t) stage stage' ∧
        c'.world = (kernelMachine Thread).after c.world t o a shared) := by
  cases hTake with
  | @call t call hIdle =>
      obtain rfl := hMoves
      exact ⟨stage, h.update_outside t, Or.inl ⟨rfl, rfl⟩⟩
  | @op t call o next a shared hRun hExec =>
      obtain ⟨p, hNext, rfl⟩ := hMoves
      obtain ⟨p', stage', hNext', hMove, hAfter⟩ := h.step hBuilt (hTyped.permits hRun) hExec
      obtain rfl := Option.some.inj (hNext.symm.trans hNext')
      exact ⟨stage', hAfter, Or.inr ⟨t, o, a, shared, hExec, hMove, rfl⟩⟩
  | @ret t call r hRun =>
      obtain rfl := hMoves
      exact ⟨stage, h.update_outside t, Or.inl ⟨rfl, rfl⟩⟩

/-- A fact about the stage and the world that every move of the stage keeps holds wherever
the orchestration gets to. -/
theorem stage_invariant (hBuilt : k.WellFormed b) (inv : Stage → KernelWorld Thread → Prop)
    {start c : KernelConfig Thread} (hTyped : (orchestrationTypestate Thread hBuilt).Typed pos start)
    (hStart : Orchestrated k stage pos start.world) (hInv : inv stage start.world)
    (hStep : ∀ pos stage stage' w t o a shared, Orchestrated k stage pos w → inv stage w →
      kernelExec t o a w.shared = some shared → StageMove k o a (pos t) stage stage' →
      inv stage' ((kernelMachine Thread).after w t o a shared))
    (reach : Reachable (KernelStep Thread k) start c) :
    ∃ pos stage, (orchestrationTypestate Thread hBuilt).Typed pos c ∧
      Orchestrated k stage pos c.world ∧ inv stage c.world := by
  have hKept : ∀ pos c label pos' c', (orchestrationTypestate Thread hBuilt).Typed pos c →
      (∃ stage, Orchestrated k stage pos c.world ∧ inv stage c.world) →
      KernelStep Thread k c label c' → (orchestrationTypestate Thread hBuilt).Moves pos label pos' →
      (orchestrationTypestate Thread hBuilt).Typed pos' c' →
      ∃ stage, Orchestrated k stage pos' c'.world ∧ inv stage c'.world := by
    rintro pos c label pos' c' hTyped ⟨stage, h, hInv⟩ hTake hMoves -
    obtain ⟨stage', hAfter, hChange⟩ := orchestrated_step hBuilt hTyped h hTake hMoves
    refine ⟨stage', hAfter, ?_⟩
    rcases hChange with ⟨rfl, hSame⟩ | ⟨t, o, a, shared, hExec, hMove, hWorld⟩
    · rw [hSame]
      exact hInv
    · rw [hWorld]
      exact hStep _ _ _ _ _ _ _ _ h hInv hExec hMove
  obtain ⟨pos', hTyped', stage', hEnd⟩ :=
    Typestate.typed_invariant _ hTyped ⟨stage, hStart, hInv⟩ hKept reach
  exact ⟨pos', stage', hTyped', hEnd⟩

/-- In every reachable configuration the threads are somewhere in the orchestration and
the world fits the stage it has reached. -/
theorem orchestrated_of_reachable (hBuilt : k.WellFormed b) {clock : Instant}
    {c : KernelConfig Thread}
    (reach : Reachable (KernelStep Thread k) (KernelConfig.built Thread k clock) c) :
    ∃ pos stage, (orchestrationTypestate Thread hBuilt).Typed pos c ∧
      Orchestrated k stage pos c.world := by
  obtain ⟨pos, hTyped⟩ := Typestate.typed_of_reachable (typed_built hBuilt clock) reach
  obtain ⟨stage, h⟩ := hTyped.1
  exact ⟨pos, stage, hTyped, h⟩

end System

end ServiceKernel
