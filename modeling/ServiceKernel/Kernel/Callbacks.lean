import ServiceKernel.Kernel.Conduct

/-! The callback protocol of a kernel, whoever calls its methods and however the
callbacks end. -/
namespace ServiceKernel

open Interleaving Execution

variable {Thread : Type}

/-- What the callbacks in a history may rely on. -/
structure CallbackProtocol (k : Kernel) (trace : List (Thread × KernelRecord)) : Prop where
  once : ∀ c name, startCount c name trace ≤ 1
  booted_first : ∀ past t name later, trace = past ++ (t, .started .load name) :: later →
    ∀ s ∈ k.subsystems, ReturnedOk .boot s.name past
  only_loaded : ∀ past t name later, trace = past ++ (t, .started .shutdown name) :: later →
    ReturnedOk .load name past
  dependencies_first : ∀ c, c ≠ .shutdown → ∀ s ∈ k.subsystems, ∀ d ∈ s.dependencies,
    ∀ past t later, trace = past ++ (t, .started c s.name) :: later → ReturnedOk c d past
  dependents_closed : ∀ s ∈ k.subsystems, ∀ d ∈ s.dependencies, ∀ past t later,
    trace = past ++ (t, .started .shutdown d) :: later → Started .shutdown s.name trace →
    Returned .shutdown s.name past

section Lawful

variable {k : Kernel} {b : KernelBuilder} {trace : List (Thread × KernelRecord)} {c : Callback}
  {name : String}

theorem startCount_concat (e : Thread × KernelRecord) :
    startCount c name (trace ++ [e]) =
      startCount c name trace + if e.2 = .started c name then 1 else 0 := by
  simp [startCount, List.count_singleton]

theorem startCount_pos : 0 < startCount c name trace ↔ Started c name trace := by
  rw [← mem_started, ← count_started, List.count_pos_iff]

theorem StartsLawfully.once (h : StartsLawfully k trace) : startCount c name trace ≤ 1 := by
  induction trace using List.reverseRecOn with
  | nil => exact Nat.zero_le 1
  | append_singleton trace e ih =>
      obtain ⟨hBefore, hLast⟩ := every_concat.mp h
      rw [startCount_concat]
      split
      · rename_i hStart
        have hFresh := (hLast c name hStart).fresh
        rw [← startCount_pos] at hFresh
        omega
      · exact ih hBefore

/-- No subsystem depends on itself. -/
theorem Kernel.WellFormed.irreflexive (h : k.WellFormed b) {s : Subsystem} (hMem : s ∈ k.subsystems)
    : s.name ∉ s.dependencies := by
  intro hDep
  obtain ⟨i, hNext⟩ := List.getElem?_of_mem hMem
  exact h.not_before hNext (h.supplied hNext hMem rfl hDep)

/-- A history of lawful starts follows the protocol. -/
theorem StartsLawfully.protocol (h : StartsLawfully k trace) (hBuilt : k.WellFormed b) :
    CallbackProtocol k trace where
  once _ _ := h.once
  booted_first past t name later hSplit s hMem :=
    (h past _ later hSplit _ _ rfl).booted rfl s.name (List.mem_map_of_mem hMem)
  only_loaded past t name later hSplit := (h past _ later hSplit _ _ rfl).loaded rfl
  dependencies_first c hForward s hMem d hDep past t later hSplit :=
    (h past _ later hSplit _ _ rfl).supplied hForward s hMem rfl d hDep
  dependents_closed s hMem d hDep past t later hSplit hStarted := by
    have hLaw := h past _ later hSplit .shutdown d rfl
    obtain ⟨u, hEvent⟩ := hStarted
    rw [hSplit] at hEvent
    rcases List.mem_append.mp hEvent with hPast | hLater
    · exact hLaw.released rfl s hMem hDep ⟨u, hPast⟩
    · rcases List.mem_cons.mp hLater with hSame | hAfter
      · obtain ⟨-, hSame⟩ := KernelRecord.started.inj (Prod.mk.inj hSame).2
        exact absurd (hSame ▸ hDep) (hBuilt.irreflexive hMem)
      · -- its own shutdown would start after that of its dependency
        obtain ⟨middle, rest, rfl⟩ := List.append_of_mem hAfter
        have hOther := h (past ++ (t, .started .shutdown d) :: middle)
          (u, .started .shutdown s.name) rest (by simp [hSplit]) .shutdown s.name rfl
        exact absurd ⟨t, List.mem_append_right past List.mem_cons_self⟩
          (hOther.unreleased rfl s hMem rfl d hDep)

end Lawful

section System

variable [DecidableEq Thread] {k : Kernel} {b : KernelBuilder} {clock : Instant}
  {c : KernelConfig Thread}

theorem Stage.starts_not_terminal {stage stage' : Stage} {cb : Callback} {s : Subsystem}
    (h : stage.starts k cb s = some stage') : stage.state.isTerminal = false := by
  cases starts_cases h with
  | forward => cases cb <;> rfl
  | @closing rollback => cases rollback <;> rfl

/-- However the calls of any number of threads interleave and however the callbacks
end, they follow the protocol, and none starts in a terminal state. -/
theorem callback_protocol (hBuild : b.build = .ok k)
    (reach : Reachable (KernelStep Thread k) (KernelConfig.built Thread k clock) c) :
    CallbackProtocol k c.world.trace ∧
      ∀ t cb s a c', KernelStep Thread k c (.op t (.startCallback cb s) a) c' →
        c.world.shared.lifecycle.state.isTerminal = false := by
  have hBuilt := build_wellFormed hBuild
  obtain ⟨pos, stage, hTyped, h⟩ := orchestrated_of_reachable hBuilt reach
  refine ⟨h.recorded.lawful.protocol hBuilt, fun t cb s a c' hStep => ?_⟩
  cases hStep with
  | op hRun hExec =>
      obtain ⟨a', hSome⟩ := hTyped.permits hRun
      cases hPos : pos t with
      | outside =>
          rw [hPos] at hSome
          cases hSome
      | inside s' =>
          obtain ⟨rfl, -⟩ := h.inside hPos
          rw [hPos] at hSome
          obtain ⟨stage', hStart⟩ : ∃ stage', s'.starts k cb s = some stage' := by
            simpa [Position.next, Position.within, Option.isSome_iff_exists] using hSome
          rw [h.recorded.state]
          exact Stage.starts_not_terminal hStart

/-- A consumer panics while it loads, and the rollback shuts down what was loaded. -/
theorem callback_protocol_rollback :
    ∃ k, ((KernelBuilder.new "service").withSubsystem "db" []).build = .ok k ∧
      ∃ c : KernelConfig Unit, startCount .shutdown "lifecycle" c.world.trace = 1 ∧
        CallbackProtocol k c.world.trace := by
  let env : Environment := ⟨fun cb s => if cb = .load ∧ s.name = "db" then .panicked none else .ok,
    fun _ => .ok (), fun _ => .ok, .cancelled⟩
  have hPlays : env.plays ((KernelBuilder.new "service").withSubsystem "db" [])
      (.call () .boot :: List.replicate 70 (.go ()))
      (fun c => startCount .shutdown "lifecycle" c.world.trace = 1) = true := by
    decide +kernel
  obtain ⟨k, hBuild, c, reach, hCount⟩ := Environment.reachable_of_plays hPlays
  exact ⟨k, hBuild, c, of_decide_eq_true hCount, (callback_protocol hBuild reach).1⟩

end System

end ServiceKernel
