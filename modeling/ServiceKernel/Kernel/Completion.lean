import ServiceKernel.Kernel.Reference
import ServiceKernel.Semantics.Angelic

/-! A thread that runs alone on a fresh kernel can bring a call of `run` to its end, however
the callbacks are to end, if nothing stands in the way of the exec phase. -/
namespace ServiceKernel

open Interleaving Execution

variable {Thread : Type}

/-- All but the lifecycle, the health and the bookkeeping is as before. -/
structure KernelInner.Served (s s' : KernelInner Thread) : Prop where
  coordinator : s'.coordinator = s.coordinator
  clock : s'.clock = s.clock
  signalled : s'.signalled = s.signalled
  workers : s'.workers = s.workers
  signalHandlerRequested : s'.signalHandlerRequested = s.signalHandlerRequested
  holder : s'.holder = s.holder

namespace KernelInner.Served

variable {s s' s'' : KernelInner Thread}

theorem refl : s.Served s := ⟨rfl, rfl, rfl, rfl, rfl, rfl⟩

theorem trans (h : s.Served s') (h' : s'.Served s'') : s.Served s'' where
  coordinator := h'.coordinator.trans h.coordinator
  clock := h'.clock.trans h.clock
  signalled := h'.signalled.trans h.signalled
  workers := h'.workers.trans h.workers
  signalHandlerRequested := h'.signalHandlerRequested.trans h.signalHandlerRequested
  holder := h'.holder.trans h.holder

end KernelInner.Served

/-- Nobody holds a mutex. -/
def KernelInner.Unlocked (s : KernelInner Thread) : Prop := ∀ m, s.holder m = none

/-- The script lets the subsystems that the kernel brings along succeed. -/
def Script.Sound (script : Script) (subsystems : List Subsystem) : Prop :=
  ∀ s ∈ subsystems, s.builtin = true → ∀ c, script c s.name = .ok

/-- The kernel machine in an environment that goes by the script. -/
abbrev scriptedMachine (Thread : Type) (script : Script) :
    Machine KernelSig Thread (KernelInner Thread) KernelRecord :=
  (kernelMachine Thread).restrict script.allows

section Phases

variable {script : Script} {t : Thread} {α : Type} {post : α → KernelInner Thread → Prop}
  {s : KernelInner Thread} {c : Callback} {subsystems : List Subsystem}

theorem canFinish_op {o : KernelOp} {next : KernelSig.Ans o → Program KernelSig α}
    {s' : KernelInner Thread} (a : KernelSig.Ans o) (hAllows : script.allows o a = true)
    (hExec : kernelExec t o a s = some s')
    (h : CanFinish (scriptedMachine Thread script) t post (next a) s') :
    CanFinish (scriptedMachine Thread script) t post (.perform o next) s :=
  .op a (Machine.restrict_exec.mpr ⟨hAllows, hExec⟩) h

theorem canFinish_lock {m : KernelMutex} {next : Unit → Program KernelSig α}
    (hFree : s.holder m = none)
    (h : CanFinish (scriptedMachine Thread script) t post (next ()) (s.locks m t)) :
    CanFinish (scriptedMachine Thread script) t post (.perform (.lock m) next) s := by
  refine canFinish_op () rfl ?_ h
  simp [kernelExec, hFree]

theorem unlocks_locks {m : KernelMutex} (hFree : s.holder m = none) :
    Function.update (Function.update s.holder m (some t)) m none = s.holder := by
  rw [Function.update_idem, ← hFree, Function.update_eq_self]

theorem canFinish_transition {toState : KernelState}
    (hLegal : isLegal s.lifecycle.state toState = true) :
    CanFinish (scriptedMachine Thread script) t
      (fun r s' => r = .ok () ∧ s.Served s' ∧ s'.lifecycle.state = toState)
      (onLifecycle (transition toState)) s := by
  have hMove : kernelExec t (.lifecycle (.checkAndSet toState)) (.ok (s.lifecycle.state, s.clock)) s =
      some { s with lifecycle := ⟨toState, s.clock⟩ } := by
    simp [kernelExec, KernelInner.withLifecycle, lifecycleMachine, assertLegal_ok_iff.mpr hLegal]
  refine canFinish_op (.ok (s.lifecycle.state, s.clock)) rfl hMove ?_
  refine canFinish_op () rfl rfl (canFinish_op () rfl rfl (canFinish_op () rfl rfl ?_))
  exact ⟨rfl, ⟨rfl, rfl, rfl, rfl, rfl, rfl⟩, rfl⟩

theorem canFinish_callSubsystem {sub : Subsystem}
    (hSound : sub.builtin = true → script c sub.name = .ok) :
    CanFinish (scriptedMachine Thread script) t (fun r s' => r = script c sub.name ∧ s' = s)
      (callSubsystem c sub) s := by
  refine canFinish_op () rfl rfl (canFinish_op (script c sub.name) (decide_eq_true rfl) ?_ ⟨rfl, rfl⟩)
  have hEnds : ¬ (sub.builtin = true ∧ script c sub.name ≠ .ok) := fun h => h.2 (hSound h.1)
  exact if_neg hEnds

/-- What `record` needs and does. -/
def Records (script : Script) (t : Thread) (record : String → Program KernelSig Unit) : Prop :=
  ∀ name (s : KernelInner Thread), s.holder .bookkeeping = none →
    CanFinish (scriptedMachine Thread script) t
      (fun _ s' => s.Served s' ∧ s'.lifecycle = s.lifecycle) (record name) s

theorem records_booted : Records script t recordBooted := by
  intro name s hFree
  refine canFinish_lock hFree (canFinish_op (s.clock : Nat) rfl (if_pos (Nat.le_refl _)) ?_)
  exact canFinish_op () rfl rfl ⟨⟨rfl, rfl, rfl, rfl, rfl, unlocks_locks hFree⟩, rfl⟩

theorem records_loaded : Records script t recordLoaded := by
  intro name s hFree
  refine canFinish_lock hFree (canFinish_op (s.clock : Nat) rfl (if_pos (Nat.le_refl _)) ?_)
  exact canFinish_op () rfl rfl ⟨⟨rfl, rfl, rfl, rfl, rfl, unlocks_locks hFree⟩, rfl⟩

/-- The result of a forward loop by the script. -/
def Script.forwardResult (script : Script) (c : Callback) (subsystems : List Subsystem) :
    Except KernelError Unit :=
  match (script.attempt c subsystems).2 with
  | some error => .error error
  | none => .ok ()

theorem canFinish_forwardPhase {record : String → Program KernelSig Unit}
    (hRecord : Records script t record) (hSound : script.Sound subsystems)
    (hFree : s.holder .bookkeeping = none) :
    CanFinish (scriptedMachine Thread script) t
      (fun r s' => r = script.forwardResult c subsystems ∧ s.Served s' ∧ s'.lifecycle = s.lifecycle)
      (forwardPhase c record subsystems) s := by
  induction subsystems generalizing s with
  | nil => exact ⟨rfl, .refl, rfl⟩
  | cons sub rest ih =>
      have hRest : script.Sound rest := fun other hMem => hSound other (List.mem_cons_of_mem sub hMem)
      refine (canFinish_callSubsystem fun hBuiltin =>
        hSound sub List.mem_cons_self hBuiltin c).bind fun outcome s' hEnd => ?_
      obtain ⟨rfl, rfl⟩ := hEnd
      cases hOutcome : (script c sub.name).error sub.name with
      | some e =>
          refine ⟨?_, .refl, rfl⟩
          rw [Script.forwardResult, Script.attempt_cons hOutcome]
      | none =>
          have hResult : script.forwardResult c (sub :: rest) = script.forwardResult c rest := by
            have hPassed : script.error c sub = none := hOutcome
            simp only [Script.forwardResult, Script.attempt, hPassed]
          rw [hResult]
          apply (hRecord sub.name s' hFree).bind
          intro _ s'' hEnd
          obtain ⟨hServed, hLifecycle⟩ := hEnd
          apply (ih hRest (by rw [hServed.holder]; exact hFree)).mono
          intro r s₃ hEnd
          exact ⟨hEnd.1, hServed.trans hEnd.2.1, hEnd.2.2.trans hLifecycle⟩

theorem canFinish_shutdownEach (hSound : script.Sound subsystems) (firstErr : Option KernelError) :
    CanFinish (scriptedMachine Thread script) t (fun _ s' => s' = s)
      (shutdownEach subsystems firstErr) s := by
  induction subsystems generalizing firstErr with
  | nil => exact rfl
  | cons sub rest ih =>
      have hRest : script.Sound rest := fun other hMem => hSound other (List.mem_cons_of_mem sub hMem)
      refine (canFinish_callSubsystem fun hBuiltin =>
        hSound sub List.mem_cons_self hBuiltin .shutdown).bind fun outcome s' hEnd => ?_
      obtain ⟨-, rfl⟩ := hEnd
      exact ih hRest _

end Phases

section Boot

variable {k : Kernel} {script : Script} {t : Thread} {s : KernelInner Thread} {c : Callback}

/-- A phase that holds the lock on the subsystems throughout. -/
theorem canFinish_locked {α β : Type} (mid : α → KernelInner Thread → Prop)
    {post : β → KernelInner Thread → Prop} {program : Program KernelSig α}
    {next : α → Program KernelSig β} (hFree : s.Unlocked)
    (h : CanFinish (scriptedMachine Thread script) t
      (fun r s' => mid r (s'.unlocks .subsystems) ∧ (s.locks .subsystems t).Served s') program
      (s.locks .subsystems t))
    (hNext : ∀ r s', mid r s' → s.Served s' →
      CanFinish (scriptedMachine Thread script) t post (next r) s') :
    CanFinish (scriptedMachine Thread script) t post (do
      (KernelOp.lock .subsystems).call
      let r ← program
      (KernelOp.unlock .subsystems).call
      next r) s := by
  refine canFinish_lock (hFree _) (h.bind fun r s' hEnd => canFinish_op () rfl rfl ?_)
  obtain ⟨hMid, hServed⟩ := hEnd
  have hHolder : (s'.unlocks .subsystems).holder = s.holder := by
    have hLocked : s'.holder = Function.update s.holder .subsystems (some t) := hServed.holder
    simp only [KernelInner.unlocks, hLocked]
    exact unlocks_locks (hFree _)
  exact hNext r _ hMid ⟨hServed.coordinator, hServed.clock, hServed.signalled, hServed.workers,
    hServed.signalHandlerRequested, hHolder⟩

/-- How one of the two forward phases ends. -/
def ForwardDone (script : Script) (k : Kernel) (c : Callback) (s : KernelInner Thread)
    (r : Except KernelError Unit) (s' : KernelInner Thread) : Prop :=
  r = script.forwardResult c k.subsystems ∧ s'.lifecycle = s.lifecycle ∧ s.Served s'

theorem canFinish_forward {record : String → Program KernelSig Unit}
    (hRecord : Records script t record) (hSound : script.Sound k.subsystems) (hFree : s.Unlocked) :
    CanFinish (scriptedMachine Thread script) t (ForwardDone script k c s) (do
      (KernelOp.lock .subsystems).call
      let result ← forwardPhase c record k.subsystems
      (KernelOp.unlock .subsystems).call
      return result) s := by
  have hOther : (s.locks .subsystems t).holder .bookkeeping = none := by
    simpa [KernelInner.locks] using hFree .bookkeeping
  refine canFinish_locked (fun r s' => r = script.forwardResult c k.subsystems ∧
    s'.lifecycle = s.lifecycle) hFree ?_ fun r s' hMid hServed => ⟨hMid.1, hMid.2, hServed⟩
  apply (canFinish_forwardPhase hRecord hSound hOther).mono
  intro r s' hEnd
  exact ⟨⟨hEnd.1, hEnd.2.2⟩, hEnd.2.1⟩

theorem canFinish_runBootPhase (hSound : script.Sound k.subsystems) (hFree : s.Unlocked) :
    CanFinish (scriptedMachine Thread script) t (ForwardDone script k .boot s) (runBootPhase k) s :=
  canFinish_forward records_booted hSound hFree

theorem canFinish_runLoadPhase (hSound : script.Sound k.subsystems) (hFree : s.Unlocked) :
    CanFinish (scriptedMachine Thread script) t (ForwardDone script k .load s) (runLoadPhase k) s :=
  canFinish_forward records_loaded hSound hFree

/-- How one of the two shutdown phases ends. -/
def ShutdownDone {α : Type} (s : KernelInner Thread) (_ : α) (s' : KernelInner Thread) : Prop :=
  s'.lifecycle = s.lifecycle ∧ s.Served s'

theorem canFinish_closing {α : Type} {subsystems : List Subsystem}
    {next : Option KernelError → Program KernelSig α} (hSound : script.Sound subsystems)
    (hFree : s.Unlocked)
    (hNext : ∀ firstErr s', ShutdownDone s firstErr s' →
      CanFinish (scriptedMachine Thread script) t (ShutdownDone s) (next firstErr) s') :
    CanFinish (scriptedMachine Thread script) t (ShutdownDone s) (do
      (KernelOp.lock .subsystems).call
      let firstErr ← shutdownEach subsystems none
      (KernelOp.unlock .subsystems).call
      next firstErr) s := by
  refine canFinish_locked (fun _ s' => s'.lifecycle = s.lifecycle) hFree ?_
    fun firstErr s' hMid hServed => hNext firstErr s' ⟨hMid, hServed⟩
  refine (canFinish_shutdownEach hSound none).mono fun _ s' hEnd => ?_
  subst hEnd
  exact ⟨rfl, .refl⟩

theorem canFinish_runShutdownPhase (hSound : script.Sound k.subsystems) (hFree : s.Unlocked) :
    CanFinish (scriptedMachine Thread script) t (ShutdownDone s) (runShutdownPhase k) s := by
  have hReverse : script.Sound k.subsystems.reverse :=
    fun sub hMem => hSound sub (List.mem_reverse.mp hMem)
  apply canFinish_closing hReverse hFree
  intro firstErr s' hEnd
  cases firstErr <;> exact hEnd

theorem canFinish_runShutdownPhaseToLoaded (hSound : script.Sound k.subsystems)
    (hFree : s.Unlocked) :
    CanFinish (scriptedMachine Thread script) t (ShutdownDone s) (runShutdownPhaseToLoaded k) s := by
  refine canFinish_lock (hFree _) (canFinish_op s.book.loadedAt.keys rfl (if_pos rfl) ?_)
  apply canFinish_op () rfl rfl
  have hSame : (s.locks .bookkeeping t).unlocks .bookkeeping = s := by
    obtain ⟨lifecycle, health, coordinator, clock, signalled, workers, requested, book, holder⟩ := s
    simp only [KernelInner.locks, KernelInner.unlocks, KernelInner.mk.injEq, true_and]
    exact unlocks_locks (hFree _)
  rw [hSame]
  have hLoaded : script.Sound (k.subsystems.reverse.filter fun sub => sub.name ∈ s.book.loadedAt.keys) :=
    fun sub hMem => hSound sub (List.mem_reverse.mp (List.mem_of_mem_filter hMem))
  have hLoop := @canFinish_closing Thread script t s Unit _ (fun _ => .done ()) hLoaded hFree
    fun _ _ hEnd => hEnd
  exact hLoop

/-- How `boot` ends on a fresh kernel. -/
def BootDone (script : Script) (k : Kernel) (s : KernelInner Thread) (r : Except KernelError Unit)
    (s' : KernelInner Thread) : Prop :=
  s.Served s' ∧ match r with
    | .error _ => s'.lifecycle.state = .failed
    | .ok _ => s'.lifecycle.state = .running ∧ script.forwardResult .boot k.subsystems = .ok () ∧
        script.forwardResult .load k.subsystems = .ok ()

theorem canFinish_boot (hSound : script.Sound k.subsystems) (hFree : s.Unlocked)
    (hCreated : s.lifecycle.state = .created) :
    CanFinish (scriptedMachine Thread script) t (BootDone script k s) (boot k) s := by
  have hUnlocked : ∀ s', s.Served s' → s'.Unlocked := by
    intro s' hServed m
    rw [hServed.holder]
    exact hFree m
  have hBegin : isLegal s.lifecycle.state .booting = true := by rw [hCreated]; rfl
  apply (canFinish_transition hBegin).bind
  intro r s₁ hEnd
  obtain ⟨rfl, hServed₁, hState₁⟩ := hEnd
  apply (canFinish_runBootPhase hSound (hUnlocked s₁ hServed₁)).bind
  intro r s₂ hEnd
  obtain ⟨hBoot, hSame₂, hServed₂⟩ := hEnd
  have hBefore₂ := hServed₁.trans hServed₂
  have hFail₂ : isLegal s₂.lifecycle.state .failed = true := by rw [hSame₂, hState₁]; rfl
  have hLoad : isLegal s₂.lifecycle.state .loading = true := by rw [hSame₂, hState₁]; rfl
  cases r with
  | error e =>
      apply (canFinish_transition hFail₂).bind
      intro _ s₃ hEnd
      exact ⟨hBefore₂.trans hEnd.2.1, hEnd.2.2⟩
  | ok u =>
      apply (canFinish_transition hLoad).bind
      intro r s₃ hEnd
      obtain ⟨rfl, hServed₃, hState₃⟩ := hEnd
      have hBefore₃ := hBefore₂.trans hServed₃
      apply (canFinish_runLoadPhase hSound (hUnlocked s₃ hBefore₃)).bind
      intro r s₄ hEnd
      obtain ⟨hLoaded, hSame₄, hServed₄⟩ := hEnd
      have hBefore₄ := hBefore₃.trans hServed₄
      cases r with
      | error e =>
          refine (canFinish_runShutdownPhaseToLoaded hSound (hUnlocked s₄ hBefore₄)).bind
            fun _ s₅ hEnd => ?_
          obtain ⟨hSame₅, hServed₅⟩ := hEnd
          have hFail₅ : isLegal s₅.lifecycle.state .failed = true := by
            rw [hSame₅, hSame₄, hState₃]
            rfl
          apply (canFinish_transition hFail₅).bind
          intro _ s₆ hEnd
          exact ⟨(hBefore₄.trans hServed₅).trans hEnd.2.1, hEnd.2.2⟩
      | ok u =>
          have hRun : isLegal s₄.lifecycle.state .running = true := by rw [hSame₄, hState₃]; rfl
          apply (canFinish_transition hRun).bind
          intro r s₅ hEnd
          obtain ⟨rfl, hServed₅, hState₅⟩ := hEnd
          exact ⟨hBefore₄.trans hServed₅, hState₅, hBoot.symm, hLoaded.symm⟩

end Boot

section Exec

variable {k : Kernel} {script : Script} {t : Thread} {s : KernelInner Thread}

/-- With every hook returning at once the loop goes through the list. -/
theorem canFinish_runHooks {deadline : Instant} {hooks : List ShutdownHook}
    {succeeded : List String} {failed : List (String × HookFailure)} {c : Clocked CoordinatorInner} :
    CanFinish (coordinatorMachine Thread) t (fun r _ => r.isSome = true)
      (runHooks deadline hooks succeeded failed) c := by
  have hRead : ∀ o : CoordinatorOp, c.reads c.clock = some c := fun _ => if_pos (Nat.le_refl _)
  induction hooks generalizing succeeded failed with
  | nil => exact rfl
  | cons hook hooks ih =>
      refine .op (c.clock : Nat) (hRead .stdNow) ?_
      simp only [Program.bind]
      split
      · exact ih
      · refine .op (c.clock : Nat) (hRead (.startHook hook)) ?_
        refine .op (⟨.ok, c.clock⟩ : HookEnd) ?_ ih
        exact (if_pos (Nat.le_add_right _ _)).trans (hRead .stdNow)

/-- Whoever finds the sequence unclaimed and the deadline representable gets a report. -/
theorem canFinish_coordinatorShutdown {grace : Duration} {c : Clocked CoordinatorInner}
    (hUnclaimed : c.state.completed = false) (hDeadline : (c.clock.checkedAdd grace).isSome = true) :
    CanFinish (coordinatorMachine Thread) t (fun r _ => r.isSome = true) (coordinatorShutdown grace)
      c := by
  obtain ⟨deadline, hSome⟩ := Option.isSome_iff_exists.mp hDeadline
  have hRead : ∀ c : Clocked CoordinatorInner, c.reads c.clock = some c :=
    fun _ => if_pos (Nat.le_refl _)
  refine .op (c.clock : Nat) (hRead c) (.op false (if_pos hUnclaimed.symm) ?_)
  refine .op (c.clock : Nat) (hRead _) ?_
  simp only [Program.bind, hSome]
  refine .op () rfl (.op () rfl (.op c.state.hooks (if_pos rfl) ?_))
  refine canFinish_runHooks.bind fun lists c' hEnd => ?_
  cases lists with
  | none => cases hEnd
  | some lists => exact .op (c'.clock : Nat) (hRead c') (.op () rfl rfl)

/-- What the exec phase may leave changed. -/
structure KernelInner.Undisturbed (s s' : KernelInner Thread) : Prop where
  lifecycle : s'.lifecycle = s.lifecycle
  signalled : s'.signalled = s.signalled
  holder : s'.holder = s.holder

/-- The part of the shared state that belongs to the coordinator. -/
def KernelInner.coordinated (s : KernelInner Thread) : Clocked CoordinatorInner :=
  ⟨s.coordinator, s.clock⟩

def KernelInner.setCoordinated (s : KernelInner Thread) (c : Clocked CoordinatorInner) :
    KernelInner Thread :=
  { s with coordinator := c.state, clock := c.clock }

theorem canFinish_onCoordinator (hUnclaimed : s.coordinator.completed = false)
    (hDeadline : (s.clock.checkedAdd k.shutdownGrace).isSome = true) :
    CanFinish (scriptedMachine Thread script) t
      (fun r s' => r.isSome = true ∧ s.Undisturbed s')
      (onCoordinator (coordinatorShutdown k.shutdownGrace)) s := by
  have hRun : CanFinish (coordinatorMachine Thread) t (fun r _ => r.isSome = true)
      (coordinatorShutdown k.shutdownGrace) s.coordinated :=
    canFinish_coordinatorShutdown hUnclaimed hDeadline
  have hExec : ∀ (o : CoordinatorOp) (a : CoordinatorSig.Ans o) (s : KernelInner Thread) c,
      (coordinatorMachine Thread).exec t o a s.coordinated = some c → ∃ a', a' = a ∧
        (scriptedMachine Thread script).exec t (.coordinator o) a' s = some (s.setCoordinated c) :=
    fun o a s c hStep => ⟨a, rfl, Machine.restrict_exec.mpr
      ⟨rfl, KernelInner.withCoordinator_some.mpr ⟨c, hStep, rfl⟩⟩⟩
  have hLift := CanFinish.lift (scriptedMachine Thread script) KernelOp.coordinator (fun _ a => a)
    KernelInner.coordinated KernelInner.setCoordinated hExec
    (fun _ _ => rfl) (fun _ _ _ => rfl) (fun _ => rfl) hRun
  refine hLift.mono fun r s' hEnd => ⟨hEnd.1, ?_⟩
  rw [hEnd.2]
  exact ⟨rfl, rfl, rfl⟩

/-- The exec phase can be left. With a representable deadline the shutdown goes through;
without one it is left only where nothing asks for the multi-threaded runtime, and then only
if the small runtime for the coordinator is refused. -/
def ExecEnds (k : Kernel) (s : KernelInner Thread) : Prop :=
  s.workers = [] ∧ s.signalHandlerRequested = false ∨
    (s.clock.checkedAdd k.shutdownGrace).isSome = true

/-- Once the shutdown is signalled. -/
theorem canFinish_runExecPhase (hSignalled : s.signalled = true)
    (hUnclaimed : s.coordinator.completed = false) (hEnds : ExecEnds k s) :
    CanFinish (scriptedMachine Thread script) t
      (fun r s' => (∃ report, r = .released report) ∧ s.Undisturbed s') (runExecPhase k) s := by
  refine canFinish_op (!s.workers.isEmpty) rfl (if_pos rfl) ?_
  refine canFinish_op s.signalHandlerRequested rfl (if_pos rfl) ?_
  simp only [Program.bind]
  split
  · refine canFinish_op () rfl (if_pos hSignalled) ?_
    by_cases hDeadline : (s.clock.checkedAdd k.shutdownGrace).isSome = true
    · refine canFinish_op (.ok ()) rfl rfl ?_
      apply (canFinish_onCoordinator hUnclaimed hDeadline).bind
      intro report s' hEnd
      obtain ⟨hReport, hServed⟩ := hEnd
      cases report with
      | none => cases hReport
      | some report => exact ⟨⟨some report, rfl⟩, hServed⟩
    · -- the coordinator would never get through, so it must not be asked
      exact canFinish_op (.error "") rfl rfl ⟨⟨none, rfl⟩, rfl, rfl, rfl⟩
  · rename_i hRuntime
    have hDeadline : (s.clock.checkedAdd k.shutdownGrace).isSome = true := by
      rcases hEnds with ⟨hWorkers, hRequested⟩ | hDeadline
      · exact absurd (by simp [hWorkers, hRequested]) hRuntime
      · exact hDeadline
    refine canFinish_op (.ok ()) rfl rfl (canFinish_op s.workers rfl (if_pos rfl) ?_)
    refine canFinish_op s.signalHandlerRequested rfl (if_pos rfl) ?_
    refine canFinish_op .cancelled rfl (if_pos hSignalled) ?_
    have hCoordinator := @canFinish_onCoordinator Thread k script t { s with workers := [] }
      hUnclaimed hDeadline
    apply hCoordinator.bind
    intro report s' hEnd
    obtain ⟨hReport, hServed⟩ := hEnd
    cases report with
    | none => cases hReport
    | some report =>
        refine canFinish_op () rfl rfl (canFinish_op () rfl rfl ?_)
        exact ⟨⟨some report, rfl⟩, hServed.lifecycle, hSignalled.symm, hServed.holder⟩

/-- A call of `run` on a fresh kernel whose shutdown is already signalled comes to its end,
in a terminal state. -/
theorem canFinish_run (hSound : script.Sound k.subsystems) (hFree : s.Unlocked)
    (hCreated : s.lifecycle.state = .created) (hSignalled : s.signalled = true)
    (hUnclaimed : s.coordinator.completed = false)
    (hEnds : script.forwardResult .boot k.subsystems = .ok () →
      script.forwardResult .load k.subsystems = .ok () → ExecEnds k s) :
    CanFinish (scriptedMachine Thread script) t
      (fun exit s' => exit.execOk = true ∧ s'.lifecycle.state.isTerminal = true) (run k) s := by
  apply (canFinish_boot hSound hFree hCreated).bind
  intro r s₁ hEnd
  obtain ⟨hServed₁, hState₁⟩ := hEnd
  cases r with
  | error e => exact ⟨rfl, by rw [show s₁.lifecycle.state = .failed from hState₁]; rfl⟩
  | ok u =>
      obtain ⟨hRunning, hBoot, hLoad⟩ := hState₁
      have hEnds₁ : ExecEnds k s₁ := by
        rcases hEnds hBoot hLoad with ⟨hWorkers, hRequested⟩ | hDeadline
        · exact Or.inl ⟨hServed₁.workers.trans hWorkers,
            hServed₁.signalHandlerRequested.trans hRequested⟩
        · exact Or.inr (by rw [hServed₁.clock]; exact hDeadline)
      refine (canFinish_runExecPhase (hServed₁.signalled.trans hSignalled)
        (by rw [hServed₁.coordinator]; exact hUnclaimed) hEnds₁).bind fun r s₂ hEnd => ?_
      obtain ⟨⟨report, rfl⟩, hServed₂⟩ := hEnd
      have hFree₂ : s₂.Unlocked := fun m => by
        rw [hServed₂.holder, hServed₁.holder]
        exact hFree m
      have hStop : isLegal s₂.lifecycle.state .stopping = true := by
        rw [hServed₂.lifecycle, hRunning]
        rfl
      apply (canFinish_transition hStop).bind
      intro r s₃ hEnd
      obtain ⟨rfl, hServed₃, hState₃⟩ := hEnd
      have hFree₃ : s₃.Unlocked := fun m => by
        rw [hServed₃.holder]
        exact hFree₂ m
      apply (canFinish_runShutdownPhase hSound hFree₃).bind
      intro result s₄ hEnd
      have hStopped : isLegal s₄.lifecycle.state .stopped = true := by
        rw [hEnd.1, hState₃]
        rfl
      apply (canFinish_transition hStopped).bind
      intro r s₅ hEnd
      obtain ⟨rfl, -, hState₅⟩ := hEnd
      exact ⟨rfl, by rw [hState₅]; rfl⟩

end Exec

end ServiceKernel
