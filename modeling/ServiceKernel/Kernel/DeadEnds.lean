import ServiceKernel.Kernel.Completion
import ServiceKernel.Kernel.Deadlock
import ServiceKernel.Kernel.HookFailures

/-! From which configurations at rest a kernel can still be brought to `Stopped` or `Failed`:
none after a `boot` that succeeded, since only `run` stops a kernel and `run` starts by
booting it. -/
namespace ServiceKernel

open Interleaving Execution

variable {Thread : Type}

section Settled

variable [DecidableEq Thread] {k : Kernel} {b : KernelBuilder} {pos : Thread → Position}
  {stage : Stage} {c c' : KernelConfig Thread}

/-- Nobody is in charge of a kernel that has left `Created`. -/
structure Abandoned (k : Kernel) (stage : Stage) (pos : Thread → Position)
    (c : KernelConfig Thread) : Prop where
  orchestrated : Orchestrated k stage pos c.world
  outside : ∀ t, pos t = .outside
  begun : stage ≠ .created

/-- Nobody can take charge of it any more. -/
theorem Abandoned.step (hBuilt : k.WellFormed b)
    (hTyped : (orchestrationTypestate Thread hBuilt).Typed pos c) (h : Abandoned k stage pos c)
    {label : Label KernelSig Thread KernelCall} {pos' : Thread → Position}
    (hTake : KernelStep Thread k c label c')
    (hMoves : (orchestrationTypestate Thread hBuilt).Moves pos label pos') :
    Abandoned k stage pos' c' := by
  have hLeft : ∀ t u, Function.update pos t .outside u = .outside := by
    intro t u
    rcases eq_or_ne u t with rfl | hne
    · simp
    · simpa [hne] using h.outside u
  cases hTake with
  | @call t call hIdle =>
      obtain rfl := hMoves
      exact ⟨h.orchestrated.update_outside t, hLeft t, h.begun⟩
  | @op t call o next a shared hRun hExec =>
      obtain ⟨p, hNext, rfl⟩ := hMoves
      obtain ⟨p', stage', hNext', hMove, hAfter⟩ :=
        h.orchestrated.step hBuilt (hTyped.permits hRun) hExec
      obtain rfl := Option.some.inj (hNext.symm.trans hNext')
      have hOutside := h.outside t
      rw [hOutside] at hMove hNext
      cases hMove with
      | aside hStay =>
          obtain rfl := Option.some.inj (hStay.symm.trans hNext)
          exact ⟨hAfter, hLeft t, h.begun⟩
      | begins => exact absurd rfl h.begun
  | @ret t call r hRun =>
      obtain rfl := hMoves
      exact ⟨h.orchestrated.update_outside t, hLeft t, h.begun⟩

/-- An abandoned kernel stays in its state, whatever is called. -/
theorem Abandoned.state (hBuilt : k.WellFormed b)
    (hTyped : (orchestrationTypestate Thread hBuilt).Typed pos c) (h : Abandoned k stage pos c)
    (reach : Reachable (KernelStep Thread k) c c') :
    c'.world.shared.lifecycle.state = c.world.shared.lifecycle.state := by
  obtain ⟨pos', -, hEnd⟩ := Typestate.typed_invariant (Abandoned k stage) hTyped h
    (fun _ _ _ _ _ hTyped h hTake hMoves _ => h.step hBuilt hTyped hTake hMoves) reach
  exact hEnd.orchestrated.recorded.state.trans h.orchestrated.recorded.state.symm

/-- At rest nobody is in charge. -/
theorem outside_of_quiescent (hBuilt : k.WellFormed b)
    (hTyped : (orchestrationTypestate Thread hBuilt).Typed pos c) (hQuiet : c.Quiescent) (t : Thread) :
    pos t = .outside := hTyped.idle (hQuiet t)

end Settled

section Trapped

variable {k : Kernel} {stage stage' : Stage} {w : KernelWorld Thread} {t : Thread} {o : KernelOp}
  {a : KernelSig.Ans o} {s s' shared : KernelInner Thread}

/-- A request for the signal handler is never taken back. -/
theorem kernelExec_requested (h : kernelExec t o a s = some s')
    (hRequested : s.signalHandlerRequested = true) : s'.signalHandlerRequested = true := by
  cases kernelExec_effect h with
  | requestSignalHandler => rfl
  | _ => exact hRequested

theorem Instant.checkedAdd_none_mono {now later : Instant} {d : Duration} (hLe : now ≤ later)
    (h : now.checkedAdd d = none) : later.checkedAdd d = none := by
  unfold checkedAdd at h ⊢
  have hFull : ¬ now + d.nanos < 9223372036854775808 * 1000000000 := by
    intro hFits
    rw [if_pos hFits] at h
    cases h
  exact if_neg fun hFits => hFull (Nat.lt_of_le_of_lt (Nat.add_le_add_right hLe _) hFits)

/-- The stages before the deadline of the shutdown overflows, if no callback fails and the
exec phase needs a runtime. -/
def Stage.trapped (requested : Bool) : Stage → Bool
  | created => true
  | forward _ _ => true
  | calling _ _ => true
  | recording _ _ => true
  | exec .entered => true
  | exec (.workersSeen hasWorkers) => hasWorkers || requested
  | exec .needsRuntime => true
  | exec .noRuntime => true
  | exec .onRuntime => true
  | exec .claimed => true
  | exec .overflowed => true
  | _ => false

/-- No way leads on past the exec phase. -/
structure Trapped (k : Kernel) (stage : Stage) (w : KernelWorld Thread) : Prop where
  trapped : stage.trapped w.shared.signalHandlerRequested = true
  busy : k.workers ≠ [] ∨ w.shared.signalHandlerRequested = true
  endless : w.shared.clock.checkedAdd k.shutdownGrace = none

theorem Stage.trapped_mono {requested requested' : Bool} (h : stage.trapped requested = true)
    (hMono : requested = true → requested' = true) : stage.trapped requested' = true := by
  cases requested with
  | true => rw [hMono rfl]; exact h
  | false =>
      unfold trapped at h ⊢
      split at h <;> first | rfl | cases h | (simp at h; simp [h])

theorem Stage.state_of_trapped {requested : Bool} (h : stage.trapped requested = true) :
    stage.state.isTerminal = false := by
  cases stage with
  | forward c | calling c | recording c => cases c <;> rfl
  | created | exec => rfl
  | broken | closing | callingShutdown | stopped | failed => cases h

section Stages

variable {requested : Bool} {c : Callback} {sub : Subsystem}

theorem Stage.moves_trapped {toState : KernelState} (h : stage.trapped requested = true)
    (hMove : stage.moves k toState = some stage') : stage'.trapped requested = true := by
  cases moves_cases hMove with
  | booted | loaded => rfl
  | bootFailed | loadFailed | stopping | stopped => cases h

theorem Stage.starts_trapped (h : stage.trapped requested = true)
    (hStart : stage.starts k c sub = some stage') : stage'.trapped requested = true := by
  cases starts_cases hStart with
  | forward => exact h
  | closing => cases h

theorem Stage.finishes_trapped (h : stage.trapped requested = true)
    (hFinish : stage.finishes k c sub .ok = some stage') : stage'.trapped requested = true := by
  cases finishes_cases hFinish with
  | ok => exact h
  | broken hForward hNext hFailed => exact absurd rfl hFailed
  | closing => cases h

theorem Stage.records_trapped {name : String} (hRecord : stage.records k c name = some stage') :
    stage'.trapped requested = true := by
  obtain ⟨done, hForward, -, -, rfl⟩ := records_cases hRecord
  cases c with
  | shutdown => exact absurd rfl hForward
  | boot | load => rfl

theorem Stage.finishes_mem {outcome : CallbackOutcome}
    (hFinish : stage.finishes k c sub outcome = some stage') : sub ∈ k.subsystems := by
  cases finishes_cases hFinish with
  | ok hForward hNext | broken hForward hNext | closing hNext => exact List.mem_of_getElem? hNext

theorem Stage.seesWorkers_before {answer : Bool} (hSee : stage.seesWorkers answer = some stage') :
    stage.beforeWorkers = true := by
  unfold seesWorkers at hSee
  split at hSee
  · rfl
  · cases hSee

theorem Stage.reads_of_trapped {keys : List String} (h : stage.trapped requested = true) :
    stage.reads k keys = none := by
  unfold reads
  split
  · cases h
  · rfl

theorem Stage.seesWorkers_trapped {answer : Bool} (hBusy : (answer || requested) = true)
    (hSee : stage.seesWorkers answer = some stage') : stage'.trapped requested = true := by
  unfold seesWorkers at hSee
  split at hSee
  · obtain rfl := Option.some.inj hSee
    exact hBusy
  · cases hSee

theorem Stage.seesSignal_trapped (h : stage.trapped requested = true)
    (hSee : stage.seesSignal requested = some stage') : stage'.trapped requested = true := by
  unfold seesSignal at hSee
  split at hSee
  · rename_i hasWorkers
    obtain rfl := Option.some.inj hSee
    have hEither : (hasWorkers || requested) = true := h
    cases hasWorkers <;> cases requested <;> first | rfl | cases hEither
  · obtain rfl := Option.some.inj hSee
    rfl
  · cases hSee

theorem Stage.builds_trapped {flavor : RuntimeFlavor} {result : Except String Unit}
    (h : stage.trapped requested = true) (hBuild : stage.builds flavor result = some stage') :
    stage'.trapped requested = true := by
  unfold builds at hBuild
  split at hBuild
  · cases h
  · cases h
  · exact Option.some.inj hBuild ▸ rfl
  · exact Option.some.inj hBuild ▸ rfl
  · cases hBuild

theorem Stage.supervises_trapped (hSupervise : stage.supervises = some stage') :
    stage'.trapped requested = true := by
  unfold supervises at hSupervise
  split at hSupervise
  · exact Option.some.inj hSupervise ▸ rfl
  · cases hSupervise

theorem Stage.claims_trapped {now : Instant} (h : stage.trapped requested = true)
    (hEndless : now.checkedAdd k.shutdownGrace = none)
    (hStep : stage.coordinates k .stdNow now = some stage') : stage'.trapped requested = true := by
  simp only [coordinates] at hStep
  split at hStep
  · rw [hEndless] at hStep
    exact Option.some.inj hStep ▸ rfl
  · cases h
  · cases hStep

theorem Stage.coordinates_trapped {o : CoordinatorOp} {a : CoordinatorSig.Ans o}
    (h : stage.trapped requested = true) (hOther : o ≠ .stdNow)
    (hStep : stage.coordinates k o a = some stage') : stage'.trapped requested = true := by
  have hNotSequencing : ∀ {next : Stage},
      (if stage = .exec .sequencing then some next else none) ≠ some stage' := by
    intro next hIf
    obtain ⟨rfl, -⟩ := Option.ite_none_right_eq_some.mp hIf
    cases h
  cases o with
  | now =>
      simp only [coordinates] at hStep
      split at hStep
      · exact Option.some.inj hStep ▸ rfl
      · cases h
      · cases hStep
  | stdNow => exact absurd rfl hOther
  | markCompleted =>
      simp only [coordinates] at hStep
      split at hStep
      · exact Option.some.inj hStep ▸ rfl
      · cases hStep
  | emit event => cases event with
    | transition | shutdownStarted | shutdownCompleted => exact absurd hStep hNotSequencing
  | takeHooks | startHook | finishHook => exact absurd hStep hNotSequencing
  | signalToken | registerHook => exact Option.some.inj hStep ▸ h

end Stages

/-- A trapped call goes on within the trap. -/
theorem Trapped.inside (h : Trapped k stage w) (hRecorded : Recorded k stage w)
    (hBuiltin : ∀ s ∈ k.subsystems, s.builtin = true) (hExec : kernelExec t o a w.shared = some shared)
    (hNext : Position.next k (.inside stage) o a = some (.inside stage')) :
    stage'.trapped shared.signalHandlerRequested = true := by
  have hTrapped := h.trapped
  have hKept : stage.trapped shared.signalHandlerRequested = true :=
    Stage.trapped_mono hTrapped (kernelExec_requested hExec)
  have hStay : some (Position.inside stage) = some (.inside stage') →
      stage'.trapped shared.signalHandlerRequested = true := by
    intro hSame
    obtain rfl := Position.inside.inj (Option.some.inj hSame)
    exact hKept
  have hWithin : ∀ f : Stage → Option Stage, (Position.inside stage).within f =
      some (.inside stage') → f stage = some stage' := by
    intro f hSome
    simpa [Position.within] using hSome
  cases o with
  | lifecycle o => cases o with
    | checkAndSet toState => cases a with
      | error e => simp [Position.next, Position.lifecycle] at hNext
      | ok move =>
          have hMove : stage.moves k toState = some stage' := by
            simpa [Position.next, Position.lifecycle] using hNext
          exact Stage.moves_trapped hKept hMove
    | emit | gauge | counter | snapshot => exact hStay hNext
  | coordinator o =>
      have hStep : stage.coordinates k o a = some stage' := by
        simpa [Position.next, Position.coordinator] using hNext
      by_cases hRead : o = .stdNow
      · subst hRead
        obtain ⟨c, hReads, rfl⟩ := KernelInner.withCoordinator_some.mp hExec
        simp only [coordinatorMachine, Clocked.reads, Option.ite_none_right_eq_some] at hReads
        have hEndless : Instant.checkedAdd a k.shutdownGrace = none :=
          Instant.checkedAdd_none_mono hReads.1 h.endless
        exact Stage.claims_trapped hKept hEndless hStep
      · exact Stage.coordinates_trapped hKept hRead hStep
  | startCallback c sub => exact Stage.starts_trapped hKept (hWithin (Stage.starts k · c sub) hNext)
  | finishCallback c sub =>
      have hFinish := hWithin (Stage.finishes k · c sub a) hNext
      simp only [kernelExec, Option.ite_none_left_eq_some] at hExec
      have hOk : a = .ok := by
        by_contra hNot
        exact hExec.1 ⟨hBuiltin sub (Stage.finishes_mem hFinish), hNot⟩
      subst hOk
      exact Stage.finishes_trapped hKept hFinish
  | insertBooted name => exact Stage.records_trapped (hWithin (Stage.records k · .boot name) hNext)
  | insertLoaded name => exact Stage.records_trapped (hWithin (Stage.records k · .load name) hNext)
  | loadedKeys =>
      have hRead := hWithin (Stage.reads k · a) hNext
      rw [Stage.reads_of_trapped hKept] at hRead
      cases hRead
  | hasWorkers =>
      have hSee := hWithin (Stage.seesWorkers · a) hNext
      refine Stage.seesWorkers_trapped ?_ hSee
      simp only [kernelExec, Option.ite_none_right_eq_some, Option.some.injEq] at hExec
      obtain ⟨rfl, rfl⟩ := hExec
      have hWorkers : w.shared.workers = k.workers := hRecorded.workers (Stage.seesWorkers_before hSee)
      rcases h.busy with hSome | hRequested
      · simp [hWorkers, hSome]
      · simp [hRequested]
  | signalRequested =>
      have hSee := hWithin (Stage.seesSignal · a) hNext
      simp only [kernelExec, Option.ite_none_right_eq_some, Option.some.injEq] at hExec
      obtain ⟨rfl, rfl⟩ := hExec
      exact Stage.seesSignal_trapped hKept hSee
  | buildRuntime flavor =>
      exact Stage.builds_trapped hKept (hWithin (Stage.builds · flavor a) hNext)
  | takeWorkers | supervise workers => exact Stage.supervises_trapped (hWithin Stage.supervises hNext)
  | _ => exact hStay hNext

theorem Trapped.step {p : Position} (h : Trapped k stage w) (hRecorded : Recorded k stage w)
    (hBuiltin : ∀ s ∈ k.subsystems, s.builtin = true) (hExec : kernelExec t o a w.shared = some shared)
    (hMove : StageMove k o a p stage stage') :
    Trapped k stage' ((kernelMachine Thread).after w t o a shared) where
  trapped := by
    cases hMove with
    | aside => exact Stage.trapped_mono h.trapped (kernelExec_requested hExec)
    | begins => rfl
    | inside hNext => exact h.inside hRecorded hBuiltin hExec hNext
  busy := h.busy.imp_right (kernelExec_requested hExec)
  endless := Instant.checkedAdd_none_mono (kernelExec_clock hExec) h.endless

end Trapped

section Ends

variable [DecidableEq Thread] {k : Kernel} {b : KernelBuilder} {clock : Instant}
  {c c' : KernelConfig Thread}

/-- Some further calls, with some outcomes of the callbacks and of building the runtimes,
bring the kernel to an end. If the deadline of the shutdown is not representable this takes
a callback that fails or, without workers and signal handler, a refused runtime. -/
def CanEnd (k : Kernel) (c : KernelConfig Thread) : Prop :=
  ∃ c', Reachable (KernelStep Thread k) c c' ∧ c'.Quiescent ∧
    c'.world.shared.lifecycle.state.isTerminal = true

/-- A fresh kernel that a call of `run` can bring to an end: by a callback of the consumer
that fails, or through the exec phase. -/
def Endable (k : Kernel) (s : KernelInner Thread) : Prop :=
  s.lifecycle.state = .created ∧ ((∃ sub ∈ k.subsystems, sub.builtin = false) ∨ ExecEnds k s)

omit [DecidableEq Thread] in
theorem Script.forwardResult_ok {script : Script} {cb : Callback} {subsystems : List Subsystem}
    (h : script.forwardResult cb subsystems = .ok ()) :
    ∀ s ∈ subsystems, script cb s.name = .ok := by
  induction subsystems with
  | nil => exact fun _ hMem => nomatch hMem
  | cons sub rest ih =>
      cases hHere : script.error cb sub with
      | some e =>
          rw [forwardResult, Script.attempt_cons hHere] at h
          cases h
      | none =>
          have hRest : script.forwardResult cb rest = .ok () := by
            simpa only [forwardResult, attempt, hHere] using h
          intro s hMem
          rcases List.mem_cons.mp hMem with rfl | hLater
          · exact CallbackOutcome.error_eq_none.mp hHere
          · exact ih hRest s hLater

/-- At rest the two mutexes are free. -/
theorem unlocked_of_quiescent
    (reach : Reachable (KernelStep Thread k) (KernelConfig.built Thread k clock) c)
    (hQuiet : c.Quiescent) : c.world.shared.Unlocked := by
  obtain ⟨pos, hTyped⟩ := Typestate.typed_of_reachable (lock_typed_built k clock) reach
  intro m
  cases hHolder : c.world.shared.holder m with
  | none => rfl
  | some t =>
      have hHolds := (hTyped.1 m t).mp hHolder
      have hFree : pos t = .free := hTyped.idle (hQuiet t)
      rw [hFree] at hHolds
      cases hHolds

omit [DecidableEq Thread] in
/-- A script by which a fresh kernel comes to an end. -/
theorem Endable.script (hBuilt : k.WellFormed b) (h : Endable k c.world.shared) :
    ∃ script : Script, script.Sound k.subsystems ∧
      (script.forwardResult .boot k.subsystems = .ok () → ExecEnds k c.world.shared) := by
  rcases h.2 with ⟨sub, hMem, hConsumer⟩ | hExec
  · refine ⟨fun _ name => if name = sub.name then .panicked none else .ok,
      fun s hOther hBuiltin cb => if_neg fun hName => ?_, fun hBoot => ?_⟩
    · obtain rfl := List.inj_on_of_nodup_map hBuilt.distinct hOther hMem hName
      rw [hBuiltin] at hConsumer
      cases hConsumer
    · have hOk := Script.forwardResult_ok hBoot sub hMem
      rw [if_pos rfl] at hOk
      cases hOk
  · exact ⟨fun _ _ => .ok, fun _ _ _ _ => rfl, fun _ => hExec⟩

theorem canEnd_of_endable [Nonempty Thread] (hBuilt : k.WellFormed b)
    (reach : Reachable (KernelStep Thread k) (KernelConfig.built Thread k clock) c)
    (hQuiet : c.Quiescent) (h : Endable k c.world.shared) : CanEnd k c := by
  obtain ⟨t⟩ := ‹Nonempty Thread›
  obtain ⟨script, hSound, hEnds⟩ := h.script hBuilt
  have hFree := unlocked_of_quiescent reach hQuiet
  obtain ⟨pos, stage, -, hOrchestrated⟩ := orchestrated_of_reachable hBuilt reach
  obtain rfl := Stage.state_created.mp (hOrchestrated.recorded.state.symm.trans h.1)
  have hUnclaimed : c.world.shared.coordinator.completed = false :=
    hOrchestrated.recorded.unclaimed rfl
  have hSignal : CanFinish (kernelMachine Thread) t
      (fun _ s' => s' = { c.world.shared with signalled := true }) (kernelBody k .shutdown)
      c.world.shared := .op () rfl rfl
  obtain ⟨-, w, hFirst, hWorld⟩ := hSignal.complete_call
  have hRun : CanFinish (kernelMachine Thread) t
      (fun _ s' => s'.lifecycle.state.isTerminal = true) (kernelBody k .run) w.shared := by
    rw [hWorld]
    have hBody := @canFinish_run Thread k script t { c.world.shared with signalled := true }
      hSound hFree h.1 rfl hUnclaimed fun hBoot _ => hEnds hBoot
    exact hBody.unrestrict.bind fun _ _ hEnd => hEnd.2
  obtain ⟨-, w', hSecond, hTerminal⟩ := hRun.complete_call
  rw [hQuiet.eq_start]
  exact ⟨_, hFirst.trans hSecond, fun _ => rfl, hTerminal⟩

/-- From anywhere else there is no way to an end. -/
theorem endable_of_canEnd (hBuilt : k.WellFormed b)
    (reach : Reachable (KernelStep Thread k) (KernelConfig.built Thread k clock) c)
    (hQuiet : c.Quiescent) (hOpen : c.world.shared.lifecycle.state.isTerminal = false)
    (h : CanEnd k c) : Endable k c.world.shared := by
  obtain ⟨c', hOn, -, hTerminal⟩ := h
  obtain ⟨pos, stage, hTyped, hOrchestrated⟩ := orchestrated_of_reachable hBuilt reach
  by_cases hStage : stage = .created
  · subst hStage
    refine ⟨hOrchestrated.recorded.state, ?_⟩
    by_contra hNone
    rw [not_or] at hNone
    obtain ⟨hConsumers, hExec⟩ := hNone
    have hBuiltin : ∀ s ∈ k.subsystems, s.builtin = true := by
      intro s hMem
      by_contra hNot
      exact hConsumers ⟨s, hMem, Bool.eq_false_iff.mpr hNot⟩
    have hTrapped : Trapped k .created c.world := by
      rw [ExecEnds, not_or] at hExec
      obtain ⟨hBusy, hDeadline⟩ := hExec
      have hWorkers : c.world.shared.workers = k.workers := hOrchestrated.recorded.workers rfl
      refine ⟨rfl, ?_, Option.not_isSome_iff_eq_none.mp hDeadline⟩
      by_contra hIdle
      rw [not_or, not_not] at hIdle
      exact hBusy ⟨hWorkers.trans hIdle.1, Bool.eq_false_iff.mpr hIdle.2⟩
    obtain ⟨pos', stage', -, hEnd, hStill⟩ := stage_invariant hBuilt (Trapped k) hTyped
      hOrchestrated hTrapped (fun _ _ _ _ _ _ _ _ hHere h hExec hMove =>
        h.step hHere.recorded hBuiltin hExec hMove) hOn
    rw [hEnd.recorded.state, Stage.state_of_trapped hStill.trapped] at hTerminal
    cases hTerminal
  · have hAbandoned : Abandoned k stage pos c :=
      ⟨hOrchestrated, outside_of_quiescent hBuilt hTyped hQuiet, hStage⟩
    rw [hAbandoned.state hBuilt hTyped hOn, hOpen] at hTerminal
    cases hTerminal

/-- In exactly these configurations at rest a kernel that has not come to an end still can:
it is in `Created`, and `run` can fail to boot it or get through the exec phase. -/
theorem no_dead_end_iff [Nonempty Thread] (hBuild : b.build = .ok k)
    (reach : Reachable (KernelStep Thread k) (KernelConfig.built Thread k clock) c)
    (hQuiet : c.Quiescent) :
    (c.world.shared.lifecycle.state.isTerminal = false → CanEnd k c) ↔
      c.world.shared.lifecycle.state.isTerminal = true ∨ Endable k c.world.shared := by
  have hBuilt := build_wellFormed hBuild
  cases hState : c.world.shared.lifecycle.state.isTerminal with
  | true => simp
  | false =>
      simp only [forall_const, Bool.false_eq_true, false_or]
      constructor
      · exact endable_of_canEnd hBuilt reach hQuiet hState
      · exact canEnd_of_endable hBuilt reach hQuiet

/-- A fresh kernel without workers ends with its first `run`. -/
theorem no_dead_end_fresh : ∃ k, (KernelBuilder.new "service").build = .ok k ∧
    CanEnd k (KernelConfig.built Unit k 0) := by
  cases hBuild : (KernelBuilder.new "service").build with
  | error e =>
      have hOk : (KernelBuilder.new "service").build.toOption.isSome = true := by decide +kernel
      rw [hBuild] at hOk
      cases hOk
  | ok k =>
      have hWorkers : k.workers = [] := (build_wellFormed hBuild).workers
      have hIff := @no_dead_end_iff Unit _ k _ 0 _ _ hBuild (Reachable.refl _) fun _ => rfl
      exact ⟨k, rfl, hIff.mpr (Or.inr ⟨rfl, Or.inr (Or.inl ⟨hWorkers, rfl⟩)⟩) rfl⟩

/-- After a `boot` that returned `Ok` nothing stops the kernel any more. -/
theorem booted_dead_end : ¬ ∀ (b : KernelBuilder) (k : Kernel), b.build = .ok k →
    ∀ clock (c : KernelConfig Unit),
      Reachable (KernelStep Unit k) (KernelConfig.built Unit k clock) c → c.Quiescent →
      c.world.shared.lifecycle.state.isTerminal = false → CanEnd k c := by
  intro hClaim
  have hPlays : Environment.calm.plays ((KernelBuilder.new "service").withSubsystem "db" [])
      (.call () .boot :: List.replicate 96 (.go ()) ++ [.ret ()]) (fun c =>
        (c.threads ()).isIdle && c.world.shared.lifecycle.state = .running) = true := by
    decide +kernel
  obtain ⟨k, hBuild, c, reach, hAsk⟩ := Environment.reachable_of_plays hPlays
  obtain ⟨hIdle, hState⟩ := Bool.and_eq_true_iff.mp hAsk
  have hRunning := of_decide_eq_true hState
  have hQuiet : c.Quiescent := fun _ => Status.isIdle_iff.mp hIdle
  have hOpen : c.world.shared.lifecycle.state.isTerminal = false := by rw [hRunning]; rfl
  have hCan := hClaim _ k hBuild 0 c reach hQuiet hOpen
  have hFresh := (endable_of_canEnd (build_wellFormed hBuild) reach hQuiet hOpen hCan).1
  rw [hRunning] at hFresh
  cases hFresh

end Ends

end ServiceKernel
