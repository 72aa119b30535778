import ServiceKernel.Kernel.Callbacks

/-! How a call of `run` ends, and what it leaves of the kernel. -/
namespace ServiceKernel

open Interleaving Execution

variable {Thread : Type}

/-- The kernel is done: it is in a terminal state, and everything that was loaded has
been shut down exactly once. -/
def Settled (w : KernelWorld Thread) : Prop :=
  w.shared.lifecycle.state.isTerminal = true ∧
    ∀ name, ReturnedOk .load name w.trace → startCount .shutdown name w.trace = 1

def KernelRecord.runtimeFailed : KernelRecord → Bool
  | .runtimeBuilt .multiThread (.error _) => true
  | _ => false

/-- Building a multi-threaded runtime has failed. -/
def RuntimeFailed (w : KernelWorld Thread) : Prop := ∃ e ∈ w.trace, e.2.runtimeFailed = true

instance (w : KernelWorld Thread) : Decidable (RuntimeFailed w) :=
  inferInstanceAs (Decidable (∃ e ∈ w.trace, e.2.runtimeFailed = true))

theorem KernelRecord.runtimeFailed_iff {r : KernelRecord} :
    r.runtimeFailed = true ↔ ∃ e, r = .runtimeBuilt .multiThread (.error e) := by
  unfold runtimeFailed
  split
  · simp
  · rename_i hOther
    simpa using hOther

section Settled

variable {k : Kernel} {b : KernelBuilder} {stage : Stage} {w : KernelWorld Thread}

theorem Recorded.runtimeFailed_iff (h : Recorded k stage w) :
    RuntimeFailed w ↔ stage = .exec .noRuntime := by
  rw [← h.noRuntime]
  constructor
  · rintro ⟨⟨t, r⟩, hMem, hFailed⟩
    obtain ⟨e, rfl⟩ := KernelRecord.runtimeFailed_iff.mp hFailed
    exact ⟨t, e, hMem⟩
  · rintro ⟨t, e, hMem⟩
    exact ⟨_, hMem, rfl⟩

/-- A kernel that went through its shutdown phase is done. -/
theorem Recorded.settled (h : Recorded k .stopped w) (hBuilt : k.WellFormed b) : Settled w := by
  refine ⟨congrArg KernelState.isTerminal h.state, fun name hLoaded => ?_⟩
  rw [← mem_succeeded (by decide), h.progress] at hLoaded
  rw [← count_started, h.progress]
  have hMem : name ∈ Stage.names k := List.mem_of_mem_take hLoaded
  have hAll : (Stage.progress k .stopped).started .shutdown = (Stage.names k).reverse := by
    simp [Stage.progress, Progress.reached, ← Stage.length_names]
  rw [hAll]
  exact List.count_eq_one_of_mem (List.nodup_reverse.mpr hBuilt.distinct) (List.mem_reverse.mpr hMem)

end Settled

section System

variable [DecidableEq Thread] {k : Kernel} {b : KernelBuilder} {clock : Instant}
  {c : KernelConfig Thread} {t : Thread} {exit : RunExit} {r : Except KernelError Unit}

/-- A `run` that returns after a successful boot leaves the kernel done exactly if the
runtime it needed could be built. -/
theorem run_settled_iff (hBuild : b.build = .ok k)
    (reach : Reachable (KernelStep Thread k) (KernelConfig.built Thread k clock) c)
    (hReturns : c.threads t = .running .run (.done (.ran exit))) (hBooted : exit.booted = true)
    (hResult : exit.result = some r) : Settled c.world ↔ ¬ RuntimeFailed c.world := by
  have hBuilt := build_wellFormed hBuild
  obtain ⟨pos, stage, hTyped, h⟩ := orchestrated_of_reachable hBuilt reach
  have hLeaves : RunLeaves exit (pos t) := hTyped.returned hReturns
  rw [h.recorded.runtimeFailed_iff]
  cases exit with
  | bootFailed error => cases hBooted
  | stoppingRefused e | stoppedRefused e => exact hLeaves.elim
  | unwound => cases hResult
  | execFailed error =>
      obtain ⟨rfl, -⟩ := h.inside hLeaves
      have hState : c.world.shared.lifecycle.state = .running := h.recorded.state
      simp [Settled, hState, KernelState.isTerminal]
  | finished report result =>
      obtain ⟨rfl, -⟩ := h.inside hLeaves
      simpa using h.recorded.settled hBuilt

end System

section Runs

/-- One thread calls `run`, and nobody else does anything. -/
def runAlone (steps : Nat) : List (Move Unit KernelCall) :=
  .call () .run :: List.replicate steps (.go ())

/-- The call has booted the kernel and returned. -/
def returnedBooted (c : KernelConfig Unit) : Bool :=
  (c.ranExit ()).any fun exit => exit.booted && exit.result.isSome

theorem exit_of_returnedBooted {c : KernelConfig Unit} (h : returnedBooted c = true) :
    ∃ exit r, c.threads () = .running .run (.done (.ran exit)) ∧ exit.booted = true ∧
      exit.result = some r := by
  obtain ⟨exit, hRan, hOk⟩ := (Option.any_eq_true _ _).mp h
  obtain ⟨hBooted, hSome⟩ := Bool.and_eq_true_iff.mp hOk
  obtain ⟨r, hResult⟩ := Option.isSome_iff_exists.mp hSome
  exact ⟨exit, r, KernelConfig.ranExit_eq_some.mp hRan, hBooted, hResult⟩

def oneWorker : KernelBuilder := (KernelBuilder.new "service").withWorker (.new "job") .sync

/-- With a runtime, a kernel that was told to shut down is done afterwards: the signal
cancels the supervisor of its worker. -/
theorem run_settled_signalled : ∃ k c, oneWorker.build = .ok k ∧
    Reachable (KernelStep Unit k) (KernelConfig.built Unit k 0) c ∧ Settled c.world := by
  have hPlays : Environment.calm.plays oneWorker
      ([.call () .shutdown, .go (), .ret ()] ++ runAlone 126) (fun c =>
        returnedBooted c = true ∧ ¬ RuntimeFailed c.world) = true := by
    decide +kernel
  obtain ⟨k, hBuild, c, reach, hAsk⟩ := Environment.reachable_of_plays hPlays
  obtain ⟨hReturned, hRuntime⟩ := of_decide_eq_true hAsk
  obtain ⟨exit, r, hRun, hBooted, hResult⟩ := exit_of_returnedBooted hReturned
  exact ⟨k, c, hBuild, reach, (run_settled_iff hBuild reach hRun hBooted hResult).mpr hRuntime⟩

/-- Without one, `run` returns an error and leaves the kernel in `Running`. -/
theorem run_leaves_running : ¬ ∀ (b : KernelBuilder) (k : Kernel), b.build = .ok k →
    ∀ clock (c : KernelConfig Unit) t exit r,
      Reachable (KernelStep Unit k) (KernelConfig.built Unit k clock) c →
      c.threads t = .running .run (.done (.ran exit)) → exit.booted = true → exit.result = some r →
      Settled c.world := by
  intro hClaim
  let env : Environment := { Environment.calm with runtime := fun _ => .error "no threads" }
  have hPlays : env.plays oneWorker (runAlone 89) (fun c =>
      returnedBooted c = true ∧ c.world.shared.lifecycle.state = .running) = true := by
    decide +kernel
  obtain ⟨k, hBuild, c, reach, hAsk⟩ := Environment.reachable_of_plays hPlays
  obtain ⟨hReturned, hState⟩ := of_decide_eq_true hAsk
  obtain ⟨exit, r, hRun, hBooted, hResult⟩ := exit_of_returnedBooted hReturned
  have hSettled := hClaim oneWorker k hBuild 0 c () exit r reach hRun hBooted hResult
  have hTerminal := hSettled.1
  rw [hState] at hTerminal
  cases hTerminal

end Runs

end ServiceKernel
