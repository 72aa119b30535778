import ServiceKernel.Kernel.Callbacks

/-! What a failure in the boot phase leaves behind: unlike a failure in the load phase,
it is not followed by the shutdown of what came before. -/
namespace ServiceKernel

open Interleaving Execution

variable {Thread : Type}

/-- The shutdowns that were started for the first `done` subsystems are one of each, in
reverse boot order. -/
def RolledBack (k : Kernel) (done : Nat) (trace : List (Thread × KernelRecord)) : Prop :=
  ((progress trace).started .shutdown).filter (· ∈ (Stage.names k).take done) =
    ((Stage.names k).take done).reverse

namespace Stage

/-- The subsystem whose boot has failed. -/
def bootFailure : Stage → Option Nat
  | broken .boot done => some done
  | failed .boot done => some done
  | _ => none

variable {k : Kernel} {stage stage' : Stage} {done : Nat}

theorem started_of_bootFailure (h : stage.bootFailure = some done) :
    (stage.progress k).started .shutdown = [] := by
  unfold bootFailure at h
  split at h
  · simp [progress, Progress.reached]
  · simp [progress, Progress.reached]
  · cases h

/-- After a failure in the boot phase the kernel only moves to `Failed`. -/
theorem bootFailure_next {o : KernelOp} {a : KernelSig.Ans o} (h : stage.bootFailure = some done)
    (hNext : Position.next k (.inside stage) o a = some (.inside stage')) :
    stage'.bootFailure = some done := by
  have hHere : stage = .broken .boot done ∨ stage = .failed .boot done := by
    unfold bootFailure at h
    split at h
    · exact Or.inl (by rw [Option.some.inj h])
    · exact Or.inr (by rw [Option.some.inj h])
    · cases h
  have hStay : ∀ o a, Position.next k (.inside stage) o a = some (.inside stage) →
      Position.next k (.inside stage) o a = some (.inside stage') → stage'.bootFailure = some done := by
    intro o a hSame hStep
    obtain rfl := Position.inside.inj (Option.some.inj (hSame.symm.trans hStep))
    exact h
  cases o with
  | lifecycle o => cases o with
    | checkAndSet toState =>
        cases a with
        | error e => simp [Position.next, Position.lifecycle] at hNext
        | ok move =>
            obtain ⟨next, hMove, hEnd⟩ : ∃ next, stage.moves k toState = some next ∧ next = stage' := by
              simpa [Position.next, Position.lifecycle] using hNext
            subst hEnd
            rcases hHere with rfl | rfl
            · cases toState <;> simp [moves] at hMove
              subst hMove
              exact h
            · simp [moves] at hMove
    | _ => exact hStay _ _ rfl hNext
  | coordinator o => cases o with
    | signalToken | registerHook => exact hStay _ _ rfl hNext
    | emit event =>
        rcases hHere with rfl | rfl <;> cases event <;>
          simp [Position.next, Position.coordinator, coordinates] at hNext
    | _ =>
        rcases hHere with rfl | rfl <;>
          simp [Position.next, Position.coordinator, coordinates] at hNext
  | startCallback | finishCallback | insertBooted | insertLoaded | loadedKeys | hasWorkers
  | signalRequested | takeWorkers | buildRuntime | supervise =>
      rcases hHere with rfl | rfl <;>
        simp [Position.next, Position.within, starts, finishes, records, reads, seesWorkers,
          seesSignal, supervises, builds] at hNext
  | _ => exact hStay _ _ rfl hNext

end Stage

section System

variable [DecidableEq Thread] {k : Kernel} {b : KernelBuilder} {clock : Instant}
  {c : KernelConfig Thread} {i : Nat} {s : Subsystem} {u : Thread} {outcome : CallbackOutcome}

/-- A boot that did not return `Ok` is the one that the orchestration has broken off at, and
it belongs to a subsystem of the consumer. -/
def BootsBroken (k : Kernel) (stage : Stage) (w : KernelWorld Thread) : Prop :=
  ∀ u name outcome, (u, .finished .boot name outcome) ∈ w.trace → outcome ≠ .ok →
    ∃ done s, stage.bootFailure = some done ∧ k.subsystems[done]? = some s ∧ s.name = name ∧
      s.builtin = false

omit [DecidableEq Thread] in
theorem BootsBroken.step {stage stage' : Stage} {p : Position} {w : KernelWorld Thread} {t : Thread}
    {o : KernelOp} {a : KernelSig.Ans o} {shared : KernelInner Thread}
    (h : BootsBroken k stage w) (hExec : kernelExec t o a w.shared = some shared)
    (hMove : StageMove k o a p stage stage') :
    BootsBroken k stage' ((kernelMachine Thread).after w t o a shared) := by
  intro u name outcome hMem hOutcome
  rw [Machine.after_trace, List.mem_append, List.mem_singleton] at hMem
  rcases hMem with hOld | hNew
  · obtain ⟨done, s, hBroken, hAt, hName, hConsumer⟩ := h u name outcome hOld hOutcome
    refine ⟨done, s, ?_, hAt, hName, hConsumer⟩
    cases hMove with
    | aside => exact hBroken
    | begins => cases hBroken
    | inside hNext => exact Stage.bootFailure_next hBroken hNext
  · have hRecord : KernelRecord.finished .boot name outcome = kernelRecord o a := (Prod.mk.inj hNew).2
    have hNotPlain : ¬ (kernelRecord o a).Plain := by
      rw [← hRecord]
      exact id
    cases hMove with
    | aside _ hPlain => exact absurd hPlain hNotPlain
    | begins _ hPlain => exact absurd hPlain hNotPlain
    | inside hNext =>
        cases o with
        | finishCallback callback s =>
            obtain ⟨rfl, rfl, rfl⟩ : Callback.boot = callback ∧ name = s.name ∧ outcome = a := by
              simpa [kernelRecord] using hRecord
            have hConsumer : s.builtin = false := by
              by_contra hBuiltin
              simp [kernelExec, hBuiltin, hOutcome] at hExec
            simp only [Position.next, Position.within, Option.map_eq_some_iff,
              Position.inside.injEq, exists_eq_right] at hNext
            cases Stage.finishes_cases hNext with
            | ok => exact absurd rfl hOutcome
            | @broken _ done _ _ hForward hAt hFailed => exact ⟨done, s, rfl, hAt, rfl, hConsumer⟩
        | _ => cases hRecord

/-- Once a boot has failed no shutdown is ever started, and something had booted before it. -/
theorem nothing_shut_down (hBuild : b.build = .ok k)
    (reach : Reachable (KernelStep Thread k) (KernelConfig.built Thread k clock) c)
    (hAt : k.subsystems[i]? = some s) (hFailed : (u, .finished .boot s.name outcome) ∈ c.world.trace)
    (hOutcome : outcome ≠ .ok) : (progress c.world.trace).started .shutdown = [] ∧ 0 < i := by
  have hBuilt := build_wellFormed hBuild
  have hStart : BootsBroken k .created (KernelConfig.built Thread k clock).world := by
    intro u name outcome hMem
    cases hMem
  obtain ⟨pos, stage, -, h, hBroken⟩ := stage_invariant hBuilt (BootsBroken k)
    (typed_built hBuilt clock) (orchestrated_built k clock) hStart
    (fun _ _ _ _ _ _ _ _ _ hInv hExec hMove => hInv.step hExec hMove) reach
  obtain ⟨done, other, hStage, hOther, hName, hConsumer⟩ := hBroken u s.name outcome hFailed hOutcome
  constructor
  · rw [h.recorded.progress, Stage.started_of_bootFailure hStage]
  · obtain rfl : other = s := List.inj_on_of_nodup_map hBuilt.distinct
      (List.mem_of_getElem? hOther) (List.mem_of_getElem? hAt) hName
    by_contra hFirst
    obtain rfl : i = 0 := by omega
    rw [Option.some.inj (hAt.symm.trans (build_first hBuild))] at hConsumer
    cases hConsumer

omit [DecidableEq Thread] in
theorem RolledBack.of_nothing {trace : List (Thread × KernelRecord)} (h : RolledBack k i trace)
    (hNothing : (progress trace).started .shutdown = []) (hMem : s ∈ k.subsystems) : i = 0 := by
  rw [RolledBack, hNothing, List.filter_nil] at h
  have hTake : (Stage.names k).take i = [] := List.reverse_eq_nil_iff.mp h.symm
  rcases List.take_eq_nil_iff.mp hTake with hZero | hEmpty
  · exact hZero
  · rw [Stage.names, List.map_eq_nil_iff] at hEmpty
    rw [hEmpty] at hMem
    cases hMem

/-- Whatever subsystem's boot fails, in whichever way: those that booted before it are not
shut down, neither by the time `boot` returns nor ever after. -/
theorem boot_failure_not_rolled_back (hBuild : b.build = .ok k)
    (reach : Reachable (KernelStep Thread k) (KernelConfig.built Thread k clock) c)
    (hAt : k.subsystems[i]? = some s) (hFailed : (u, .finished .boot s.name outcome) ∈ c.world.trace)
    (hOutcome : outcome ≠ .ok) : ¬ RolledBack k i c.world.trace := by
  intro hRolledBack
  obtain ⟨hNothing, hLater⟩ := nothing_shut_down hBuild reach hAt hFailed hOutcome
  have hFirst := hRolledBack.of_nothing hNothing (List.mem_of_getElem? hAt)
  omega

end System

section Runs

def diskFull : KernelError := .internal .internal "disk full"

/-- A consumer `db` whose boot fails. -/
def failingBoot : Environment :=
  { Environment.calm with outcome := fun callback s =>
      if callback = .boot ∧ s.name = "db" then .err diskFull else .ok }

def withDb : KernelBuilder :=
  ((KernelBuilder.new "service").withSubsystem "cache" []).withSubsystem "db" ["cache"]

def KernelConfig.bootedResult (c : KernelConfig Unit) : Option (Except KernelError Unit) :=
  match c.threads () with
  | .running .boot (.done (.booted result)) => some result
  | _ => none

theorem KernelConfig.bootedResult_eq_some {c : KernelConfig Unit} {result : Except KernelError Unit} :
    c.bootedResult = some result ↔ c.threads () = .running .boot (.done (.booted result)) := by
  unfold bootedResult
  split
  · rename_i hThread
    simp [hThread]
  · rename_i hOther
    simpa using hOther result

/-- A `boot` of that kernel that has returned. -/
theorem boot_of_failingBoot : ∃ (k : Kernel) (c : KernelConfig Unit) (i : Nat) (s : Subsystem),
    withDb.build = .ok k ∧
    Reachable (KernelStep Unit k) (KernelConfig.built Unit k 0) c ∧
    c.threads () = .running .boot (.done (.booted (.error diskFull))) ∧
    k.subsystems[i]? = some s ∧ ((), .finished .boot s.name (.err diskFull)) ∈ c.world.trace := by
  have hPlays : failingBoot.plays withDb (.call () .boot :: List.replicate 32 (.go ())) (fun c =>
      c.bootedResult = some (.error diskFull) ∧
        ((), .finished .boot "db" (.err diskFull)) ∈ c.world.trace) = true := by
    decide +kernel
  obtain ⟨k, hBuild, c, reach, hAsk⟩ := Environment.reachable_of_plays hPlays
  obtain ⟨hReturned, hFailed⟩ := of_decide_eq_true hAsk
  have hDb : Subsystem.consumer "db" ["cache"] ∈ k.subsystems :=
    (build_wellFormed hBuild).members.mem_iff.mpr (by simp [withDb, KernelBuilder.withSubsystem,
      KernelBuilder.consumers, KernelBuilder.new])
  obtain ⟨i, hAt⟩ := List.getElem?_of_mem hDb
  exact ⟨k, c, i, _, hBuild, reach, KernelConfig.bootedResult_eq_some.mp hReturned, hAt, hFailed⟩

theorem boot_failure_not_rolled_back_db : ∃ k c i, withDb.build = .ok k ∧
    Reachable (KernelStep Unit k) (KernelConfig.built Unit k 0) c ∧
    ¬ RolledBack k i c.world.trace := by
  obtain ⟨k, c, i, s, hBuild, reach, -, hAt, hFailed⟩ := boot_of_failingBoot
  exact ⟨k, c, i, hBuild, reach, boot_failure_not_rolled_back hBuild reach hAt hFailed (by simp)⟩

/-- What booted before `db` stays as it is when `boot` returns the error. -/
theorem boot_leaves_booted : ¬ ∀ (b : KernelBuilder) (k : Kernel), b.build = .ok k →
    ∀ clock (c : KernelConfig Unit) t result,
      Reachable (KernelStep Unit k) (KernelConfig.built Unit k clock) c →
      c.threads t = .running .boot (.done (.booted result)) →
      ∀ i (s : Subsystem) u outcome, k.subsystems[i]? = some s →
        (u, .finished .boot s.name outcome) ∈ c.world.trace → outcome ≠ .ok →
        RolledBack k i c.world.trace := by
  intro hClaim
  obtain ⟨k, c, i, s, hBuild, reach, hReturned, hAt, hFailed⟩ := boot_of_failingBoot
  have hOutcome : CallbackOutcome.err diskFull ≠ .ok := by simp
  have hRolledBack := hClaim withDb k hBuild 0 c () _ reach hReturned i s () _ hAt hFailed hOutcome
  obtain ⟨hNothing, hLater⟩ := nothing_shut_down hBuild reach hAt hFailed hOutcome
  have hFirst := hRolledBack.of_nothing hNothing (List.mem_of_getElem? hAt)
  omega

end Runs

end ServiceKernel
