import ServiceKernel.Kernel.Endings

/-! The order of the steps of a shutdown, as the documentation has it and as `run`
takes them: the coordinator is through before the lifecycle moves to `Stopping`. -/
namespace ServiceKernel

open Interleaving Execution

variable {Thread : Type}

/-- What the documented sequence leaves open: the readings of the clock, the hooks that
run, how the supervisor ends and what it counts. -/
structure DocumentedRun where
  stoppingFrom : KernelState
  stoppingAt : Instant
  startedAt : Instant
  hooks : List (ShutdownHook × Instant)
  drain : Option SupervisorExit
  duration : Nat
  workersDrained : Nat
  workersAborted : Nat
  completedAt : Instant
  stoppedAt : Instant

/-- The seven documented steps, in their order. -/
def DocumentedRun.steps (k : Kernel) (r : DocumentedRun) : List KernelRecord :=
  [.lifecycle (.moved r.stoppingFrom .stopping r.stoppingAt),
    .coordinator (.emitted (.shutdownStarted r.startedAt))] ++
  [.coordinator .tokenSignalled] ++
  r.hooks.map (fun h => .coordinator (.hookStarted h.1 h.2)) ++
  r.drain.toList.map .supervised ++
  k.subsystems.reverse.map (fun s => .started .shutdown s.name) ++
  [.coordinator (.emitted (.shutdownCompleted r.duration r.workersDrained r.workersAborted
    r.completedAt))] ++
  [.lifecycle (.moved .stopping .stopped r.stoppedAt)]

/-- The history contains the documented sequence, with every hook that was taken and, if
the kernel has workers, their drain. -/
def ShutDownAsDocumented (k : Kernel) (trace : List (Thread × KernelRecord)) : Prop :=
  ∃ r : DocumentedRun,
    (∃ t, (t, .coordinator (.hooksTaken (r.hooks.map Prod.fst))) ∈ trace) ∧
    (k.workers ≠ [] → r.drain.isSome) ∧
    (r.steps k).Sublist (trace.map Prod.snd)

def KernelRecord.movesToStopping : KernelRecord → Bool
  | .lifecycle (.moved _ .stopping _) => true
  | _ => false

/-- `ShutdownCompleted` is never emitted once the lifecycle has moved to `Stopping`. -/
def CompletesFirst (trace : List (Thread × KernelRecord)) : Prop :=
  Every (fun past e => ∀ duration drained aborted instant,
    e.2 = .coordinator (.emitted (.shutdownCompleted duration drained aborted instant)) →
    ∀ e' ∈ past, e'.2.movesToStopping = false) trace

section Order

variable {k : Kernel} {trace : List (Thread × KernelRecord)}

theorem CompletesFirst.not_documented (h : CompletesFirst trace) :
    ¬ ShutDownAsDocumented k trace := by
  rintro ⟨r, -, -, hSteps⟩
  have hPair : [KernelRecord.lifecycle (.moved r.stoppingFrom .stopping r.stoppingAt),
      .coordinator (.emitted (.shutdownCompleted r.duration r.workersDrained r.workersAborted
        r.completedAt))].Sublist (r.steps k) := by
    unfold DocumentedRun.steps
    simp
  obtain ⟨pair, hPair, hEq⟩ := List.sublist_map_iff.mp (hPair.trans hSteps)
  obtain ⟨moved, completed, rfl⟩ := List.length_eq_two.mp (by simpa using (congrArg List.length hEq).symm)
  obtain ⟨past, hMoved, hLaw⟩ := h.of_pair hPair
  obtain ⟨hFirst, hSecond⟩ : _ ∧ _ := by simpa using hEq
  have hNot := hLaw _ _ _ _ hSecond.symm moved hMoved
  rw [← hFirst] at hNot
  cases hNot

end Order

section System

variable [DecidableEq Thread] {k : Kernel} {b : KernelBuilder} {clock : Instant}
  {c : KernelConfig Thread}

/-- A lifecycle that has moved to `Stopping` stays from there on. -/
def Winding (w : KernelWorld Thread) : Prop :=
  (∃ e ∈ w.trace, e.2.movesToStopping = true) →
    w.shared.lifecycle.state = .stopping ∨ w.shared.lifecycle.state.isTerminal = true

omit [DecidableEq Thread] in
theorem Winding.after {w : KernelWorld Thread} {t : Thread} {o : KernelOp} {a : KernelSig.Ans o}
    {shared : KernelInner Thread} (h : Winding w) (hExec : kernelExec t o a w.shared = some shared) :
    Winding ((kernelMachine Thread).after w t o a shared) := by
  rintro ⟨e, hMem, hMoves⟩
  simp only [Machine.after_trace, List.mem_append, List.mem_singleton] at hMem
  rcases hMem with hOld | rfl
  · have hBefore := h ⟨e, hOld, hMoves⟩
    rcases kernelExec_legal hExec with hSame | ⟨hLegal, -⟩
    · simpa [hSame] using hBefore
    · exact Or.inr (isLegal_stopping hLegal hBefore)
  · apply Or.inl
    cases o with
    | lifecycle o => cases o with
      | checkAndSet toState =>
          obtain ⟨l, hLifecycle, rfl⟩ := KernelInner.withLifecycle_some.mp hExec
          cases a with
          | error e => cases hMoves
          | ok move =>
              obtain ⟨fromState, now⟩ := move
              obtain ⟨-, -, -, rfl⟩ := lifecycle_moved hLifecycle
              cases toState with
              | stopping => rfl
              | _ => cases hMoves
      | _ => cases hMoves
    | _ => cases hMoves

/-- Only a running kernel emits `ShutdownCompleted`. -/
theorem running_of_completed (hBuilt : k.WellFormed b) {pos : Thread → Position}
    (hTyped : (orchestrationTypestate Thread hBuilt).Typed pos c) {t : Thread} {call : KernelCall}
    {o : KernelOp} {next : KernelSig.Ans o → Program KernelSig KernelReturn} {a : KernelSig.Ans o}
    (hRun : c.threads t = .running call (.perform o next)) {duration drained aborted : Nat}
    {instant : Instant} (hEvent : kernelRecord o a =
      .coordinator (.emitted (.shutdownCompleted duration drained aborted instant))) :
    c.world.shared.lifecycle.state = .running := by
  obtain ⟨stage, h⟩ := hTyped.1
  obtain ⟨a', hSome⟩ := hTyped.permits hRun
  cases o with
  | coordinator o => cases o with
    | emit event =>
        obtain rfl : event = .shutdownCompleted duration drained aborted instant := by
          simpa [kernelRecord, coordinatorMachine] using hEvent
        cases hPos : pos t with
        | outside =>
            rw [hPos] at hSome
            cases hSome
        | inside s =>
            obtain ⟨rfl, -⟩ := h.inside hPos
            rw [hPos] at hSome
            have hStage : s = .exec .sequencing := by
              by_contra hOther
              simp [Position.next, Position.coordinator, Stage.coordinates, hOther] at hSome
            rw [h.recorded.state, hStage]
            rfl
    | _ => simp [kernelRecord, coordinatorMachine] at hEvent
  | lifecycle | health => simp [kernelRecord] at hEvent
  | supervise => simp [kernelRecord] at hEvent
  | _ => simp [kernelRecord] at hEvent

theorem completesFirst_of_reachable (hBuild : b.build = .ok k)
    (reach : Reachable (KernelStep Thread k) (KernelConfig.built Thread k clock) c) :
    CompletesFirst c.world.trace := by
  have hBuilt := build_wellFormed hBuild
  obtain ⟨pos, -, -, hFirst⟩ := Typestate.typed_invariant
    (fun _ c => Winding c.world ∧ CompletesFirst c.world.trace) (typed_built hBuilt clock)
    ⟨fun ⟨e, hMem, _⟩ => (nomatch hMem), every_nil⟩
    (fun pos c label pos' c' hTyped hInv hStep _ _ => by
      obtain ⟨hWinding, hFirst⟩ := hInv
      cases hStep with
      | call | ret => exact ⟨hWinding, hFirst⟩
      | @op t call o next a shared hRun hExec =>
          refine ⟨hWinding.after hExec, every_concat.mpr ⟨hFirst, ?_⟩⟩
          intro duration drained aborted instant hEvent e' hPast
          have hRunning := running_of_completed hBuilt hTyped hRun hEvent
          by_contra hMoves
          have hLate := hWinding ⟨e', hPast, by simpa using hMoves⟩
          rw [hRunning] at hLate
          simp [KernelState.isTerminal] at hLate) reach
  exact hFirst

/-- No history of a kernel contains the documented sequence, however its threads
interleave and whatever its workers, hooks and subsystems do. -/
theorem never_shut_down_as_documented (hBuild : b.build = .ok k)
    (reach : Reachable (KernelStep Thread k) (KernelConfig.built Thread k clock) c) :
    ¬ ShutDownAsDocumented k c.world.trace :=
  (completesFirst_of_reachable hBuild reach).not_documented

end System

/-- Whether `run` came to its end. -/
def RunExit.isFinished : RunExit → Bool
  | finished _ _ => true
  | _ => false

/-- A `run` with one worker that is ended by the shutdown signal. -/
theorem exists_signalled_run :
    ∃ k, oneWorker.build = .ok k ∧ ∃ c : KernelConfig Unit, ∃ report r,
      Reachable (KernelStep Unit k) (KernelConfig.built Unit k 0) c ∧
        c.threads () = .running .run (.done (.ran (.finished report r))) ∧
        c.world.shared.signalled = true := by
  let env : Environment := { Environment.calm with supervisor := .cancelled }
  have hPlays : env.plays oneWorker ([.call () .shutdown, .go (), .ret ()] ++ runAlone 126)
      (fun c => c.world.shared.signalled && (c.ranExit ()).any RunExit.isFinished) = true := by
    decide +kernel
  obtain ⟨k, hBuild, c, reach, hAsk⟩ := Environment.reachable_of_plays hPlays
  obtain ⟨hSignal, hExit⟩ := Bool.and_eq_true_iff.mp hAsk
  obtain ⟨exit, hRan, hFinished⟩ := (Option.any_eq_true _ _).mp hExit
  cases exit with
  | finished report r =>
      exact ⟨k, hBuild, c, report, r, reach, KernelConfig.ranExit_eq_some.mp hRan, hSignal⟩
  | _ => cases hFinished

theorem never_shut_down_as_documented_signalled : ∃ k, oneWorker.build = .ok k ∧
    ∃ c : KernelConfig Unit, Reachable (KernelStep Unit k) (KernelConfig.built Unit k 0) c ∧
      c.world.shared.signalled = true ∧ ¬ ShutDownAsDocumented k c.world.trace := by
  obtain ⟨k, hBuild, c, report, r, reach, -, hSignal⟩ := exists_signalled_run
  exact ⟨k, hBuild, c, reach, hSignal, never_shut_down_as_documented hBuild reach⟩

/-- The documented order fails on that run. -/
theorem signalled_run_out_of_order :
    ¬ ∀ (b : KernelBuilder) (k : Kernel), b.build = .ok k → ∀ clock (c : KernelConfig Unit) t report r,
      Reachable (KernelStep Unit k) (KernelConfig.built Unit k clock) c →
      c.threads t = .running .run (.done (.ran (.finished report r))) →
      c.world.shared.signalled = true → ShutDownAsDocumented k c.world.trace := by
  intro hClaim
  obtain ⟨k, hBuild, c, report, r, reach, hRun, hSignal⟩ := exists_signalled_run
  exact (completesFirst_of_reachable hBuild reach).not_documented
    (hClaim _ k hBuild 0 c () report r reach hRun hSignal)

end ServiceKernel
