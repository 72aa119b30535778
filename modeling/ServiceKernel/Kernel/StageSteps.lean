import ServiceKernel.Kernel.Orchestration

/-! What one operation of the thread in charge does to its stage, said once. -/
namespace ServiceKernel

open Interleaving

/-- The operations that move the exec phase on. -/
def KernelOp.inExec : KernelOp → Bool
  | .coordinator _ => true
  | .hasWorkers => true
  | .signalRequested => true
  | .buildRuntime _ => true
  | .takeWorkers => true
  | .supervise _ => true
  | _ => false

namespace Stage

/-- One operation of the thread in charge, with its answer, between two stages. -/
inductive Onward (k : Kernel) : Stage → (o : KernelOp) → KernelSig.Ans o → Stage → Prop
  | moves {stage stage' : Stage} {toState : KernelState} {move : KernelState × Instant}
      (h : Moves k stage toState stage') :
      Onward k stage (.lifecycle (.checkAndSet toState)) (Except.ok move : Except TransitionError _)
        stage'
  | starts {stage stage' : Stage} {c : Callback} {s : Subsystem} (h : Starts k stage c s stage') :
      Onward k stage (.startCallback c s) () stage'
  | finishes {stage stage' : Stage} {c : Callback} {s : Subsystem} {outcome : CallbackOutcome}
      (h : Finishes k stage c s outcome stage') : Onward k stage (.finishCallback c s) outcome stage'
  | booted {done : Nat} {name : String} {now : Instant}
      (hNext : (k.subsystems.map Subsystem.name)[done]? = some name) :
      Onward k (.recording .boot done) (.insertBooted name) now (.forward .boot (done + 1))
  | loaded {done : Nat} {name : String} {now : Instant}
      (hNext : (k.subsystems.map Subsystem.name)[done]? = some name) :
      Onward k (.recording .load done) (.insertLoaded name) now (.forward .load (done + 1))
  | reads {done : Nat} {keys : List String} :
      Onward k (.broken .load done) .loadedKeys keys (.closing true done done)
  | exec {e e' : ExecStage} {o : KernelOp} {a : KernelSig.Ans o} (hExec : o.inExec = true) :
      Onward k (.exec e) o a (.exec e')
  | stays {stage : Stage} {o : KernelOp} {a : KernelSig.Ans o} (hNeutral : o.Neutral) :
      Onward k stage o a stage

section Cases

variable {k : Kernel} {stage stage' : Stage}

theorem reads_cases {keys : List String} (h : stage.reads k keys = some stage') :
    ∃ done, stage = .broken .load done ∧ stage' = .closing true done done := by
  unfold reads at h
  split at h
  · obtain ⟨-, hStage⟩ := Option.ite_none_right_eq_some.mp h
    cases hStage
    exact ⟨_, rfl, rfl⟩
  · cases h

theorem seesWorkers_cases {answer : Bool} (h : stage.seesWorkers answer = some stage') :
    ∃ e e', stage = .exec e ∧ stage' = .exec e' := by
  unfold seesWorkers at h
  split at h
  · cases h
    exact ⟨_, _, rfl, rfl⟩
  · cases h

theorem seesSignal_cases {answer : Bool} (h : stage.seesSignal answer = some stage') :
    ∃ e e', stage = .exec e ∧ stage' = .exec e' := by
  unfold seesSignal at h
  split at h <;> cases h <;> exact ⟨_, _, rfl, rfl⟩

theorem builds_cases {flavor : RuntimeFlavor} {result : Except String Unit}
    (h : stage.builds flavor result = some stage') :
    ∃ e e', stage = .exec e ∧ stage' = .exec e' := by
  unfold builds at h
  split at h <;> cases h <;> exact ⟨_, _, rfl, rfl⟩

theorem supervises_cases (h : stage.supervises = some stage') :
    ∃ e e', stage = .exec e ∧ stage' = .exec e' := by
  unfold supervises at h
  split at h
  · cases h
    exact ⟨_, _, rfl, rfl⟩
  · cases h

/-- The coordinator is at work in the exec phase only; any thread may hand it a hook or
take its token. -/
theorem coordinates_cases {o : CoordinatorOp} {a : CoordinatorSig.Ans o}
    (h : stage.coordinates k o a = some stage') :
    (∃ e e', stage = .exec e ∧ stage' = .exec e') ∨ (KernelOp.coordinator o).Neutral ∧ stage' = stage := by
  have hSequencing : ∀ {next : Stage}, (if stage = .exec .sequencing then some next else none) =
      some stage' → (∃ e, next = .exec e) ∨ next = stage →
      ∃ e e', stage = .exec e ∧ stage' = .exec e' := by
    intro next hIf hNext
    obtain ⟨rfl, hStage⟩ := Option.ite_none_right_eq_some.mp hIf
    cases hStage
    rcases hNext with ⟨e, rfl⟩ | rfl
    · exact ⟨_, _, rfl, rfl⟩
    · exact ⟨_, _, rfl, rfl⟩
  cases o with
  | now | stdNow | markCompleted =>
      apply Or.inl
      simp only [coordinates] at h
      split at h <;> cases h <;> exact ⟨_, _, rfl, rfl⟩
  | emit event =>
      apply Or.inl
      cases event with
      | shutdownCompleted => exact hSequencing h (Or.inl ⟨_, rfl⟩)
      | transition | shutdownStarted => exact hSequencing h (Or.inr rfl)
  | takeHooks | startHook | finishHook => exact Or.inl (hSequencing h (Or.inr rfl))
  | signalToken | registerHook =>
      cases h
      exact Or.inr ⟨trivial, rfl⟩

/-- Whatever the thread in charge does is one of these. -/
theorem onward_of_next {o : KernelOp} {a : KernelSig.Ans o}
    (hNext : Position.next k (.inside stage) o a = some (.inside stage')) :
    Onward k stage o a stage' := by
  have hWithin : ∀ f : Stage → Option Stage, (Position.inside stage).within f =
      some (.inside stage') → f stage = some stage' := by
    intro f hSome
    simpa [Position.within] using hSome
  cases o with
  | lifecycle o => cases o with
    | checkAndSet toState => cases a with
      | error e => simp [Position.next, Position.lifecycle] at hNext
      | ok move =>
          have hMove : stage.moves k toState = some stage' := by
            simpa [Position.next, Position.lifecycle] using hNext
          exact .moves (moves_cases hMove)
    | emit | gauge | counter | snapshot =>
        obtain rfl := Position.inside.inj (Option.some.inj hNext)
        exact .stays trivial
  | coordinator o =>
      have hStep : stage.coordinates k o a = some stage' := by
        simpa [Position.next, Position.coordinator] using hNext
      rcases coordinates_cases hStep with ⟨e, e', rfl, rfl⟩ | ⟨hNeutral, rfl⟩
      · exact .exec rfl
      · exact .stays hNeutral
  | startCallback c s => exact .starts (starts_cases (hWithin (Stage.starts k · c s) hNext))
  | finishCallback c s => exact .finishes (finishes_cases (hWithin (Stage.finishes k · c s a) hNext))
  | insertBooted name =>
      obtain ⟨done, -, hName, rfl, rfl⟩ := records_cases (hWithin (Stage.records k · .boot name) hNext)
      exact .booted hName
  | insertLoaded name =>
      obtain ⟨done, -, hName, rfl, rfl⟩ := records_cases (hWithin (Stage.records k · .load name) hNext)
      exact .loaded hName
  | loadedKeys =>
      obtain ⟨done, rfl, rfl⟩ := reads_cases (hWithin (Stage.reads k · a) hNext)
      exact .reads
  | hasWorkers =>
      obtain ⟨e, e', rfl, rfl⟩ := seesWorkers_cases (hWithin (Stage.seesWorkers · a) hNext)
      exact .exec rfl
  | signalRequested =>
      obtain ⟨e, e', rfl, rfl⟩ := seesSignal_cases (hWithin (Stage.seesSignal · a) hNext)
      exact .exec rfl
  | buildRuntime flavor =>
      obtain ⟨e, e', rfl, rfl⟩ := builds_cases (hWithin (Stage.builds · flavor a) hNext)
      exact .exec rfl
  | takeWorkers | supervise workers =>
      obtain ⟨e, e', rfl, rfl⟩ := supervises_cases (hWithin Stage.supervises hNext)
      exact .exec rfl
  | _ =>
      obtain rfl := Position.inside.inj (Option.some.inj hNext)
      exact .stays trivial

end Cases

end Stage

end ServiceKernel
