import ServiceKernel.Lifecycle.Walk
import ServiceKernel.Semantics.Publication

/-! What the transition events and the phase gauge end on. The state moves under the lock,
the event and the gauge follow after it is released, each at its own time, so those of
two moves may come in the other order. -/
namespace ServiceKernel

open Interleaving Execution

/-- The state that the rest of a call will report in its event. -/
def owesEvent : Program LifecycleSig (Except TransitionError Unit) → Option KernelState
  | .perform (.emit (.transition _ toState _)) _ => some toState
  | _ => none

/-- What the rest of a call will write to the gauge. -/
def owesGauge : Program LifecycleSig (Except TransitionError Unit) → Option Nat
  | .perform (.gauge ordinal) _ => some ordinal
  | .perform (.emit _) next => owesGauge (next ())
  | _ => none

/-- A move that is granted is reported by an event and then by the gauge, once each. -/
def ReportedOnce : Program LifecycleSig (Except TransitionError Unit) → Prop
  | .perform (.checkAndSet toState) next => ∀ answer : Except TransitionError (KernelState × Instant),
      match answer with
      | .error _ => owesEvent (next answer) = none ∧ owesGauge (next answer) = none
      | .ok _ => owesEvent (next answer) = some toState ∧
          owesGauge (next answer) = some toState.phase.ordinal
  | .perform (.emit _) next => owesEvent (next ()) = none
  | .perform (.gauge _) next => owesEvent (next ()) = none ∧ owesGauge (next ()) = none
  | .perform (.counter _) next => owesEvent (next ()) = none ∧ owesGauge (next ()) = none
  | .perform .snapshot next => ∀ a, owesEvent (next a) = none ∧ owesGauge (next a) = none
  | .done _ => True

theorem transition_reportedOnce (toState : KernelState) :
    (transition toState).Everywhere ReportedOnce := by
  refine ⟨fun answer => ?_, fun answer => ?_⟩
  · cases answer <;> exact ⟨rfl, rfl⟩
  · cases answer with
    | error e => exact trivial
    | ok move => exact ⟨rfl, fun _ => ⟨⟨rfl, rfl⟩, fun _ => ⟨⟨rfl, rfl⟩, fun _ => trivial⟩⟩⟩

/-- The state that a record reports. -/
def reportedState : LifecycleRecord → Option KernelState
  | .emitted (.transition _ toState _) => some toState
  | _ => none

def gaugeValue : LifecycleRecord → Option Nat
  | .gauge ordinal => some ordinal
  | _ => none

/-- The state as the controller holds it and as subscribers see it. -/
def stateDisplay (Thread : Type) : Display LifecycleSig Thread (Clocked LifecycleInner) LifecycleRecord
    (Except TransitionError Unit) KernelState :=
  ⟨fun l => l.state.state, .created, reportedState, owesEvent⟩

/-- The phase as the controller holds it and as the gauge has it. -/
def phaseDisplay (Thread : Type) : Display LifecycleSig Thread (Clocked LifecycleInner) LifecycleRecord
    (Except TransitionError Unit) Nat :=
  ⟨fun l => l.state.state.phase.ordinal, 0, gaugeValue, owesGauge⟩

section Step

variable {Thread : Type} [DecidableEq Thread] {clock : Instant} {c c' : LifecycleConfig Thread}
  {label : Label LifecycleSig Thread KernelState}

abbrev LifecycleStep (Thread : Type) [DecidableEq Thread] :
    LifecycleConfig Thread → Label LifecycleSig Thread KernelState → LifecycleConfig Thread → Prop :=
  Step (lifecycleMachine Thread) transition

/-- What is reported of a move is still so, or another call has yet to report what is. -/
def ReportedInOrder (c : LifecycleConfig Thread) : Label LifecycleSig Thread KernelState → Prop
  | .op t (.emit (.transition _ toState _)) _ =>
    toState = c.state ∨ (stateDisplay Thread).AwaitedBesides c t c.state
  | .op t (.gauge ordinal) _ =>
    ordinal = c.state.phase.ordinal ∨ (phaseDisplay Thread).AwaitedBesides c t c.state.phase.ordinal
  | _ => True

/-- State and phase are both shown, or will be. -/
def BothCurrent (c : LifecycleConfig Thread) : Prop :=
  (stateDisplay Thread).Current c ∧ (phaseDisplay Thread).Current c

theorem lifecycleStep_reported_iff (reach : Reachable (LifecycleStep Thread) (.fresh Thread clock) c)
    (hGood : BothCurrent c) (h : LifecycleStep Thread c label c') :
    BothCurrent c' ↔ ReportedInOrder c label := by
  obtain ⟨hState, hPhase⟩ := hGood
  cases h with
  | @call t k hIdle => exact iff_of_true ⟨hState.call hIdle rfl, hPhase.call hIdle rfl⟩ trivial
  | @ret t k r hAt => exact iff_of_true ⟨hState.ret hAt rfl, hPhase.ret hAt rfl⟩ trivial
  | @op t k o next a shared hAt hExec =>
      have hShape := (everywhere_of_reachable transition_reportedOnce reach t k _ hAt).here
      cases o with
      | checkAndSet toState =>
          have hOwes := hShape a
          cases a with
          | error e =>
              obtain ⟨-, -, rfl⟩ := lifecycle_refused hExec
              exact iff_of_true ⟨hState.op hAt rfl rfl hOwes.1, hPhase.op hAt rfl rfl hOwes.2⟩ trivial
          | ok move =>
              obtain ⟨-, -, -, rfl⟩ := lifecycle_moved hExec
              exact iff_of_true ⟨Display.current_of_owes hOwes.1, Display.current_of_owes hOwes.2⟩ trivial
      | emit event =>
          obtain rfl := Option.some.inj hExec
          have hPhase' := hPhase.op (M := lifecycleMachine Thread) (a := a) hAt rfl rfl rfl
          cases event with
          | transition fromState toState now =>
              exact (and_iff_left hPhase').trans (Display.current_settled_iff hShape)
          | _ => exact iff_of_true ⟨hState.op hAt rfl rfl hShape, hPhase'⟩ trivial
      | gauge ordinal =>
          obtain rfl := Option.some.inj hExec
          have hState' := hState.op (M := lifecycleMachine Thread) (a := a) hAt rfl rfl hShape.1
          exact (and_iff_right hState').trans (Display.current_settled_iff hShape.2)
      | counter toState =>
          obtain rfl := Option.some.inj hExec
          exact iff_of_true ⟨hState.op hAt rfl rfl hShape.1, hPhase.op hAt rfl rfl hShape.2⟩ trivial
      | snapshot =>
          obtain ⟨-, rfl⟩ : a = c.world.shared.state.snapshot ∧ c.world.shared = shared := by
            simpa [lifecycleMachine] using hExec
          exact iff_of_true ⟨hState.op hAt rfl rfl (hShape a).1, hPhase.op hAt rfl rfl (hShape a).2⟩ trivial

/-- Some call has succeeded so far. -/
def HasMoved (trace : List (Thread × LifecycleRecord)) : Prop :=
  ∃ t fromState toState now, (t, .moved fromState toState now) ∈ trace

omit [DecidableEq Thread] in
theorem moveOf_moved {o : LifecycleOp} {a : LifecycleSig.Ans o} {fromState toState : KernelState}
    {now : Instant} (h : (lifecycleMachine Thread).event o a = .moved fromState toState now) :
    moveOf ⟨o, a⟩ = some (fromState, toState, now) := by
  cases o with
  | checkAndSet toState =>
      cases a with
      | error e => cases h
      | ok move =>
          cases h
          rfl
  | _ => cases h

/-- No move leads to `Created`. -/
theorem hasMoved_state (reach : Reachable (LifecycleStep Thread) (.fresh Thread clock) c) :
    HasMoved c.world.trace → c.state ≠ .created := by
  refine reach.invariant (fun c => HasMoved c.world.trace → c.state ≠ .created) ?_ ?_
  · rintro ⟨_, _, _, _, hMem⟩
    cases hMem
  · intro c label c' ih hStep
    cases hStep with
    | call => exact ih
    | ret => exact ih
    | @op t k o next a shared hAt hExec =>
        rintro ⟨u, fromState, toState, now, hMem⟩
        rcases lifecycle_exec hExec with ⟨hNone, rfl⟩ | ⟨move, -, -, -, hLegal⟩
        · rcases List.mem_append.mp hMem with hOld | hNew
          · exact ih ⟨u, fromState, toState, now, hOld⟩
          · have hMove := moveOf_moved (Prod.mk.inj (List.mem_singleton.mp hNew)).2.symm
            rw [hNone] at hMove
            cases hMove
        · intro hCreated
          change shared.state.state = .created at hCreated
          rw [hCreated] at hLegal
          revert hLegal
          cases c.world.shared.state.state <;> decide

/-- Once all calls have returned, the gauge and the events have ended on the state. -/
def EndsRight (c : LifecycleConfig Thread) : Prop :=
  c.Quiescent → HasMoved c.world.trace →
    lastShown gaugeValue c.world.trace = some c.state.phase.ordinal ∧
      lastShown reportedState c.world.trace = some c.state

theorem endsRight_of_current (reach : Reachable (LifecycleStep Thread) (.fresh Thread clock) c)
    (h : BothCurrent c) : EndsRight c := by
  intro hQuiet hMoved
  have hCreated := hasMoved_state reach hMoved
  have hOrdinal : c.state.phase.ordinal ≠ 0 := by
    revert hCreated
    cases c.state <;> decide
  exact ⟨(h.2.seen hQuiet).resolve_right fun hNever => hOrdinal hNever.1,
    (h.1.seen hQuiet).resolve_right fun hNever => hCreated hNever.1⟩

end Step

section Runs

variable {Thread : Type} [DecidableEq Thread] {clock : Instant} {finish : LifecycleConfig Thread}
  {labels : List (Label LifecycleSig Thread KernelState)}

omit [DecidableEq Thread] in
theorem fresh_bothCurrent : BothCurrent (LifecycleConfig.fresh Thread clock) := ⟨Or.inl rfl, Or.inl rfl⟩

/-- The runs along which state and phase are always shown or yet to be shown are exactly
those whose steps all meet the condition. -/
theorem reported_runs_iff :
    Runs (Within (LifecycleStep Thread) BothCurrent) (.fresh Thread clock) labels finish ↔
      Runs (Restrict (LifecycleStep Thread) ReportedInOrder) (.fresh Thread clock) labels finish :=
  runs_within_iff_restrict _ (Reachable (LifecycleStep Thread) (.fresh Thread clock))
    fresh_bothCurrent (Reachable.refl _) (fun _ _ _ reach hStep => reach.tail hStep)
    fun _ _ _ reach hGood hStep => lifecycleStep_reported_iff reach hGood hStep

/-- Such runs end right. -/
theorem lifecycle_ends_right_iff (Thread : Type) [DecidableEq Thread] (clock : Instant)
    (labels : List (Label LifecycleSig Thread KernelState)) (finish : LifecycleConfig Thread) :
    (Runs (Within (LifecycleStep Thread) BothCurrent) (.fresh Thread clock) labels finish ↔
      Runs (Restrict (LifecycleStep Thread) ReportedInOrder) (.fresh Thread clock) labels finish) ∧
    (Runs (Restrict (LifecycleStep Thread) ReportedInOrder) (.fresh Thread clock) labels finish →
      EndsRight finish) :=
  ⟨reported_runs_iff, fun run => endsRight_of_current (run.reachable.mono fun _ _ _ h => h.1)
    ((reported_runs_iff.mpr run).within_good fresh_bothCurrent)⟩

/-- A kernel that is booted by one thread ends right. -/
theorem lifecycle_ends_right_boot : ∃ c : LifecycleConfig Bool, c.Quiescent ∧
    lastShown gaugeValue c.world.trace = some 1 ∧ EndsRight c := by
  have hCall : Runs (Restrict (LifecycleStep Bool) ReportedInOrder) (.fresh Bool 0)
      [.call false .booting] _ := Runs.single ⟨Step.call rfl, trivial⟩
  have hMove : Runs (Restrict (LifecycleStep Bool) ReportedInOrder) (.fresh Bool 0)
      (_ ++ [.op false (LifecycleOp.checkAndSet .booting)
        (.ok (.created, 0) : Except TransitionError (KernelState × Instant))]) _ :=
    Runs.succ hCall ⟨Step.op rfl rfl, trivial⟩
  have hEvent : Runs (Restrict (LifecycleStep Bool) ReportedInOrder) (.fresh Bool 0)
      (_ ++ [.op false (LifecycleOp.emit (.transition .created .booting 0)) ()]) _ :=
    Runs.succ hMove ⟨Step.op rfl rfl, Or.inl rfl⟩
  have hGauge : Runs (Restrict (LifecycleStep Bool) ReportedInOrder) (.fresh Bool 0)
      (_ ++ [.op false (LifecycleOp.gauge 1) ()]) _ :=
    Runs.succ hEvent ⟨Step.op rfl rfl, Or.inl rfl⟩
  have hCounter : Runs (Restrict (LifecycleStep Bool) ReportedInOrder) (.fresh Bool 0)
      (_ ++ [.op false (LifecycleOp.counter "booting") ()]) _ :=
    Runs.succ hGauge ⟨Step.op rfl rfl, trivial⟩
  have run : Runs (Restrict (LifecycleStep Bool) ReportedInOrder) (.fresh Bool 0)
      (_ ++ [.ret false]) _ := Runs.succ hCounter ⟨Step.ret rfl, trivial⟩
  exact ⟨_, fun t => by cases t <;> rfl, rfl, (lifecycle_ends_right_iff Bool 0 _ _).2 run⟩

/-- Thread `false` moves to `Booting` and pauses before it reports it, thread `true` moves
on to `Loading` in full: gauge and events end on `Booting`. -/
theorem lifecycle_ends_behind : ¬ ∀ c : LifecycleConfig Bool,
    Reachable (LifecycleStep Bool) (.fresh Bool 0) c → EndsRight c := by
  intro hClaim
  obtain ⟨c, hRun, hQuiet, hMoved, hState, hGauge⟩ : ∃ c : LifecycleConfig Bool,
      schedule (lifecycleMachine Bool) transition lifecycleAnswer (LifecycleConfig.fresh Bool 0)
        [.call false .booting, .go false, .call true .loading, .go true, .go true, .go true,
          .go true, .ret true, .go false, .go false, .go false, .ret false] = some c ∧
      c.Quiescent ∧ (false, .moved .created .booting 0) ∈ c.world.trace ∧ c.state = .loading ∧
      lastShown gaugeValue c.world.trace = some 1 :=
    ⟨_, rfl, fun t => by cases t <;> rfl, by decide, rfl, rfl⟩
  have hRight := (hClaim c (schedule_reachable hRun) hQuiet ⟨_, _, _, _, hMoved⟩).1
  rw [hState, hGauge] at hRight
  revert hRight
  decide

end Runs

end ServiceKernel
