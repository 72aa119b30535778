import ServiceKernel.Kernel.Endings
import ServiceKernel.Shutdown.Hooks

/-! What a bad hook can do to a `run` of the kernel. The coordinator's account of its
hooks holds inside the kernel as well; whether `run` gets past it depends on how they end. -/
namespace ServiceKernel

open Interleaving Execution

variable {Thread : Type}

def KernelRecord.coordinator? : KernelRecord → Option CoordinatorRecord
  | .coordinator r => some r
  | _ => none

/-- The coordinator inside the kernel, with its own part of the history. -/
def coordinatorWorld (w : KernelWorld Thread) : CoordinatorWorld Thread :=
  ⟨⟨w.shared.coordinator, w.shared.clock⟩,
    w.trace.filterMap fun e => e.2.coordinator?.map fun r => (e.1, r)⟩

theorem mem_coordinatorWorld {w : KernelWorld Thread} {t : Thread} {r : CoordinatorRecord} :
    (t, r) ∈ (coordinatorWorld w).trace ↔ (t, .coordinator r) ∈ w.trace := by
  constructor
  · intro hMem
    obtain ⟨⟨u, record⟩, hRecord, hSome⟩ := List.mem_filterMap.mp hMem
    obtain ⟨r', hCoordinator, hSame⟩ := Option.map_eq_some_iff.mp hSome
    obtain ⟨rfl, rfl⟩ := Prod.mk.inj hSame
    cases record with
    | coordinator r =>
        obtain rfl := Option.some.inj hCoordinator
        exact hRecord
    | _ => cases hCoordinator
  · exact fun hMem => List.mem_filterMap.mpr ⟨_, hMem, rfl⟩

/-- Where a thread is in the shutdown sequence, and whether it has passed the coordinator
over for want of a runtime. -/
structure HookPosition where
  sequence : SequencePosition
  skipped : Bool

def HookPosition.next (grace : Duration) (p : HookPosition) :
    (o : KernelOp) → KernelSig.Ans o → Option HookPosition
  | .coordinator o, a => (p.sequence.next grace o a).map fun q => ⟨q, p.skipped⟩
  | .buildRuntime .currentThread, .error _ => some ⟨p.sequence, true⟩
  | _, _ => some p

abbrev hookProtocol (grace : Duration) : Protocol KernelSig where
  Position := HookPosition
  rest := ⟨.outside, false⟩
  next := HookPosition.next grace

/-- The operations that have nothing to do with the coordinator. -/
def KernelOp.Apart : KernelOp → Prop
  | .coordinator _ => False
  | .buildRuntime .currentThread => False
  | _ => True

section Follows

variable {k : Kernel} {grace : Duration} {p : HookPosition} {α : Type}

theorem KernelOp.Apart.next {o : KernelOp} (h : o.Apart) (p : HookPosition) (a : KernelSig.Ans o) :
    p.next grace o a = some p := by
  cases o with
  | coordinator o => exact h.elim
  | buildRuntime flavor =>
      cases flavor with
      | currentThread => exact h.elim
      | multiThread => rfl
  | _ => rfl

theorem KernelOp.Neutral.next_outside {o : KernelOp} (h : o.Neutral) (a : KernelSig.Ans o) :
    HookPosition.next grace ⟨.outside, false⟩ o a = some ⟨.outside, false⟩ := by
  cases o with
  | coordinator o => cases o with
    | signalToken | registerHook => rfl
    | _ => exact h.elim
  | buildRuntime flavor => exact h.elim
  | _ => rfl

theorem follows_still {program : Program KernelSig α} {allowed : KernelOp → Prop}
    (hAll : program.All allowed)
    (hNext : ∀ o, allowed o → ∀ a, HookPosition.next grace p o a = some p) :
    (hookProtocol grace).Follows (fun _ q => q = p) program p := by
  apply Protocol.Follows.of_all (P := hookProtocol grace) _ hAll
  intro o hAllowed
  have hSame : ∀ a, (hookProtocol grace).next p o a = some p := hNext o hAllowed
  obtain ⟨a⟩ := kernelAns_nonempty o
  refine ⟨⟨a, by rw [hSame]; rfl⟩, fun a p' hStep => ?_⟩
  rw [hSame] at hStep
  exact (Option.some.inj hStep).symm

theorem follows_apart {program : Program KernelSig α} (hAll : program.All KernelOp.Apart) :
    (hookProtocol grace).Follows (fun _ q => q = p) program p :=
  follows_still hAll fun _ hApart => hApart.next p

theorem apart_transition (toState : KernelState) :
    (onLifecycle (transition toState)).All KernelOp.Apart :=
  Program.all_lift _ fun _ => trivial

theorem apart_forwardPhase {c : Callback} {record : String → Program KernelSig Unit}
    (hRecord : ∀ name, (record name).All KernelOp.Apart) (subsystems : List Subsystem) :
    (forwardPhase c record subsystems).All KernelOp.Apart := by
  induction subsystems with
  | nil => trivial
  | cons s rest ih =>
      refine ⟨trivial, fun _ => ⟨trivial, fun (outcome : CallbackOutcome) => ?_⟩⟩
      simp only [Program.bind]
      cases outcome.error s.name with
      | some error => trivial
      | none => exact (hRecord s.name).bind fun _ => ih

theorem apart_shutdownEach (subsystems : List Subsystem) (firstErr : Option KernelError) :
    (shutdownEach subsystems firstErr).All KernelOp.Apart := by
  induction subsystems generalizing firstErr with
  | nil => trivial
  | cons s rest ih => exact ⟨trivial, fun _ => ⟨trivial, fun outcome => ih _⟩⟩

theorem apart_runShutdownPhase : (runShutdownPhase k).All KernelOp.Apart :=
  ⟨trivial, fun _ => (apart_shutdownEach _ _).bind fun firstErr =>
    ⟨trivial, fun _ => by cases firstErr <;> trivial⟩⟩

theorem apart_runShutdownPhaseToLoaded : (runShutdownPhaseToLoaded k).All KernelOp.Apart :=
  ⟨trivial, fun _ => ⟨trivial, fun _ => ⟨trivial, fun _ => ⟨trivial, fun _ =>
    (apart_shutdownEach _ _).bind fun _ => ⟨trivial, fun _ => trivial⟩⟩⟩⟩⟩

theorem apart_boot : (boot k).All KernelOp.Apart := by
  have hRecord : ∀ name, (recordBooted name).All KernelOp.Apart ∧
      (recordLoaded name).All KernelOp.Apart := fun name =>
    ⟨⟨trivial, fun _ => ⟨trivial, fun _ => ⟨trivial, fun _ => trivial⟩⟩⟩,
      ⟨trivial, fun _ => ⟨trivial, fun _ => ⟨trivial, fun _ => trivial⟩⟩⟩⟩
  have hBoot : (runBootPhase k).All KernelOp.Apart := ⟨trivial, fun _ =>
    (apart_forwardPhase (fun name => (hRecord name).1) _).bind fun _ => ⟨trivial, fun _ => trivial⟩⟩
  have hLoad : (runLoadPhase k).All KernelOp.Apart := ⟨trivial, fun _ =>
    (apart_forwardPhase (fun name => (hRecord name).2) _).bind fun _ => ⟨trivial, fun _ => trivial⟩⟩
  apply (apart_transition _).bind
  intro r
  cases r with
  | error e => trivial
  | ok u =>
      apply hBoot.bind
      intro r
      cases r with
      | error e => exact (apart_transition _).bind fun _ => trivial
      | ok u =>
          apply (apart_transition _).bind
          intro r
          cases r with
          | error e => trivial
          | ok u =>
              apply hLoad.bind
              intro r
              cases r with
              | error e =>
                  exact apart_runShutdownPhaseToLoaded.bind fun _ =>
                    (apart_transition _).bind fun _ => trivial
              | ok u =>
                  apply (apart_transition _).bind
                  intro r
                  cases r <;> trivial

/-- Where the exec phase leaves its thread in the sequence. -/
def ExecPhaseHooks (r : ExecEnd) (q : HookPosition) : Prop :=
  match r with
  | .released none => q.sequence = .outside ∧ q.skipped = true
  | .released (some report) => ShutdownEnd (some report) q.sequence
  | .failed _ => q.sequence = .outside
  | .unwound => ShutdownEnd none q.sequence

theorem follows_onCoordinator :
    (hookProtocol grace).Follows (fun r q => ShutdownEnd r q.sequence)
      (onCoordinator (coordinatorShutdown grace)) ⟨.outside, false⟩ := by
  have hLift : (hookProtocol grace).Follows (fun r q => ∃ p, q = ⟨p, false⟩ ∧ ShutdownEnd r p)
      (onCoordinator (coordinatorShutdown grace)) ⟨.outside, false⟩ :=
    Protocol.Follows.lift (P := shutdownProtocol grace) (Q := hookProtocol grace)
      (f := fun q => ⟨q, false⟩) (fun _ a => ⟨a, rfl⟩) (fun _ _ _ => rfl) follows_shutdown
  apply hLift.mono
  intro r q hEnd
  obtain ⟨p, rfl, hEnd⟩ := hEnd
  exact hEnd

theorem follows_runExecPhase_hooks :
    (hookProtocol k.shutdownGrace).Follows ExecPhaseHooks (runExecPhase k) ⟨.outside, false⟩ := by
  refine follows_op (fun _ => rfl) fun hasWorkers => follows_op (fun _ => rfl) fun requested => ?_
  simp only [Program.bind]
  split
  · apply follows_op (fun _ => rfl)
    intro _
    refine ⟨⟨.ok (), rfl⟩, fun (built : Except String Unit) p' hStep => ?_⟩
    cases built with
    | error e =>
        obtain rfl : HookPosition.mk .outside true = p' := Option.some.inj hStep
        exact ⟨rfl, rfl⟩
    | ok u =>
        obtain rfl : HookPosition.mk .outside false = p' := Option.some.inj hStep
        apply follows_onCoordinator.bind
        intro r q hEnd
        cases r with
        | none => exact hEnd
        | some report => exact hEnd
  · refine follows_op (fun _ => rfl) fun (built : Except String Unit) => ?_
    cases built with
    | error e => exact (rfl : _ = _)
    | ok u =>
        refine follows_op (fun _ => rfl) fun _ => follows_op (fun _ => rfl) fun _ =>
          follows_op (fun _ => rfl) fun _ => ?_
        apply follows_onCoordinator.bind
        intro r q hEnd
        cases r with
        | none => exact follows_op (fun _ => rfl) fun _ => hEnd
        | some report => exact follows_op (fun _ => rfl) fun _ => follows_op (fun _ => rfl) fun _ => hEnd

/-- Where `run` leaves its thread in the sequence. -/
def RunHooks (exit : RunExit) (q : HookPosition) : Prop :=
  match exit with
  | .bootFailed _ => q.sequence = .outside
  | .execFailed _ => q.sequence = .outside
  | .stoppingRefused _ => ∃ report, ExecPhaseHooks (.released report) q
  | .stoppedRefused _ => ∃ report, ExecPhaseHooks (.released report) q
  | .finished report _ => ExecPhaseHooks (.released report) q
  | .unwound => ExecPhaseHooks .unwound q

theorem follows_run_hooks :
    (hookProtocol k.shutdownGrace).Follows RunHooks (run k) ⟨.outside, false⟩ := by
  apply (follows_apart apart_boot).bind
  intro r q hSame
  subst hSame
  cases r with
  | error e => exact (rfl : _ = _)
  | ok u =>
      apply follows_runExecPhase_hooks.bind
      intro r q hEnd
      cases r with
      | failed e => exact hEnd
      | unwound => exact hEnd
      | released report =>
          apply (follows_apart (apart_transition _)).bind
          intro r q' hSame
          subst hSame
          cases r with
          | error e => exact ⟨report, hEnd⟩
          | ok u =>
              apply (follows_apart apart_runShutdownPhase).bind
              intro result q' hSame
              subst hSame
              apply (follows_apart (apart_transition _)).bind
              intro r q' hSame
              subst hSame
              cases r with
              | error e => exact ⟨report, hEnd⟩
              | ok u => exact hEnd

/-- Where a call leaves its thread in the sequence. -/
def CallHooks : KernelCall → KernelReturn → HookPosition → Prop
  | .run, .ran exit, q => RunHooks exit q
  | .run, _, _ => False
  | _, _, q => q.sequence = .outside

theorem follows_kernelBody_hooks (c : KernelCall) :
    (hookProtocol k.shutdownGrace).Follows (CallHooks c) (kernelBody k c) ⟨.outside, false⟩ := by
  have hNeutral : c.starts = false → (hookProtocol k.shutdownGrace).Follows
      (fun _ q => q = ⟨.outside, false⟩) (kernelBody k c) ⟨.outside, false⟩ := fun hStarts =>
    follows_still (neutral_kernelBody hStarts) fun _ hNeutral => hNeutral.next_outside
  cases c with
  | run => exact follows_run_hooks.bind fun _ _ hEnd => hEnd
  | boot =>
      apply (follows_apart apart_boot).bind
      intro r q hSame
      exact congrArg HookPosition.sequence hSame
  | _ => exact (hNeutral rfl).mono fun _ _ hSame => congrArg HookPosition.sequence hSame

end Follows

section Projection

variable {k : Kernel} {t : Thread} {o : KernelOp} {a : KernelSig.Ans o} {s s' : KernelInner Thread}
  {w : KernelWorld Thread} {shared : KernelInner Thread}

theorem lifecycleExec_clock {o : LifecycleOp} {a : LifecycleSig.Ans o} {l l' : Clocked LifecycleInner}
    (h : (lifecycleMachine Thread).exec t o a l = some l') : l.clock ≤ l'.clock := by
  cases o with
  | checkAndSet toState => cases a with
    | error e =>
        obtain ⟨-, -, rfl⟩ := lifecycle_refused h
        exact Nat.le_refl _
    | ok move =>
        obtain ⟨-, -, hClock, rfl⟩ := lifecycle_moved h
        exact hClock
  | _ =>
      obtain rfl := lifecycleExec_state h fun _ hMove => by cases hMove
      exact Nat.le_refl _

theorem coordinatorExec_clock {o : CoordinatorOp} {a : CoordinatorSig.Ans o}
    {c c' : Clocked CoordinatorInner} (h : (coordinatorMachine Thread).exec t o a c = some c') :
    c.clock ≤ c'.clock := by
  cases coordinatorExec_effect h with
  | still _ hClock => exact hClock
  | _ => exact Nat.le_refl _

/-- Time does not go back. -/
theorem kernelExec_clock (h : kernelExec t o a s = some s') : s.clock ≤ s'.clock := by
  cases kernelExec_effect h with
  | lifecycle hExec => exact lifecycleExec_clock hExec
  | coordinator hExec => exact coordinatorExec_clock hExec
  | insertBooted hClock | insertLoaded hClock | now hClock => exact hClock
  | @waited deadline arrived =>
      cases arrived with
      | true => exact Nat.le_refl _
      | false => exact Nat.le_max_left _ _
  | _ => exact Nat.le_refl _

/-- The other operations leave the coordinator alone, though time may pass. -/
theorem kernelExec_coordinator (h : kernelExec t o a s = some s') (hOther : ∀ o', o ≠ .coordinator o') :
    s'.coordinator = s.coordinator ∧ s.clock ≤ s'.clock := by
  refine ⟨?_, kernelExec_clock h⟩
  cases kernelExec_effect h with
  | coordinator => exact absurd rfl (hOther _)
  | _ => rfl

theorem kernelRecord_coordinator (hOther : ∀ o', o ≠ .coordinator o') :
    (kernelRecord o a).coordinator? = none := by
  cases o with
  | coordinator o => exact absurd rfl (hOther o)
  | supervise workers => rfl
  | _ => rfl

/-- Seen from the coordinator, the other operations only let time pass. -/
theorem coordinatorWorld_other (h : kernelExec t o a w.shared = some shared)
    (hOther : ∀ o', o ≠ .coordinator o') :
    coordinatorWorld ((kernelMachine Thread).after w t o a shared) =
      ⟨⟨(coordinatorWorld w).shared.state, shared.clock⟩, (coordinatorWorld w).trace⟩ := by
  have hRecord : ((kernelMachine Thread).event o a).coordinator? = none :=
    kernelRecord_coordinator hOther
  simp [coordinatorWorld, (kernelExec_coordinator h hOther).1, hRecord]

/-- Its own operations act on it as on a coordinator that stands alone. -/
theorem coordinatorWorld_own {o : CoordinatorOp} {a : CoordinatorSig.Ans o}
    (h : kernelExec t (.coordinator o) a w.shared = some shared) :
    ∃ inner, (coordinatorMachine Thread).exec t o a (coordinatorWorld w).shared = some inner ∧
      coordinatorWorld ((kernelMachine Thread).after w t (.coordinator o) a shared) =
        (coordinatorMachine Thread).after (coordinatorWorld w) t o a inner := by
  obtain ⟨inner, hExec, rfl⟩ := KernelInner.withCoordinator_some.mp h
  refine ⟨inner, hExec, ?_⟩
  simp [coordinatorWorld, Machine.after, kernelMachine, kernelRecord, KernelRecord.coordinator?,
    coordinatorMachine]

end Projection

section Typed

variable [DecidableEq Thread] {k : Kernel} {pos : Thread → HookPosition} {p : HookPosition}
  {w : KernelWorld Thread} {t : Thread}

/-- The coordinator inside the kernel keeps its account, and a thread that passed it over
could not build its runtime. -/
structure HooksHeld (k : Kernel) (pos : Thread → HookPosition) (w : KernelWorld Thread) : Prop where
  held : ∃ stage, SequenceHeld k.shutdownGrace stage (fun t => (pos t).sequence) (coordinatorWorld w)
  skipped : ∀ t, (pos t).skipped = true →
    ∃ e, (t, .runtimeBuilt .currentThread (.error e)) ∈ w.trace

theorem sequence_update (p : HookPosition) : (fun u => (Function.update pos t p u).sequence) =
    Function.update (fun u => (pos u).sequence) t p.sequence := by
  funext u
  exact Function.apply_update (fun _ => HookPosition.sequence) pos t p u

theorem HooksHeld.skipped_after (h : HooksHeld k pos w) {o : KernelOp} {a : KernelSig.Ans o}
    {shared : KernelInner Thread}
    (hSkipped : p.skipped = true → (pos t).skipped = true ∨
      ∃ e, kernelRecord o a = .runtimeBuilt .currentThread (.error e)) (u : Thread)
    (hU : (Function.update pos t p u).skipped = true) :
    ∃ e, (u, .runtimeBuilt .currentThread (.error e)) ∈
      ((kernelMachine Thread).after w t o a shared).trace := by
  have hOld : (pos u).skipped = true → ∃ e, (u, .runtimeBuilt .currentThread (.error e)) ∈
      ((kernelMachine Thread).after w t o a shared).trace := fun hBefore =>
    (h.skipped u hBefore).imp fun e hMem => List.mem_append_left _ hMem
  rcases eq_or_ne u t with rfl | hne
  · rcases hSkipped (by simpa using hU) with hBefore | ⟨e, hRecord⟩
    · exact hOld hBefore
    · exact ⟨e, List.mem_append_right _ (List.mem_singleton.mpr (Prod.ext rfl hRecord.symm))⟩
  · exact hOld (by simpa [hne] using hU)

/-- An operation that is not the coordinator's. -/
theorem HookPosition.next_other {grace : Duration} {o : KernelOp} (hOther : ∀ o', o ≠ .coordinator o')
    (p : HookPosition) (a : KernelSig.Ans o) : ∃ q, p.next grace o a = some q ∧
      q.sequence = p.sequence ∧ (q.skipped = true → p.skipped = true ∨
        ∃ e, kernelRecord o a = .runtimeBuilt .currentThread (.error e)) := by
  cases o with
  | coordinator o => exact absurd rfl (hOther o)
  | buildRuntime flavor =>
      cases flavor with
      | multiThread => exact ⟨p, rfl, rfl, Or.inl⟩
      | currentThread =>
          cases a with
          | ok u => exact ⟨p, rfl, rfl, Or.inl⟩
          | error e => exact ⟨_, rfl, rfl, fun _ => Or.inr ⟨e, rfl⟩⟩
  | _ => exact ⟨p, rfl, rfl, Or.inl⟩

theorem HooksHeld.keeps (h : HooksHeld k pos w) {o : KernelOp} {a : KernelSig.Ans o}
    {shared : KernelInner Thread} (hPermits : (hookProtocol k.shutdownGrace).Permits (pos t) o)
    (hExec : kernelExec t o a w.shared = some shared) :
    ∃ p, (pos t).next k.shutdownGrace o a = some p ∧
      HooksHeld k (Function.update pos t p) ((kernelMachine Thread).after w t o a shared) := by
  obtain ⟨stage, hHeld⟩ := h.held
  by_cases hOwn : ∃ o', o = .coordinator o'
  · obtain ⟨o, rfl⟩ := hOwn
    obtain ⟨a', hSome⟩ := hPermits
    obtain ⟨inner, hInner, hWorld⟩ := coordinatorWorld_own hExec
    have hPermits : (shutdownProtocol k.shutdownGrace).Permits (pos t).sequence o :=
      ⟨a', by simpa [HookPosition.next] using hSome⟩
    obtain ⟨q, hNext, stage', hAfter⟩ := hHeld.keeps hPermits hInner
    have hStep : (pos t).next k.shutdownGrace (.coordinator o) a = some ⟨q, (pos t).skipped⟩ :=
      congrArg (Option.map fun q => HookPosition.mk q (pos t).skipped) hNext
    refine ⟨_, hStep, ⟨stage', ?_⟩, h.skipped_after Or.inl⟩
    rw [sequence_update, hWorld]
    exact hAfter
  · have hOther : ∀ o', o ≠ .coordinator o' := fun o' hEq => hOwn ⟨o', hEq⟩
    obtain ⟨q, hNext, hSame, hSkipped⟩ := HookPosition.next_other hOther (pos t) a
    refine ⟨q, hNext, ⟨stage, ?_⟩, h.skipped_after hSkipped⟩
    rw [sequence_update, hSame, Function.update_eq_self, coordinatorWorld_other hExec hOther]
    exact hHeld.wait (kernelExec_coordinator hExec hOther).2

theorem HooksHeld.update_outside (h : HooksHeld k pos w)
    (hAtRest : ∀ s, (pos t).sequence = .inside s → s.AtRest) :
    HooksHeld k (Function.update pos t ⟨.outside, false⟩) w := by
  refine ⟨h.held.imp fun stage hHeld => ?_, fun u hU => ?_⟩
  · rw [sequence_update]
    exact hHeld.leaves hAtRest
  · rcases eq_or_ne u t with rfl | hne
    · simp at hU
    · exact h.skipped u (by simpa [hne] using hU)

theorem ExecPhaseHooks.atRest {r : ExecEnd} (h : ExecPhaseHooks r p) {s : SequenceStage}
    (hInside : p.sequence = .inside s) : s.AtRest := by
  cases r with
  | released report =>
      cases report with
      | none => cases hInside.symm.trans h.1
      | some report =>
          have hEnd : ShutdownEnd (some report) p.sequence := h
          rw [hInside] at hEnd
          exact hEnd.atRest
  | failed e => cases hInside.symm.trans h
  | unwound =>
      have hEnd : ShutdownEnd none p.sequence := h
      rw [hInside] at hEnd
      exact hEnd.atRest

theorem CallHooks.atRest {call : KernelCall} {r : KernelReturn} (h : CallHooks call r p)
    {s : SequenceStage} (hInside : p.sequence = .inside s) : s.AtRest := by
  have hOutside : p.sequence ≠ .outside := by simp [hInside]
  cases call with
  | run => cases r with
    | ran exit => cases exit with
      | bootFailed | execFailed => exact absurd h hOutside
      | stoppingRefused | stoppedRefused =>
          obtain ⟨report, hEnd⟩ := h
          exact hEnd.atRest hInside
      | finished report result => exact ExecPhaseHooks.atRest h hInside
      | unwound => exact ExecPhaseHooks.atRest (r := .unwound) h hInside
    | _ => exact h.elim
  | _ => exact absurd h hOutside

/-- Whoever calls the kernel is somewhere in the coordinator's protocol. -/
abbrev hookTypestate (Thread : Type) [DecidableEq Thread] (k : Kernel) :
    Typestate (kernelMachine Thread) (kernelBody k) where
  protocol := hookProtocol k.shutdownGrace
  begins _ := ⟨.outside, false⟩
  within _ _ := True
  returns := CallHooks
  inv := HooksHeld k
  within_begins _ := trivial
  within_next _ _ _ _ _ _ _ := trivial
  obeys := follows_kernelBody_hooks
  enters pos w t call h hRest := h.update_outside fun s hInside => by
    rw [hRest] at hInside
    cases hInside
  keeps pos w t o a shared h hPermits hExec := h.keeps hPermits hExec
  leaves pos w t call r h hReturns := h.update_outside fun s hInside => hReturns.atRest hInside

theorem hooksHeld_of_reachable {clock : Instant} {c : KernelConfig Thread}
    (reach : Reachable (KernelStep Thread k) (KernelConfig.built Thread k clock) c) :
    ∃ pos, (hookTypestate Thread k).Typed pos c ∧ HooksHeld k pos c.world := by
  have hBuilt : HooksHeld k (fun _ : Thread => ⟨.outside, false⟩) ⟨KernelInner.new k clock, []⟩ :=
    ⟨⟨.unclaimed, sequenceHeld_fresh _ clock⟩, fun _ hSkipped => by cases hSkipped⟩
  obtain ⟨pos, hTyped⟩ := Typestate.typed_of_reachable (T := hookTypestate Thread k)
    (Typestate.typed_start hBuilt) reach
  exact ⟨pos, hTyped, hTyped.1⟩

end Typed

section Skipped

variable {k : Kernel} {b : KernelBuilder} {w : KernelWorld Thread}

/-- The wait of the exec phase is over and the coordinator is not to be called any more. -/
def Stage.pastExec : Stage → Bool
  | exec .released => true
  | closing false _ _ => true
  | callingShutdown false _ _ => true
  | stopped => true
  | _ => false

theorem Stage.pastExec_moves {stage stage' : Stage} {toState : KernelState}
    (h : stage.pastExec = true) (hMove : stage.moves k toState = some stage') :
    stage'.pastExec = true := by
  cases moves_cases hMove with
  | booted | loaded | bootFailed | loadFailed => cases h
  | stopping | stopped => rfl

theorem Stage.pastExec_starts {stage stage' : Stage} {c : Callback} {s : Subsystem}
    (h : stage.pastExec = true) (hStart : stage.starts k c s = some stage') :
    stage'.pastExec = true := by
  cases starts_cases hStart with
  | forward => cases h
  | @closing rollback =>
      cases rollback with
      | false => rfl
      | true => cases h

theorem Stage.pastExec_finishes {stage stage' : Stage} {c : Callback} {s : Subsystem}
    {outcome : CallbackOutcome} (h : stage.pastExec = true)
    (hFinish : stage.finishes k c s outcome = some stage') : stage'.pastExec = true := by
  cases finishes_cases hFinish with
  | ok | broken => cases h
  | @closing rollback =>
      cases rollback with
      | false => rfl
      | true => cases h

theorem Stage.pastExec_coordinates {stage stage' : Stage} {o : CoordinatorOp}
    {a : CoordinatorSig.Ans o} (h : stage.pastExec = true)
    (hStep : stage.coordinates k o a = some stage') : stage' = stage ∧ o ≠ .markCompleted := by
  cases o with
  | signalToken | registerHook => exact ⟨(Option.some.inj hStep).symm, by simp⟩
  | now | stdNow | markCompleted =>
      simp only [coordinates] at hStep
      split at hStep
      all_goals first
        | cases h
        | cases hStep
  | emit event =>
      cases event <;> simp only [coordinates, Option.ite_none_right_eq_some] at hStep <;>
        obtain ⟨rfl, -⟩ := hStep <;> cases h
  | takeHooks | startHook | finishHook =>
      simp only [coordinates, Option.ite_none_right_eq_some] at hStep
      obtain ⟨rfl, -⟩ := hStep
      cases h

/-- Past the exec phase the thread in charge only winds the kernel up. -/
theorem Stage.pastExec_next {stage : Stage} {o : KernelOp} {a : KernelSig.Ans o} {p : Position}
    (h : stage.pastExec = true) (hNext : Position.next k (.inside stage) o a = some p) :
    o ≠ .coordinator .markCompleted ∧ ∃ stage', p = .inside stage' ∧ stage'.pastExec = true := by
  have hStay : some (Position.inside stage) = some p →
      ∃ stage', p = .inside stage' ∧ stage'.pastExec = true := fun hSame =>
    ⟨stage, (Option.some.inj hSame).symm, h⟩
  have hMap : ∀ {next : Option Stage}, next.map Position.inside = some p →
      (∀ stage', next = some stage' → stage'.pastExec = true) →
      ∃ stage', p = .inside stage' ∧ stage'.pastExec = true := by
    intro next hEq hPast
    obtain ⟨stage', hSome, rfl⟩ := Option.map_eq_some_iff.mp hEq
    exact ⟨stage', rfl, hPast stage' hSome⟩
  cases o with
  | lifecycle o => cases o with
    | checkAndSet toState => cases a with
      | ok move => exact ⟨by simp, hMap hNext fun _ => Stage.pastExec_moves h⟩
      | error e => simp [Position.next, Position.lifecycle] at hNext
    | _ => exact ⟨by simp, hStay hNext⟩
  | startCallback c s => exact ⟨by simp, hMap hNext fun _ => Stage.pastExec_starts h⟩
  | finishCallback c s => exact ⟨by simp, hMap hNext fun _ => Stage.pastExec_finishes h⟩
  | coordinator o =>
      obtain ⟨stage', hStage, rfl⟩ := Option.map_eq_some_iff.mp hNext
      obtain ⟨rfl, hMark⟩ := Stage.pastExec_coordinates h hStage
      exact ⟨by simpa using hMark, stage', rfl, h⟩
  | insertBooted name | insertLoaded name | loadedKeys | hasWorkers | signalRequested
  | buildRuntime flavor | takeWorkers | supervise workers =>
      refine ⟨by simp, hMap hNext fun stage' hStep => ?_⟩
      simp only [records, reads, seesWorkers, seesSignal, builds, supervises] at hStep
      split at hStep
      all_goals first
        | cases h
        | cases hStep
  | _ => exact ⟨by simp, hStay hNext⟩

theorem kernelExec_completed {t : Thread} {o : KernelOp} {a : KernelSig.Ans o}
    {s s' : KernelInner Thread} (h : kernelExec t o a s = some s')
    (hMark : o ≠ .coordinator .markCompleted) : s'.coordinator.completed = s.coordinator.completed := by
  cases o with
  | coordinator o =>
      obtain ⟨c, hExec, rfl⟩ := KernelInner.withCoordinator_some.mp h
      exact coordinatorExec_completed hExec fun hEq => hMark (by rw [hEq])
  | _ => exact congrArg CoordinatorInner.completed (kernelExec_coordinator h (by simp)).1

/-- The runtime for the coordinator could not be built. -/
def CoordinatorSkipped (w : KernelWorld Thread) : Prop :=
  ∃ t e, (t, .runtimeBuilt .currentThread (.error e)) ∈ w.trace

/-- Whoever is in charge is past the exec phase, and the coordinator was never called. -/
structure WindsUp (pos : Thread → Position) (w : KernelWorld Thread) : Prop where
  unclaimed : w.shared.coordinator.completed = false
  started : w.shared.lifecycle.state ≠ .created
  past : ∀ t stage, pos t = .inside stage → stage.pastExec = true

variable [DecidableEq Thread] {clock : Instant} {c : KernelConfig Thread}

theorem WindsUp.step {pos : Thread → Position} {t : Thread} {o : KernelOp} {a : KernelSig.Ans o}
    {p : Position} {shared : KernelInner Thread} (h : WindsUp pos w)
    (hPermits : (orchestration k).Permits (pos t) o)
    (hNext : (pos t).next k o a = some p) (hExec : kernelExec t o a w.shared = some shared) :
    WindsUp (Function.update pos t p) ((kernelMachine Thread).after w t o a shared) := by
  have hOthers : (∀ stage, p = .inside stage → stage.pastExec = true) → ∀ u stage,
      Function.update pos t p u = .inside stage → stage.pastExec = true := by
    intro hMine u stage hPos
    rcases eq_or_ne u t with rfl | hne
    · exact hMine stage (by simpa using hPos)
    · exact h.past u stage (by simpa [hne] using hPos)
  have hStarted : shared.lifecycle.state ≠ .created := fun hCreated =>
    h.started (kernelExec_created hExec hCreated)
  cases hPos : pos t with
  | inside stage =>
      rw [hPos] at hNext
      obtain ⟨hMark, stage', rfl, hPast⟩ := Stage.pastExec_next (h.past t stage hPos) hNext
      refine ⟨(kernelExec_completed hExec hMark).trans h.unclaimed, hStarted, hOthers ?_⟩
      intro stage hSame
      exact Position.inside.inj hSame ▸ hPast
  | outside =>
      rw [hPos] at hNext hPermits
      rcases Position.permits_outside hPermits with hNeutral | rfl
      · obtain rfl := Option.some.inj ((hNeutral.next .outside a).symm.trans hNext)
        refine ⟨(kernelExec_completed hExec ?_).trans h.unclaimed, hStarted, hOthers (by simp)⟩
        rintro rfl
        exact hNeutral
      · refine ⟨(kernelExec_completed hExec (by simp)).trans h.unclaimed, hStarted, hOthers ?_⟩
        cases a with
        | error e =>
            obtain rfl : Position.outside = p := Option.some.inj hNext
            simp
        | ok move =>
            obtain ⟨l, hLifecycle, -⟩ := KernelInner.withLifecycle_some.mp hExec
            obtain ⟨hLegal, -⟩ := lifecycle_moved hLifecycle
            exact absurd (isLegal_booting.mp hLegal) h.started

theorem WindsUp.update_outside {pos : Thread → Position} (h : WindsUp pos w) (t : Thread) :
    WindsUp (Function.update pos t .outside) w := by
  refine ⟨h.unclaimed, h.started, fun u stage hPos => ?_⟩
  rcases eq_or_ne u t with rfl | hne
  · simp at hPos
  · exact h.past u stage (by simpa [hne] using hPos)

/-- The step that finds no runtime for the coordinator. -/
theorem WindsUp.of_failure {pos : Thread → Position} {stage : Stage} {t : Thread} {e : String}
    {p : Position} (h : Orchestrated k stage pos w)
    (hNext : (pos t).next k (.buildRuntime .currentThread) (.error e) = some p) :
    WindsUp (Function.update pos t p) ((kernelMachine Thread).after w t
      (.buildRuntime .currentThread) (.error e) w.shared) := by
  cases hPos : pos t with
  | outside =>
      rw [hPos] at hNext
      cases hNext
  | inside s =>
      obtain ⟨rfl, -⟩ := h.inside hPos
      rw [hPos] at hNext
      obtain ⟨stage', hStep, rfl⟩ := Option.map_eq_some_iff.mp hNext
      obtain ⟨rfl, rfl⟩ : s = .exec .waiting ∧ stage' = .exec .released := by
        simp only [Stage.builds] at hStep
        split at hStep
        all_goals first
          | exact ⟨rfl, (Option.some.inj hStep).symm⟩
          | simp_all
      refine ⟨h.recorded.unclaimed rfl, ?_, fun u stage hU => ?_⟩
      · exact fun hCreated => by cases h.recorded.state.symm.trans hCreated
      · rcases eq_or_ne u t with rfl | hne
        · obtain rfl : Stage.exec .released = stage := by simpa using hU
          rfl
        · have hFree := h.sole.free (t := t) (by simp [hPos, Position.stage?]) hne
          rw [Function.update_of_ne hne] at hU
          rw [hU] at hFree
          cases hFree

/-- Once the coordinator was skipped nobody calls it any more. -/
theorem unclaimed_of_skipped (hBuilt : k.WellFormed b)
    (reach : Reachable (KernelStep Thread k) (KernelConfig.built Thread k clock) c)
    (hSkipped : CoordinatorSkipped c.world) : c.world.shared.coordinator.completed = false := by
  obtain ⟨pos, -, hWindsUp⟩ := Typestate.typed_invariant
    (fun pos c => CoordinatorSkipped c.world → WindsUp pos c.world) (typed_built hBuilt clock)
    (fun ⟨t, e, hMem⟩ => (nomatch hMem))
    (fun pos c label pos' c' hTyped hInv hStep hMoves _ => by
      rintro ⟨u, e, hMem⟩
      cases hStep with
      | call hIdle =>
          obtain rfl := hMoves
          exact (hInv ⟨u, e, hMem⟩).update_outside _
      | ret hRun =>
          obtain rfl := hMoves
          exact (hInv ⟨u, e, hMem⟩).update_outside _
      | @op t call o next a shared hRun hExec =>
          obtain ⟨p, hNext, rfl⟩ := hMoves
          rcases List.mem_append.mp hMem with hOld | hNew
          · exact (hInv ⟨u, e, hOld⟩).step (hTyped.permits hRun) hNext hExec
          · obtain ⟨stage, h⟩ := hTyped.1
            have hRecord := (Prod.mk.inj (List.mem_singleton.mp hNew)).2
            cases o with
            | buildRuntime flavor =>
                obtain ⟨rfl, rfl⟩ := KernelRecord.runtimeBuilt.inj hRecord
                obtain rfl := Option.some.inj hExec
                exact WindsUp.of_failure h hNext
            | _ => cases hRecord) reach
  exact (hWindsUp hSkipped).unclaimed

end Skipped

section System

variable [DecidableEq Thread] {k : Kernel} {b : KernelBuilder} {clock : Instant}
  {c : KernelConfig Thread} {t : Thread} {exit : RunExit}

theorem Stage.coordinates_late (stage : Stage) : stage.coordinates k .markCompleted true = none := by
  simp only [coordinates]

/-- Inside the kernel nobody comes too late for the sequence: only one thread ever asks. -/
theorem not_late_of_reachable (hBuilt : k.WellFormed b)
    (reach : Reachable (KernelStep Thread k) (KernelConfig.built Thread k clock) c) :
    ∀ t, (t, .coordinator (.completed true)) ∉ c.world.trace := by
  obtain ⟨pos, -, hNever⟩ := Typestate.typed_invariant
    (fun _ c => ∀ t, (t, .coordinator (.completed true)) ∉ c.world.trace) (typed_built hBuilt clock)
    (fun t hMem => (nomatch hMem))
    (fun pos c label pos' c' _ hInv hStep hMoves _ u hMem => by
      cases hStep with
      | call hIdle => exact hInv u hMem
      | ret hRun => exact hInv u hMem
      | @op t call o next a shared hRun hExec =>
          obtain ⟨p, hNext, rfl⟩ := hMoves
          rcases List.mem_append.mp hMem with hOld | hNew
          · exact hInv u hOld
          · have hRecord := (Prod.mk.inj (List.mem_singleton.mp hNew)).2
            cases o with
            | coordinator o => cases o with
              | markCompleted =>
                  obtain rfl : true = a := by
                    simpa [kernelMachine, kernelRecord, coordinatorMachine] using hRecord
                  cases hPos : pos t with
                  | outside =>
                      rw [hPos] at hNext
                      cases hNext
                  | inside stage =>
                      rw [hPos] at hNext
                      obtain ⟨stage', hStage, -⟩ := Option.map_eq_some_iff.mp hNext
                      cases (Stage.coordinates_late stage).symm.trans hStage
              | _ => cases hRecord
            | _ => cases hRecord) reach
  exact hNever

theorem lastClaim_mem {trace : List (Thread × CoordinatorRecord)} {wasDone : Bool}
    (h : lastClaim t trace = some wasDone) : (t, .completed wasDone) ∈ trace := by
  obtain ⟨⟨u, record⟩, hMem, hClaim⟩ := List.mem_filterMap.mp (List.mem_of_getLast? h)
  split at hClaim
  · rename_i hSame
    obtain rfl : u = t := hSame
    cases record with
    | completed wasDone =>
        obtain rfl := Option.some.inj hClaim
        exact hMem
    | _ => cases hClaim
  · cases hClaim

def KernelRecord.buildFailed : KernelRecord → Bool
  | .runtimeBuilt _ (.error _) => true
  | _ => false

/-- Building a runtime, for the workers or for the coordinator, has failed. -/
def RuntimeMissing (w : KernelWorld Thread) : Prop := ∃ e ∈ w.trace, e.2.buildFailed = true

omit [DecidableEq Thread] in
theorem runtimeMissing_iff {w : KernelWorld Thread} :
    RuntimeMissing w ↔ RuntimeFailed w ∨ CoordinatorSkipped w := by
  constructor
  · rintro ⟨⟨t, record⟩, hMem, hFailed⟩
    cases record with
    | runtimeBuilt flavor result => cases result with
      | ok u => cases hFailed
      | error e => cases flavor with
        | multiThread => exact Or.inl ⟨_, hMem, rfl⟩
        | currentThread => exact Or.inr ⟨t, e, hMem⟩
    | _ => cases hFailed
  · rintro (⟨e, hMem, hFailed⟩ | ⟨t, e, hMem⟩)
    · refine ⟨e, hMem, ?_⟩
      obtain ⟨message, hRecord⟩ := KernelRecord.runtimeFailed_iff.mp hFailed
      rw [hRecord]
      rfl
    · exact ⟨_, hMem, rfl⟩

/-- Every hook is accounted for, every subsystem was shut down, and the kernel stopped. -/
structure HooksContained (k : Kernel) (exit : RunExit) (w : KernelWorld Thread) : Prop where
  reported : ∃ report result, exit = .finished (some report) result ∧
    report.Performed (coordinatorWorld w).trace
  stopped : w.shared.lifecycle.state = .stopped
  shutDown : ∀ s ∈ k.subsystems,
    startCount .shutdown s.name w.trace = 1 ∧ Returned .shutdown s.name w.trace

omit [DecidableEq Thread] in
theorem Recorded.shutDown {w : KernelWorld Thread} (h : Recorded k .stopped w)
    (hBuilt : k.WellFormed b) {s : Subsystem} (hMem : s ∈ k.subsystems) :
    startCount .shutdown s.name w.trace = 1 ∧ Returned .shutdown s.name w.trace := by
  have hName : s.name ∈ (Stage.names k).reverse :=
    List.mem_reverse.mpr (List.mem_map_of_mem hMem)
  have hAll : (Stage.progress k .stopped).started .shutdown = (Stage.names k).reverse ∧
      (Stage.progress k .stopped).closed = (Stage.names k).reverse := by
    simp [Stage.progress, Progress.reached, ← Stage.length_names]
  constructor
  · rw [← count_started, h.progress, hAll.1]
    exact List.count_eq_one_of_mem (List.nodup_reverse.mpr hBuilt.distinct) hName
  · rw [← mem_closed, h.progress, hAll.2]
    exact hName

/-- A `run` whose boot succeeded contains whatever its hooks do exactly if it found its
runtimes, the deadline is representable and no hook panicked. -/
theorem hooks_contained_iff (hBuild : b.build = .ok k)
    (reach : Reachable (KernelStep Thread k) (KernelConfig.built Thread k clock) c)
    (hReturns : c.threads t = .running .run (.done (.ran exit))) (hBooted : exit.booted = true) :
    HooksContained k exit c.world ↔ ¬ RuntimeMissing c.world ∧
      DeadlineRepresentable k.shutdownGrace (coordinatorWorld c.world).trace ∧
      NoHookPanicked (coordinatorWorld c.world).trace := by
  have hBuilt := build_wellFormed hBuild
  obtain ⟨pos, stage, hTyped, h⟩ := orchestrated_of_reachable hBuilt reach
  obtain ⟨place, hPlaced, ⟨seq, hHeld⟩, hSkipped⟩ := hooksHeld_of_reachable reach
  have hLeaves : RunLeaves exit (pos t) := hTyped.returned hReturns
  have hHooks : RunHooks exit (place t) := hPlaced.returned hReturns
  have hPerformer : ∀ report, ShutdownEnd (some report) (place t).sequence →
      ∃ r completedAt, seq = .reported r completedAt ∧ report = r.report completedAt := by
    rintro report (⟨startedAt, completedAt, hPos, -⟩ | ⟨r, completedAt, hPos, rfl⟩)
    · have hLate := hHeld.claims t
      rw [hPos] at hLate
      exact absurd (mem_coordinatorWorld.mp (lastClaim_mem hLate))
        (not_late_of_reachable hBuilt reach t)
    · exact ⟨r, completedAt,
        (hHeld.sole.at_place t _ (SequencePosition.stage?_eq_some.mpr hPos)).symm, rfl⟩
  constructor
  · rintro ⟨⟨report, result, rfl, -⟩, -, -⟩
    obtain ⟨r, completedAt, rfl, -⟩ := hPerformer report hHooks
    refine ⟨fun hMissing => ?_, hHeld.accounted.unhindered⟩
    rcases runtimeMissing_iff.mp hMissing with hFailed | hSkipped
    · obtain ⟨rfl, -⟩ := h.inside hLeaves
      cases h.recorded.runtimeFailed_iff.mp hFailed
    · have hUnclaimed := unclaimed_of_skipped hBuilt reach hSkipped
      cases hUnclaimed.symm.trans hHeld.accounted.flag
  · rintro ⟨hRuntime, hDeadline, hNoPanic⟩
    cases exit with
    | bootFailed error => cases hBooted
    | stoppingRefused e | stoppedRefused e => exact hLeaves.elim
    | execFailed error =>
        obtain ⟨rfl, -⟩ := h.inside hLeaves
        have hFailed := h.recorded.runtimeFailed_iff.mpr rfl
        exact absurd (runtimeMissing_iff.mpr (Or.inl hFailed)) hRuntime
    | unwound =>
        rcases (hHooks : ShutdownEnd none _) with ⟨start, hPos⟩ | ⟨r, hPos⟩
        · obtain rfl := hHeld.sole.at_place t _ (SequencePosition.stage?_eq_some.mpr hPos)
          exact (hHeld.accounted.not_overflowed hDeadline).elim
        · obtain rfl := hHeld.sole.at_place t _ (SequencePosition.stage?_eq_some.mpr hPos)
          exact (hHeld.accounted.not_panicked hNoPanic).elim
    | finished report result =>
        obtain ⟨rfl, -⟩ := h.inside hLeaves
        cases report with
        | none =>
            have hFailed := hSkipped t hHooks.2
            exact absurd (runtimeMissing_iff.mpr (Or.inr ⟨t, hFailed⟩)) hRuntime
        | some report =>
            obtain ⟨r, completedAt, rfl, rfl⟩ := hPerformer report hHooks
            exact ⟨⟨_, result, rfl, hHeld.accounted.performed.2⟩, h.recorded.state,
              fun s hMem => h.recorded.shutDown hBuilt hMem⟩

end System

section Runs

/-- The kernel is asked to shut down beforehand, then a hook `flush` is registered. -/
def flushHook (steps : Nat) : List (Move Unit KernelCall) :=
  [.call () .shutdown, .go (), .ret (), .call () (.registerShutdownHook ⟨"flush"⟩), .go (), .ret ()] ++
    runAlone steps

/-- The call has returned, with runtimes and without a panic, from a clock at zero. -/
def returnedUnhindered (c : KernelConfig Unit) : Bool :=
  returnedBooted c ∧ (∀ e ∈ c.world.trace, e.2.buildFailed = false) ∧
    (pick CoordinatorRecord.reading? (coordinatorWorld c.world).trace).head? = some 0 ∧
    pick CoordinatorRecord.panic? (coordinatorWorld c.world).trace = []

/-- A hook that fails is run, and the kernel stops nevertheless. -/
theorem hooks_contained_failing : ∃ k c exit,
    (KernelBuilder.new "service").build = .ok k ∧
    Reachable (KernelStep Unit k) (KernelConfig.built Unit k 0) c ∧
    pick CoordinatorRecord.ended? (coordinatorWorld c.world).trace =
      [(⟨"flush"⟩, .err ⟨"flush", "disk full"⟩)] ∧
    HooksContained k exit c.world := by
  let env : Environment := { Environment.calm with hook := fun _ => .err ⟨"flush", "disk full"⟩ }
  have hPlays : env.plays (KernelBuilder.new "service") (flushHook 125) (fun c =>
      pick CoordinatorRecord.ended? (coordinatorWorld c.world).trace =
        [(⟨"flush"⟩, .err ⟨"flush", "disk full"⟩)] ∧ returnedUnhindered c = true) = true := by
    decide +kernel
  obtain ⟨k, hBuild, c, reach, hAsk⟩ := Environment.reachable_of_plays hPlays
  obtain ⟨hEnded, hUnhindered⟩ := of_decide_eq_true hAsk
  obtain ⟨hReturned, hBuilds, hReading, hPanic⟩ := of_decide_eq_true hUnhindered
  obtain ⟨exit, r, hRun, hBooted, -⟩ := exit_of_returnedBooted hReturned
  refine ⟨k, c, exit, hBuild, reach, hEnded, (hooks_contained_iff hBuild reach hRun hBooted).mpr
    ⟨?_, fun start hStart => ?_, noHookPanicked_iff.mpr hPanic⟩⟩
  · rintro ⟨e, hMem, hFailed⟩
    cases (hBuilds e hMem).symm.trans hFailed
  · obtain rfl := Option.some.inj (hReading.symm.trans hStart)
    rw [(build_wellFormed hBuild).grace]
    decide +kernel

/-- A hook that panics unwinds out of `run`, and the kernel keeps running. -/
theorem panicking_hook_leaves_running : ¬ ∀ (b : KernelBuilder) (k : Kernel), b.build = .ok k →
    ∀ clock (c : KernelConfig Unit) t exit,
      Reachable (KernelStep Unit k) (KernelConfig.built Unit k clock) c →
      c.threads t = .running .run (.done (.ran exit)) → exit.booted = true →
      HooksContained k exit c.world := by
  intro hClaim
  let env : Environment := { Environment.calm with hook := fun _ => .panicked }
  have hPlays : env.plays (KernelBuilder.new "service") (flushHook 99) (fun c =>
      c.ranExit () = some .unwound ∧ c.world.shared.lifecycle.state = .running) = true := by
    decide +kernel
  obtain ⟨k, hBuild, c, reach, hAsk⟩ := Environment.reachable_of_plays hPlays
  obtain ⟨hExit, hState⟩ := of_decide_eq_true hAsk
  have hContained := hClaim _ k hBuild 0 c () .unwound reach (KernelConfig.ranExit_eq_some.mp hExit) rfl
  cases hState.symm.trans hContained.stopped

end Runs

end ServiceKernel
