import ServiceKernel.Kernel.Conduct

/-! The two ways of asking a kernel to shut down, the shutdown handle and the token.
The exec phase waits for the first; nothing turns the second into the first. -/
namespace ServiceKernel

open Interleaving Execution

variable {Thread : Type}

namespace KernelOp

/-- The operations of `run` before and at its exec wait. -/
def awaits : KernelOp → Bool
  | .hasWorkers => true
  | .signalRequested => true
  | .buildRuntime .multiThread => true
  | .takeWorkers => true
  | .supervise _ => true
  | .waitForSignal => true
  | _ => false

/-- The step signals the shutdown condition. -/
def signals : (o : KernelOp) → KernelSig.Ans o → Bool
  | .signal, _ => true
  | .supervise _, .critical => true
  | _, _ => false

def signalsToken : KernelOp → Bool
  | .coordinator .signalToken => true
  | _ => false

end KernelOp

section Frame

variable {t : Thread} {o : KernelOp} {a : KernelSig.Ans o} {s s' : KernelInner Thread}

/-- An operation that only reads does not signal. -/
theorem signals_of_still (hStill : o.still a = true) : o.signals a = false := by
  cases o with
  | supervise workers =>
      cases a with
      | critical => cases hStill
      | _ => rfl
  | signal => cases hStill
  | _ => rfl

theorem kernelExec_signalled (h : kernelExec t o a s = some s') :
    s'.signalled = (s.signalled || o.signals a) := by
  cases kernelExec_effect h with
  | signal | critical => simp [KernelOp.signals]
  | still hStill => rw [signals_of_still hStill, Bool.or_false]
  | _ => simp [KernelOp.signals, KernelInner.locks, KernelInner.unlocks]

theorem coordinatorExec_token {o : CoordinatorOp} {a : CoordinatorSig.Ans o}
    {c c' : Clocked CoordinatorInner} (h : (coordinatorMachine Thread).exec t o a c = some c') :
    c'.state.token = (c.state.token || (KernelOp.coordinator o).signalsToken) := by
  cases coordinatorExec_effect h with
  | still hStill =>
      cases o with
      | signalToken => cases hStill
      | _ => simp [KernelOp.signalsToken]
  | _ => simp [KernelOp.signalsToken]

theorem kernelExec_token (h : kernelExec t o a s = some s') :
    s'.coordinator.token = (s.coordinator.token || o.signalsToken) := by
  cases kernelExec_effect h with
  | coordinator hExec => exact coordinatorExec_token hExec
  | still hStill =>
      have hNone : o.signalsToken = false := by
        cases o with
        | coordinator o => cases hStill
        | _ => rfl
      rw [hNone, Bool.or_false]
  | _ => simp [KernelOp.signalsToken, KernelInner.locks, KernelInner.unlocks]

end Frame

section Paths

variable [DecidableEq Thread] {k : Kernel} {c c' : KernelConfig Thread}
  {label : Label KernelSig Thread KernelCall} {t : Thread}

/-- The token is signalled, and the thread is in the exec phase of `run` without the
signal it waits for. Whoever gives that signal later, a supervisor that lost a critical
worker included, does so by `ShutdownHandle::signal`: no step turns the token into it. -/
def Stranded (c : KernelConfig Thread) (t : Thread) : Prop :=
  ∃ o next, c.threads t = .running .run (.perform o next) ∧ o.awaits = true ∧
    c.world.shared.coordinator.token = true ∧ c.world.shared.signalled = false

/-- A step that leaves a run waiting for the handle after the token was signalled:
the token is signalled during the wait, or the wait comes after it. -/
inductive Strands (c : KernelConfig Thread) : Label KernelSig Thread KernelCall → Prop where
  | token {t u : Thread} {o : KernelOp} {next} {a}
      (hWaits : c.threads u = .running .run (.perform o next)) (hAwaits : o.awaits = true)
      (hOther : u ≠ t) (hSignal : c.world.shared.signalled = false) :
      Strands c (.op t (.coordinator .signalToken) a)
  | wait {t : Thread} {o o' : KernelOp} {next next'} {a : KernelSig.Ans o}
      (hRuns : c.threads t = .running .run (.perform o next)) (hNext : next a = .perform o' next')
      (hAwaits : o'.awaits = true)
      (hToken : c.world.shared.coordinator.token = true ∨ o = .coordinator .signalToken)
      (hSignal : c.world.shared.signalled = false) (hQuiet : o.signals a = false) :
      Strands c (.op t o a)

theorem stranded_of_strands (hStep : KernelStep Thread k c label c') (h : Strands c label) :
    ∃ t, Stranded c' t := by
  cases h with
  | @token t u o next a hWaits hAwaits hOther hSignal =>
      cases hStep with
      | op hRun hExec =>
          have hSignal' := kernelExec_signalled (t := t) (o := .coordinator .signalToken) (a := a) hExec
          have hToken' := kernelExec_token (t := t) (o := .coordinator .signalToken) (a := a) hExec
          refine ⟨u, o, next, ?_, hAwaits, ?_, ?_⟩
          · simpa [hOther] using hWaits
          · simpa [KernelOp.signalsToken] using hToken'
          · simpa [KernelOp.signals, hSignal] using hSignal'
  | @wait t o o' next next' a hRuns hNext hAwaits hToken hSignal hQuiet =>
      cases hStep with
      | op hRun hExec =>
          obtain ⟨rfl, hSame⟩ := Status.running.inj (hRuns.symm.trans hRun)
          obtain ⟨-, hSame⟩ := Program.perform.inj hSame
          obtain rfl := eq_of_heq hSame
          have hSignal' := kernelExec_signalled hExec
          have hToken' := kernelExec_token hExec
          refine ⟨t, o', next', ?_, hAwaits, ?_, ?_⟩
          · simp [hNext]
          · rcases hToken with hOld | rfl
            · simpa [hOld] using hToken'
            · simpa [KernelOp.signalsToken] using hToken'
          · simpa [hSignal, hQuiet] using hSignal'

theorem strands_of_stranded (hGood : ∀ t, ¬ Stranded c t) (hStep : KernelStep Thread k c label c')
    (h : Stranded c' t) : Strands c label := by
  obtain ⟨o', next', hRun', hAwaits, hToken, hSignal⟩ := h
  cases hStep with
  | @call u call hIdle =>
      rcases eq_or_ne t u with rfl | hne
      · simp only [Function.update_self, Status.running.injEq] at hRun'
        obtain ⟨rfl, hBody⟩ := hRun'
        obtain ⟨rfl, -⟩ := Program.perform.inj hBody
        cases hAwaits
      · have hWaits : c.threads t = .running .run (.perform o' next') := by
          simpa [hne] using hRun'
        exact absurd ⟨o', next', hWaits, hAwaits, hToken, hSignal⟩ (hGood t)
  | @ret u call r hRet =>
      rcases eq_or_ne t u with rfl | hne
      · simp at hRun'
      · have hWaits : c.threads t = .running .run (.perform o' next') := by
          simpa [hne] using hRun'
        exact absurd ⟨o', next', hWaits, hAwaits, hToken, hSignal⟩ (hGood t)
  | @op u call o next a shared hRun hExec =>
      have hSignal' : c.world.shared.signalled = false ∧ o.signals a = false := by
        rw [Machine.after_shared, kernelExec_signalled hExec] at hSignal
        simpa using hSignal
      have hToken' : c.world.shared.coordinator.token = true ∨ o.signalsToken = true := by
        rw [Machine.after_shared, kernelExec_token hExec] at hToken
        simpa using hToken
      have hOp : o.signalsToken = true → o = .coordinator .signalToken := by
        intro hToken
        unfold KernelOp.signalsToken at hToken
        split at hToken
        · rfl
        · cases hToken
      rcases eq_or_ne t u with rfl | hne
      · simp only [Function.update_self, Status.running.injEq] at hRun'
        obtain ⟨rfl, hNext⟩ := hRun'
        exact .wait hRun hNext hAwaits (hToken'.imp_right hOp) hSignal'.1 hSignal'.2
      · have hWaits : c.threads t = .running .run (.perform o' next') := by
          simpa [hne] using hRun'
        rcases hToken' with hOld | hNew
        · exact absurd ⟨o', next', hWaits, hAwaits, hOld, hSignal'.1⟩ (hGood t)
        · obtain rfl := hOp hNew
          exact .token hWaits hAwaits hne hSignal'.1

/-- The runs in which a signalled token always releases the exec wait are exactly those
without a step that strands a run. -/
theorem token_releases_iff (k : Kernel) (clock : Instant)
    (labels : List (Label KernelSig Thread KernelCall)) (finish : KernelConfig Thread) :
    Runs (Within (KernelStep Thread k) fun c => ∀ t, ¬ Stranded c t)
        (KernelConfig.built Thread k clock) labels finish ↔
      Runs (Restrict (KernelStep Thread k) fun c label => ¬ Strands c label)
        (KernelConfig.built Thread k clock) labels finish := by
  refine runs_within_iff_restrict (fun c => ∀ t, ¬ Stranded c t) (fun _ => True) ?_ trivial
    (fun _ _ _ _ _ => trivial) fun c label c' _ hGood hStep => ?_
  · rintro t ⟨o, next, hRun, -⟩
    cases hRun
  · constructor
    · intro hAfter hStrands
      obtain ⟨t, hBad⟩ := stranded_of_strands hStep hStrands
      exact hAfter t hBad
    · intro hFine t hBad
      exact hFine (strands_of_stranded hGood hStep hBad)

end Paths

/-- The thread is in `run` and its next step is to wait for the signal. -/
def KernelConfig.waitsInRun (c : KernelConfig Thread) (t : Thread) : Bool :=
  match c.threads t with
  | .running .run (.perform .waitForSignal _) => true
  | _ => false

theorem KernelConfig.waitsInRun_iff {c : KernelConfig Thread} {t : Thread} :
    c.waitsInRun t = true ↔ ∃ next, c.threads t = .running .run (.perform .waitForSignal next) := by
  unfold waitsInRun
  split
  · rename_i next hThread
    simp [hThread]
  · rename_i hOther
    simpa using hOther

/-- Thread `true` runs a kernel without workers; `false` signals the token. -/
theorem token_leaves_run_waiting :
    ¬ ∀ (b : KernelBuilder) (k : Kernel), b.build = .ok k → ∀ clock (c : KernelConfig Bool),
      Reachable (KernelStep Bool k) (KernelConfig.built Bool k clock) c → ∀ t, ¬ Stranded c t := by
  intro hClaim
  have hPlays : Environment.calm.plays (KernelBuilder.new "service")
      (.call true .run :: List.replicate 88 (.go true) ++ [.call false .signalToken, .go false, .ret false])
      (fun c => c.world.shared.coordinator.token = true ∧ c.world.shared.signalled = false ∧
        c.waitsInRun true = true) = true := by
    decide +kernel
  obtain ⟨k, hBuild, c, reach, hAsk⟩ := Environment.reachable_of_plays hPlays
  obtain ⟨hToken, hSignal, hWaits⟩ := of_decide_eq_true hAsk
  obtain ⟨next, hRun⟩ := KernelConfig.waitsInRun_iff.mp hWaits
  exact hClaim _ k hBuild 0 c reach true ⟨_, next, hRun, rfl, hToken, hSignal⟩

end ServiceKernel
