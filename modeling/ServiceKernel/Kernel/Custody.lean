import ServiceKernel.Kernel.Conduct
import ServiceKernel.Kernel.StageSteps
import ServiceKernel.Semantics.Custody

/-! The subsystem list in the hands of the orchestration. The boot and load loops hold
its mutex from their first callback to their last record, so whoever else holds it
finds the orchestration between two loops. -/
namespace ServiceKernel

open Interleaving Execution

/-- In the middle of the boot or load loop. -/
def Stage.midway (k : Kernel) : Stage → Bool
  | forward _ done => 0 < done ∧ done < k.subsystems.length
  | calling _ _ => true
  | recording _ _ => true
  | _ => false

def Position.atRest (k : Kernel) : Position → Bool
  | outside => true
  | inside stage => !stage.midway k

/-- The mutex of the subsystem list as a token. -/
abbrev subsystemCustody (k : Kernel) : Custody (orchestration k) where
  takes
    | .lock .subsystems => true
    | _ => false
  gives
    | .unlock .subsystems => true
    | _ => false
  needs
    | .unlock .subsystems => true
    | .startCallback .. => true
    | .finishCallback .. => true
    | .insertBooted _ => true
    | .insertLoaded _ => true
    | .readBook => true
    | .healthOf _ => true
    | _ => false
  settled
    | .unlock .subsystems => true
    | .readBook => true
    | _ => false
  atRest := Position.atRest k

abbrev KernelOp.Idle (k : Kernel) (held : Bool) : KernelOp → Prop := (subsystemCustody k).Idle held

section Idle

variable {k : Kernel} {held : Bool} {α : Type}

theorem KernelOp.idle {o : KernelOp} (hTakes : (subsystemCustody k).takes o = false)
    (hGives : (subsystemCustody k).gives o = false) (hNeeds : (subsystemCustody k).needs o = false)
    (hSettled : (subsystemCustody k).settled o = false) : o.Idle k held := by
  refine ⟨hTakes, hGives, fun hNeed => ?_, hSettled⟩
  rw [hNeeds] at hNeed
  cases hNeed

theorem idle_onLifecycle (p : Program LifecycleSig α) : (onLifecycle p).All (KernelOp.Idle k held) :=
  Program.all_lift p fun _ => KernelOp.idle rfl rfl rfl rfl

theorem idle_onHealth (p : Program HealthSig α) : (onHealth p).All (KernelOp.Idle k held) :=
  Program.all_lift p fun _ => KernelOp.idle rfl rfl rfl rfl

theorem idle_onCoordinator (p : Program CoordinatorSig α) :
    (onCoordinator p).All (KernelOp.Idle k held) :=
  Program.all_lift p fun _ => KernelOp.idle rfl rfl rfl rfl

theorem idle_callSubsystem (c : Callback) (s : Subsystem) :
    (callSubsystem c s).All (KernelOp.Idle k true) :=
  ⟨⟨rfl, rfl, fun _ => rfl, rfl⟩, fun _ => ⟨⟨rfl, rfl, fun _ => rfl, rfl⟩, fun _ => trivial⟩⟩

theorem idle_recordBooted (name : String) : (recordBooted name).All (KernelOp.Idle k true) :=
  ⟨⟨rfl, rfl, fun _ => rfl, rfl⟩, fun _ => ⟨⟨rfl, rfl, fun _ => rfl, rfl⟩, fun _ =>
    ⟨⟨rfl, rfl, fun _ => rfl, rfl⟩, fun _ => trivial⟩⟩⟩

theorem idle_recordLoaded (name : String) : (recordLoaded name).All (KernelOp.Idle k true) :=
  ⟨⟨rfl, rfl, fun _ => rfl, rfl⟩, fun _ => ⟨⟨rfl, rfl, fun _ => rfl, rfl⟩, fun _ =>
    ⟨⟨rfl, rfl, fun _ => rfl, rfl⟩, fun _ => trivial⟩⟩⟩

theorem idle_forwardPhase {c : Callback} {record : String → Program KernelSig Unit}
    (hRecord : ∀ name, (record name).All (KernelOp.Idle k true)) (subsystems : List Subsystem) :
    (forwardPhase c record subsystems).All (KernelOp.Idle k true) := by
  induction subsystems with
  | nil => trivial
  | cons s rest ih =>
      apply (idle_callSubsystem c s).bind
      intro outcome
      cases outcome.error s.name with
      | some error => trivial
      | none => exact (hRecord s.name).bind fun _ => ih

theorem idle_shutdownEach (subsystems : List Subsystem) (firstErr : Option KernelError) :
    (shutdownEach subsystems firstErr).All (KernelOp.Idle k true) := by
  induction subsystems generalizing firstErr with
  | nil => trivial
  | cons s rest ih => exact (idle_callSubsystem .shutdown s).bind fun _ => ih _

theorem idle_runSupervisor : (runSupervisor k).All (KernelOp.Idle k false) := by
  refine ⟨KernelOp.idle rfl rfl rfl rfl, fun _ => ⟨KernelOp.idle rfl rfl rfl rfl, fun _ =>
    ⟨KernelOp.idle rfl rfl rfl rfl, fun _ => (idle_onCoordinator _).bind fun report => ?_⟩⟩⟩
  cases report with
  | none => exact ⟨KernelOp.idle rfl rfl rfl rfl, fun _ => trivial⟩
  | some report =>
      exact ⟨KernelOp.idle rfl rfl rfl rfl, fun _ => ⟨KernelOp.idle rfl rfl rfl rfl, fun _ => trivial⟩⟩

theorem idle_runExecPhase : (runExecPhase k).All (KernelOp.Idle k false) := by
  refine ⟨KernelOp.idle rfl rfl rfl rfl, fun hasWorkers => ⟨KernelOp.idle rfl rfl rfl rfl,
    fun signalRequested => ?_⟩⟩
  simp only [Program.bind]
  split
  · refine ⟨KernelOp.idle rfl rfl rfl rfl, fun _ => ⟨KernelOp.idle rfl rfl rfl rfl, fun built => ?_⟩⟩
    cases built with
    | error e => trivial
    | ok u => exact (idle_onCoordinator _).bind fun report => by cases report <;> trivial
  · refine ⟨KernelOp.idle rfl rfl rfl rfl, fun built => ?_⟩
    cases built with
    | error e => trivial
    | ok u => exact idle_runSupervisor

end Idle

section Follows

variable {k : Kernel} {α β : Type} {p : Position}

/-- What is said of the thread's position, and that it does not hold the list. -/
abbrev Apart (exit : α → Position → Prop) (a : α) (q : Position × Bool) : Prop :=
  exit a q.1 ∧ q.2 = false

theorem custody_idle {exit : α → Position → Prop} {program : Program KernelSig α}
    (hAll : program.All (KernelOp.Idle k false)) (h : (orchestration k).Follows exit program p) :
    (subsystemCustody k).protocol.Follows (Apart exit) program (p, false) :=
  Custody.follows_idle hAll h

/-- One operation that is allowed here, whose every answer leads to the same position. -/
theorem custody_op {final : α → Position × Bool → Prop} {o : KernelOp} {held : Bool} {q : Position}
    {next : KernelSig.Ans o → Program KernelSig α}
    (hAllows : (subsystemCustody k).allows p held o = true)
    (hNext : ∀ a, p.next k o a = some q)
    (h : ∀ a, (subsystemCustody k).protocol.Follows final (next a)
      (q, (subsystemCustody k).after held o)) :
    (subsystemCustody k).protocol.Follows final (.perform o next) (p, held) :=
  have := kernelAns_nonempty o
  Custody.follows_allowed hAllows hNext h

/-- A loop between its lock and its unlock, which it comes to at rest. -/
theorem custody_loop {loop : Program KernelSig α} {tail : α → Program KernelSig β}
    {exit : α → Position → Prop} {final : β → Position × Bool → Prop}
    (hAll : loop.All (KernelOp.Idle k true)) (hLoop : (orchestration k).Follows exit loop p)
    (hRest : ∀ a q, exit a q → q.atRest k = true)
    (hTail : ∀ a q, exit a q → (subsystemCustody k).protocol.Follows final (tail a) (q, false)) :
    (subsystemCustody k).protocol.Follows final (do
      (KernelOp.lock .subsystems).call
      let a ← loop
      (KernelOp.unlock .subsystems).call
      tail a) (p, false) := by
  apply custody_op (q := p) rfl fun _ => rfl
  intro _
  apply (Custody.follows_idle hAll hLoop).bind
  rintro a ⟨q, held⟩ ⟨hExit, rfl⟩
  refine custody_op (q := q) ?_ (fun _ => rfl) fun _ => hTail a q hExit
  simp [Custody.allows, hRest a q hExit]

theorem ForwardEnd.atRest {c : Callback} {r : Except KernelError Unit} {q : Position}
    (h : ForwardEnd k c r q) : q.atRest k = true := by
  cases r with
  | ok u =>
      obtain rfl : q = .inside (.forward c k.subsystems.length) := h
      simp [Position.atRest, Stage.midway]
  | error e =>
      obtain ⟨done, -, rfl⟩ := h
      rfl

theorem custody_runBootPhase : (subsystemCustody k).protocol.Follows (Apart (ForwardEnd k .boot))
    (runBootPhase k) (.inside (.forward .boot 0), false) :=
  custody_loop (idle_forwardPhase idle_recordBooted _)
    (follows_forwardPhase (by decide) (fun _ _ => follows_recordBooted) rfl (Nat.zero_le _))
    (fun _ _ => ForwardEnd.atRest) fun _ _ hEnd => ⟨hEnd, rfl⟩

theorem custody_runLoadPhase : (subsystemCustody k).protocol.Follows (Apart (ForwardEnd k .load))
    (runLoadPhase k) (.inside (.forward .load 0), false) :=
  custody_loop (idle_forwardPhase idle_recordLoaded _)
    (follows_forwardPhase (by decide) (fun _ _ => follows_recordLoaded) rfl (Nat.zero_le _))
    (fun _ _ => ForwardEnd.atRest) fun _ _ hEnd => ⟨hEnd, rfl⟩

theorem custody_runShutdownPhase : (subsystemCustody k).protocol.Follows
    (Apart fun _ q => q = .inside (.closing false k.subsystems.length 0)) (runShutdownPhase k)
    (.inside (.closing false k.subsystems.length k.subsystems.length), false) := by
  have hLoop := @follows_shutdownEach k false k.subsystems.length k.subsystems.length none
    (Nat.le_refl _)
  rw [List.take_length] at hLoop
  apply custody_loop (idle_shutdownEach _ none) hLoop
  · rintro firstErr q rfl
    rfl
  · rintro firstErr q rfl
    cases firstErr <;> exact ⟨rfl, rfl⟩

theorem custody_runShutdownPhaseToLoaded (hNames : (k.subsystems.map Subsystem.name).Nodup)
    {done : Nat} (hDone : done ≤ k.subsystems.length) : (subsystemCustody k).protocol.Follows
      (Apart fun _ q => q = .inside (.closing true done 0)) (runShutdownPhaseToLoaded k)
      (.inside (.broken .load done), false) := by
  apply custody_op (q := .inside (.broken .load done)) rfl fun _ => rfl
  intro _
  refine ⟨?_, fun (keys : List String) => ?_⟩
  · refine Custody.permits_iff.mpr ⟨rfl, (k.subsystems.map Subsystem.name).take done, ?_⟩
    simp [Position.next, Position.within, Stage.reads]
  rintro ⟨p', held⟩ hStep
  obtain ⟨-, hReads, rfl⟩ := Custody.next_eq_some.mp hStep
  simp only [Position.next, Position.within, Stage.reads, Option.map_eq_some_iff,
    Option.ite_none_right_eq_some] at hReads
  obtain ⟨stage, ⟨hKeys, hStage⟩, rfl⟩ := hReads
  obtain rfl := Option.some.inj hStage
  apply custody_op (q := .inside (.closing true done done)) rfl fun _ => rfl
  intro _
  have hLoop := @follows_shutdownEach k true done done none hDone
  rw [← filter_loaded hNames hKeys] at hLoop
  refine @custody_loop k _ _ _ _ (fun _ => .done ()) _ _ (idle_shutdownEach _ none) hLoop ?_ ?_
  · rintro firstErr q rfl
    rfl
  · rintro firstErr q rfl
    exact ⟨rfl, rfl⟩

theorem custody_transition {stage stage' : Stage} {toState : KernelState}
    (hMove : stage.moves k toState = some stage') :
    (subsystemCustody k).protocol.Follows (Apart fun r q => r = .ok () ∧ q = .inside stage')
      (onLifecycle (transition toState)) (.inside stage, false) :=
  custody_idle (idle_onLifecycle _) (follows_transition hMove)

theorem custody_boot (hNames : (k.subsystems.map Subsystem.name).Nodup) :
    (subsystemCustody k).protocol.Follows (Apart BootEnd) (boot k) (.outside, false) := by
  apply (custody_idle (idle_onLifecycle _) follows_transition_booting).bind
  rintro r ⟨q, held⟩ ⟨hMove, rfl⟩
  cases r with
  | error e => exact ⟨Or.inl hMove, rfl⟩
  | ok u =>
      obtain rfl : q = .inside (.forward .boot 0) := hMove
      apply custody_runBootPhase.bind
      rintro r ⟨q, held⟩ ⟨hEnd, rfl⟩
      cases r with
      | error e =>
          obtain ⟨done, -, rfl⟩ := hEnd
          have hFail : (Stage.broken .boot done).moves k .failed = some (.failed .boot done) := rfl
          exact (custody_transition hFail).bind fun _ q hQ => ⟨Or.inr ⟨_, _, hQ.1.2⟩, hQ.2⟩
      | ok u =>
          obtain rfl : q = .inside (.forward .boot k.subsystems.length) := hEnd
          have hLoad : (Stage.forward .boot k.subsystems.length).moves k .loading =
              some (.forward .load 0) := by simp [Stage.moves]
          apply (custody_transition hLoad).bind
          rintro r ⟨q, held⟩ ⟨⟨rfl, rfl⟩, rfl⟩
          apply custody_runLoadPhase.bind
          rintro r ⟨q, held⟩ ⟨hEnd, rfl⟩
          cases r with
          | error e =>
              obtain ⟨done, hLt, rfl⟩ := hEnd
              apply (custody_runShutdownPhaseToLoaded hNames (Nat.le_of_lt hLt)).bind
              rintro _ ⟨q, held⟩ ⟨rfl, rfl⟩
              have hFail : (Stage.closing true done 0).moves k .failed =
                  some (.failed .load done) := rfl
              exact (custody_transition hFail).bind fun _ q hQ => ⟨Or.inr ⟨_, _, hQ.1.2⟩, hQ.2⟩
          | ok u =>
              obtain rfl : q = .inside (.forward .load k.subsystems.length) := hEnd
              have hRun : (Stage.forward .load k.subsystems.length).moves k .running =
                  some (.exec .entered) := by simp [Stage.moves]
              apply (custody_transition hRun).bind
              rintro r ⟨q, held⟩ ⟨⟨rfl, rfl⟩, rfl⟩
              exact ⟨rfl, rfl⟩

theorem custody_run (hNames : (k.subsystems.map Subsystem.name).Nodup) :
    (subsystemCustody k).protocol.Follows (Apart RunLeaves) (run k) (.outside, false) := by
  apply (custody_boot hNames).bind
  rintro r ⟨q, held⟩ ⟨hEnd, rfl⟩
  cases r with
  | error e => exact ⟨hEnd, rfl⟩
  | ok u =>
      obtain rfl : q = .inside (.exec .entered) := hEnd
      apply (custody_idle idle_runExecPhase follows_runExecPhase).bind
      rintro r ⟨q, held⟩ ⟨hEnd, rfl⟩
      cases r with
      | failed e => exact ⟨hEnd, rfl⟩
      | unwound => exact ⟨hEnd, rfl⟩
      | released report =>
          obtain rfl : q = .inside (.exec .released) := hEnd
          have hStop : (Stage.exec .released).moves k .stopping =
              some (.closing false k.subsystems.length k.subsystems.length) := rfl
          apply (custody_transition hStop).bind
          rintro r ⟨q, held⟩ ⟨⟨rfl, rfl⟩, rfl⟩
          apply custody_runShutdownPhase.bind
          rintro result ⟨q, held⟩ ⟨rfl, rfl⟩
          have hStopped : (Stage.closing false k.subsystems.length 0).moves k .stopped =
              some .stopped := rfl
          apply (custody_transition hStopped).bind
          rintro r ⟨q, held⟩ ⟨⟨rfl, rfl⟩, rfl⟩
          exact ⟨rfl, rfl⟩

/-- A snapshot reads the bookkeeping while it holds the list. -/
theorem custody_snapshot : (subsystemCustody k).protocol.Follows (Apart fun _ q => q = .outside)
    (snapshot k) (.outside, false) := by
  have hCollect : ∀ book, ∀ subsystems : List Subsystem, (subsystemCustody k).protocol.Follows
      (fun _ q => q = (.outside, true)) (collectSnapshots book subsystems) (.outside, true) := by
    intro book subsystems
    induction subsystems with
    | nil => exact rfl
    | cons s rest ih =>
        refine custody_op (q := .outside) rfl (fun _ => rfl) fun health => ?_
        cases health with
        | none => exact rfl
        | some health => exact ih.seq fun snapshots => by cases snapshots <;> exact rfl
  refine custody_op (q := .outside) rfl (fun _ => rfl) fun lifecycle => ?_
  refine custody_op (q := .outside) rfl (fun _ => rfl) fun health => ?_
  have hSubsystems : (subsystemCustody k).protocol.Follows (fun _ q => q = (.outside, false))
      (subsystemSnapshots k) (.outside, false) := by
    refine custody_op (q := .outside) rfl (fun _ => rfl) fun _ => ?_
    refine custody_op (q := .outside) rfl (fun _ => rfl) fun _ => ?_
    refine custody_op (q := .outside) rfl (fun _ => rfl) fun book => ?_
    apply (hCollect book _).seq
    intro snapshots
    refine custody_op (q := .outside) rfl (fun _ => rfl) fun _ => ?_
    exact custody_op (q := .outside) rfl (fun _ => rfl) fun _ => rfl
  apply hSubsystems.seq
  intro snapshots
  cases snapshots with
  | none => exact ⟨rfl, rfl⟩
  | some snapshots => exact custody_op (q := .outside) rfl (fun _ => rfl) fun _ => ⟨rfl, rfl⟩

theorem custody_kernelBody (hNames : (k.subsystems.map Subsystem.name).Nodup) (c : KernelCall) :
    (subsystemCustody k).protocol.Follows (Apart (CallLeaves c)) (kernelBody k c)
      (.outside, false) := by
  have hHandle : (kernelBody k c).All (KernelOp.Idle k false) →
      (subsystemCustody k).protocol.Follows (Apart (CallLeaves c)) (kernelBody k c)
        (.outside, false) := fun hAll => custody_idle hAll (follows_kernelBody hNames c)
  cases c with
  | boot => exact (custody_boot hNames).bind fun _ _ hEnd => hEnd
  | run => exact (custody_run hNames).bind fun _ _ hEnd => hEnd
  | snapshot => exact custody_snapshot.bind fun _ _ hEnd => hEnd
  | debug =>
      have hDebug : (subsystemCustody k).protocol.Follows (Apart fun _ q => q = .outside)
          (debugFmt k) (.outside, false) :=
        custody_snapshot.bind fun snap _ hEnd => by cases snap <;> exact hEnd
      exact hDebug.bind fun _ _ hEnd => hEnd
  | registerShutdownHook | signalToken => exact hHandle ((idle_onCoordinator _).bind fun _ => trivial)
  | lifecycle => exact hHandle ((idle_onLifecycle _).bind fun _ => trivial)
  | health call => exact hHandle ((idle_onHealth _).bind fun _ => trivial)
  | waitTimeout timeout =>
      refine hHandle ⟨KernelOp.idle rfl rfl rfl rfl, fun (now : Instant) => ?_⟩
      simp only [Program.bind]
      cases now.checkedAdd timeout with
      | none => trivial
      | some deadline => exact ⟨KernelOp.idle rfl rfl rfl rfl, fun _ => trivial⟩
  | shutdown | installSignalHandler | isSignalled | wait =>
      exact hHandle ⟨KernelOp.idle rfl rfl rfl rfl, fun _ => trivial⟩

end Follows

section Covered

variable {k : Kernel} {p p' : Position} {o : KernelOp} {a : KernelSig.Ans o}

theorem Stage.Moves.atRest {stage stage' : Stage} {toState : KernelState}
    (h : Stage.Moves k stage toState stage') : stage'.midway k = false := by
  cases h <;> simp [Stage.midway]

/-- Only an operation of a loop leads into the middle of one. -/
theorem Position.next_midway (h : p.next k o a = some p') (hRest : p.atRest k = true)
    (hAway : p'.atRest k = false) :
    (subsystemCustody k).needs o = true ∧ (subsystemCustody k).gives o = false := by
  have hMidway : ∀ {stage : Stage}, (Position.inside stage).atRest k = false → stage.midway k = true := by
    intro stage hStage
    simpa [Position.atRest] using hStage
  cases p with
  | outside =>
      cases p' with
      | outside => cases hAway
      | inside stage' =>
          cases o with
          | lifecycle o => cases o with
            | checkAndSet toState => cases a with
              | error e => simp [Position.next, Position.lifecycle] at h
              | ok move =>
                  simp only [Position.next, Position.lifecycle, Option.ite_none_right_eq_some,
                    Option.some.injEq, Position.inside.injEq] at h
                  obtain ⟨-, rfl⟩ := h
                  simp [Position.atRest, Stage.midway] at hAway
            | emit | gauge | counter | snapshot => cases h
          | coordinator o => cases o <;> cases h
          | _ => cases h
  | inside stage =>
      cases p' with
      | outside => cases hAway
      | inside stage' =>
          cases Stage.onward_of_next h with
          | moves hMove =>
              rw [Position.atRest, hMove.atRest] at hAway
              cases hAway
          | starts | finishes | booted | loaded => exact ⟨rfl, rfl⟩
          | reads | exec => cases hAway
          | stays =>
              rw [hRest] at hAway
              cases hAway

/-- A thread in the middle of a loop holds the subsystem list. -/
theorem covered_next (p : Position × Bool) (p' : Position × Bool)
    (hCovered : (subsystemCustody k).Covered p)
    (h : (subsystemCustody k).protocol.next p o a = some p') : (subsystemCustody k).Covered p' := by
  refine Custody.Covered.next (fun _ _ _ _ => Position.next_midway) ?_ ?_ hCovered h
  · intro o hGives
    cases o with
    | unlock m => cases m <;> first | rfl | cases hGives
    | _ => cases hGives
  · intro p o a p' hNext hGives
    cases o with
    | unlock m => exact (Option.some.inj hNext).symm
    | _ => cases hGives

end Covered

section System

variable {Thread : Type} [DecidableEq Thread] {k : Kernel} {b : KernelBuilder} {stage : Stage}
  {pos : Thread → Position × Bool} {w : KernelWorld Thread} {t : Thread}

/-- In the middle of a loop somebody is in charge. -/
def Attended (k : Kernel) (stage : Stage) (pos : Thread → Position) : Prop :=
  stage.midway k = true → ∃ t, pos t = .inside stage

/-- The orchestration goes its way, and positions tell who holds the subsystem list. -/
structure InCustody (k : Kernel) (stage : Stage) (pos : Thread → Position × Bool)
    (w : KernelWorld Thread) : Prop where
  orchestrated : Orchestrated k stage (fun t => (pos t).1) w
  attended : Attended k stage fun t => (pos t).1
  owns : Owns (w.shared.holder .subsystems) fun t => (pos t).2

/-- Locking and unlocking the list hands it over, and nothing else does. -/
theorem owns_step {held : Thread → Bool} {o : KernelOp} {a : KernelSig.Ans o}
    {shared : KernelInner Thread} {p : Position} (h : Owns (w.shared.holder .subsystems) held)
    (hAllows : (subsystemCustody k).allows p (held t) o = true)
    (hExec : kernelExec t o a w.shared = some shared) :
    Owns (shared.holder .subsystems)
      (Function.update held t ((subsystemCustody k).after (held t) o)) := by
  cases kernelExec_effect hExec with
  | @lock m hFree =>
      cases m with
      | bookkeeping => exact h.same rfl
      | subsystems =>
          rw [hFree] at h
          simpa [KernelInner.locks, Custody.after] using h.taken (t := t)
  | @unlock m =>
      cases m with
      | bookkeeping => exact h.same rfl
      | subsystems =>
          have hHeld : held t = true := by
            simp only [Custody.allows, Bool.and_eq_true] at hAllows
            exact hAllows.1.2
          simpa [KernelInner.unlocks, Custody.after] using h.given hHeld
  | still hStill =>
      apply h.same
      cases o <;> first | rfl | cases hStill
  | _ => exact h.same rfl

theorem Attended.outside (h : Attended k stage fun t => (pos t).1) (hPos : (pos t).1 = .outside)
    (held : Bool) : Attended k stage fun u => (Function.update pos t (.outside, held) u).1 := by
  intro hMidway
  obtain ⟨u, hIn⟩ := h hMidway
  refine ⟨u, ?_⟩
  rcases eq_or_ne u t with rfl | hne
  · cases hPos.symm.trans hIn
  · simpa [hne] using hIn

theorem InCustody.step (h : InCustody k stage pos w) (hBuilt : k.WellFormed b) {o : KernelOp}
    {a : KernelSig.Ans o} {shared : KernelInner Thread}
    (hPermits : (subsystemCustody k).protocol.Permits (pos t) o)
    (hExec : kernelExec t o a w.shared = some shared) :
    ∃ p stage', (subsystemCustody k).protocol.next (pos t) o a = some p ∧
      StageMove k o a (pos t).1 stage stage' ∧
      InCustody k stage' (Function.update pos t p) ((kernelMachine Thread).after w t o a shared) := by
  obtain ⟨hAllows, hOrchestration⟩ := Custody.permits_iff.mp hPermits
  obtain ⟨p, stage', hNext, hMove, hAfter⟩ := h.orchestrated.step hBuilt hOrchestration hExec
  refine ⟨(p, (subsystemCustody k).after (pos t).2 o), stage',
    Custody.next_eq_some.mpr ⟨hAllows, hNext, rfl⟩, hMove, ?_, ?_, ?_⟩
  · rw [update_fst]
    exact hAfter
  · generalize hPos : (pos t).1 = place at hMove hNext
    cases hMove with
    | aside hOutside =>
        obtain rfl := Option.some.inj (hNext.symm.trans hOutside)
        exact h.attended.outside hPos _
    | begins hInside =>
        intro hMidway
        simp [Stage.midway] at hMidway
    | inside hInside =>
        obtain rfl := Option.some.inj (hNext.symm.trans hInside)
        exact fun _ => ⟨t, by simp⟩
  · rw [update_snd]
    exact owns_step h.owns hAllows hExec

/-- Whoever leaves a call is not in the middle of a loop. -/
theorem CallLeaves.atRest {c : KernelCall} {r : KernelReturn} {p : Position}
    (h : CallLeaves c r p) : p.atRest k = true := by
  have hBoot : ∀ {result q}, BootEnd result q → q.atRest k = true := by
    intro result q hEnd
    cases result with
    | ok u =>
        obtain rfl : q = .inside (.exec .entered) := hEnd
        rfl
    | error e => rcases hEnd with rfl | ⟨c, done, rfl⟩ <;> rfl
  have hRun : ∀ {exit q}, RunLeaves exit q → q.atRest k = true := by
    intro exit q hEnd
    cases exit with
    | bootFailed e => rcases hEnd with rfl | ⟨c, done, rfl⟩ <;> rfl
    | execFailed e =>
        obtain rfl : q = .inside (.exec .noRuntime) := hEnd
        rfl
    | stoppingRefused e | stoppedRefused e => exact hEnd.elim
    | finished report result =>
        obtain rfl : q = .inside .stopped := hEnd
        rfl
    | unwound => rcases hEnd with rfl | rfl <;> rfl
  cases c with
  | boot => cases r <;> first | exact hBoot h | exact h.elim
  | run => cases r <;> first | exact hRun h | exact h.elim
  | _ =>
      obtain rfl : p = .outside := h
      rfl

theorem InCustody.leave (h : InCustody k stage pos w) {c : KernelCall} {r : KernelReturn}
    (hLeaves : Apart (CallLeaves c) r (pos t)) :
    InCustody k stage (Function.update pos t (.outside, false)) w := by
  refine ⟨?_, ?_, ?_⟩
  · rw [update_fst]
    exact h.orchestrated.update_outside t
  · intro hMidway
    obtain ⟨u, hIn⟩ := h.attended hMidway
    refine ⟨u, ?_⟩
    rcases eq_or_ne u t with rfl | hne
    · have hHere : (pos u).1 = .inside stage := hIn
      have hRest := hLeaves.1.atRest (k := k)
      rw [hHere, Position.atRest, hMidway] at hRest
      cases hRest
    · simpa [hne] using hIn
  · rw [update_snd]
    exact h.owns.same hLeaves.2.symm

/-- A fact about the stage and the world that every move of the stage keeps. -/
def CustodyKeeps (k : Kernel) (fact : Stage → KernelWorld Thread → Prop) : Prop :=
  ∀ pos stage stage' w t o a shared, InCustody k stage pos w → fact stage w →
    kernelExec t o a w.shared = some shared → StageMove k o a (pos t).1 stage stage' →
    fact stage' ((kernelMachine Thread).after w t o a shared)

/-- The orchestration with the subsystem list as a typestate of all threads, together
with such a fact. -/
abbrev custodyTypestate (hBuilt : k.WellFormed b) (fact : Stage → KernelWorld Thread → Prop)
    (hKept : CustodyKeeps k fact) : Typestate (kernelMachine Thread) (kernelBody k) where
  protocol := (subsystemCustody k).protocol
  begins _ := (.outside, false)
  within _ p := (subsystemCustody k).Covered p
  returns c r p := Apart (CallLeaves c) r p
  inv pos w := ∃ stage, InCustody k stage pos w ∧ fact stage w
  within_begins _ hAway := nomatch hAway
  within_next _ p _ _ p' := covered_next p p'
  obeys := custody_kernelBody hBuilt.distinct
  enters pos w t c hInv hRest := by
    have hHere : pos t = (Position.outside, false) := hRest
    have hSame : Function.update pos t (Position.outside, false) = pos := by
      rw [← hHere, Function.update_eq_self]
    rw [hSame]
    exact hInv
  leaves _ _ _ _ _ hInv hLeaves := hInv.imp fun _ h => ⟨h.1.leave hLeaves, h.2⟩
  keeps pos w t o a shared hInv hPermits hExec := by
    obtain ⟨stage, h, hFact⟩ := hInv
    obtain ⟨p, stage', hNext, hMove, hAfter⟩ := h.step hBuilt hPermits hExec
    exact ⟨p, hNext, stage', hAfter, hKept pos stage stage' w t o a shared h hFact hExec hMove⟩

omit [DecidableEq Thread] in
theorem inCustody_built (k : Kernel) (clock : Instant) :
    InCustody k .created (fun _ => (.outside, false)) (KernelConfig.built Thread k clock).world :=
  ⟨orchestrated_built k clock, (fun hMidway => nomatch hMidway), owns_none⟩

variable {fact : Stage → KernelWorld Thread → Prop} {hKept : CustodyKeeps k fact}
  {c : KernelConfig Thread} {clock : Instant}

/-- In every reachable configuration the orchestration goes its way and the fact holds of
its stage. -/
theorem custody_of_reachable (hBuilt : k.WellFormed b) (hKept : CustodyKeeps k fact)
    (hStart : fact .created (KernelConfig.built Thread k clock).world)
    (reach : Reachable (KernelStep Thread k) (KernelConfig.built Thread k clock) c) :
    ∃ pos stage, (custodyTypestate hBuilt fact hKept).Typed pos c ∧ InCustody k stage pos c.world ∧
      fact stage c.world := by
  obtain ⟨pos, hTyped⟩ := Typestate.typed_of_reachable
    (T := custodyTypestate hBuilt fact hKept)
    (Typestate.typed_start ⟨.created, inCustody_built k clock, hStart⟩) reach
  obtain ⟨stage, h, hFact⟩ := hTyped.1
  exact ⟨pos, stage, hTyped, h, hFact⟩

/-- Whoever is about to read the bookkeeping finds the orchestration between two loops. -/
theorem settled_of_readBook {hBuilt : k.WellFormed b}
    (hTyped : (custodyTypestate hBuilt fact hKept).Typed pos c) (h : InCustody k stage pos c.world)
    {call : KernelCall} {next : SubsystemBookkeeping → Program KernelSig KernelReturn}
    (hRun : c.threads t = .running call (.perform .readBook next)) : stage.midway k = false := by
  obtain ⟨hAllows, -⟩ := Custody.permits_iff.mp (hTyped.permits hRun)
  simp only [Custody.allows, Bool.not_false, Bool.true_or, Bool.not_true, Bool.false_or,
    Bool.true_and, Bool.and_eq_true] at hAllows
  obtain ⟨hHeld, hRest⟩ := hAllows
  by_contra hMidway
  obtain ⟨u, hIn⟩ := h.attended (by simpa using hMidway)
  have hHere : (pos u).1 = .inside stage := hIn
  have hCovered : (subsystemCustody k).Covered (pos u) := by
    cases hStatus : c.threads u with
    | idle =>
        have hOutside : pos u = (.outside, false) := hTyped.idle hStatus
        rw [hOutside] at hHere
        cases hHere
    | running call' program => exact (hTyped.running hStatus).1
  have hAlso : (pos u).2 = true := by
    apply hCovered
    simpa [hHere, Position.atRest] using hMidway
  -- both threads hold the list, so they are the same
  obtain rfl : t = u := by
    have hFirst := (h.owns t).mpr hHeld
    rw [(h.owns u).mpr hAlso] at hFirst
    exact (Option.some.inj hFirst).symm
  rw [hHere] at hRest
  simp [Position.atRest, hMidway] at hRest

end System

end ServiceKernel
