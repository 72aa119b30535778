import ServiceKernel.Kernel.Core

/-! How kernel methods use the two mutexes. The boot and load loops take
bookkeeping while they hold the subsystem list; a snapshot takes them in the
other order. -/
namespace ServiceKernel

open Interleaving Execution

/-- Where a thread is with respect to the two mutexes. -/
inductive LockPosition where
  /-- Holding nothing, in a call that is no snapshot. -/
  | free
  /-- In a loop over the subsystems. -/
  | iterating
  /-- In the boot or load loop after a callback returned `Ok`. -/
  | recording
  /-- In `record_booted` or `record_loaded`, holding both. -/
  | recorded
  /-- Reading the keys for a rollback. -/
  | reading
  /-- In a snapshot, holding nothing. -/
  | watching
  /-- In a snapshot that holds bookkeeping and is about to lock the subsystems. -/
  | observing
  /-- In a snapshot that holds both. -/
  | observed
  /-- In a snapshot that has only bookkeeping left to release. -/
  | leaving
  deriving DecidableEq

namespace LockPosition

def holds : LockPosition → KernelMutex → Bool
  | free, _ => false
  | iterating, m => m = .subsystems
  | recording, m => m = .subsystems
  | recorded, _ => true
  | reading, m => m = .bookkeeping
  | watching, _ => false
  | observing, m => m = .bookkeeping
  | observed, _ => true
  | leaving, m => m = .bookkeeping

/-- Whether a position belongs to a snapshot. -/
def observes : LockPosition → Bool
  | watching => true
  | observing => true
  | observed => true
  | leaving => true
  | _ => false

def locks : LockPosition → KernelMutex → Option LockPosition
  | free, .subsystems => some iterating
  | free, .bookkeeping => some reading
  | recording, .bookkeeping => some recorded
  | watching, .bookkeeping => some observing
  | observing, .subsystems => some observed
  | _, _ => none

def unlocks : LockPosition → KernelMutex → Option LockPosition
  | iterating, .subsystems => some free
  | recorded, .bookkeeping => some iterating
  | reading, .bookkeeping => some free
  | observed, .subsystems => some leaving
  | leaving, .bookkeeping => some watching
  | _, _ => none

/-- A loop goes on after a callback, or records that it returned `Ok`. -/
def finishes : LockPosition → Callback → CallbackOutcome → Option LockPosition
  | iterating, .shutdown, _ => some iterating
  | iterating, _, .ok => some recording
  | iterating, _, _ => some iterating
  | _, _, _ => none

/-- Stay, if this is the position the operation belongs to. -/
def stayAt (p here : LockPosition) : Option LockPosition := if p = here then some p else none

def next (p : LockPosition) : (o : KernelOp) → KernelSig.Ans o → Option LockPosition
  | .lock m, _ => p.locks m
  | .unlock m, _ => p.unlocks m
  | .startCallback .., _ => p.stayAt iterating
  | .finishCallback c _, outcome => p.finishes c outcome
  | .insertBooted _, _ => p.stayAt recorded
  | .insertLoaded _, _ => p.stayAt recorded
  | .loadedKeys, _ => p.stayAt reading
  | .readBook, _ => p.stayAt observed
  | .healthOf _, _ => p.stayAt observed
  | _, _ => (p.stayAt free).or (p.stayAt watching)

end LockPosition

/-- The order in which kernel methods lock and unlock. -/
abbrev lockProtocol : Protocol KernelSig where
  Position := LockPosition
  rest := .free
  next := LockPosition.next

section Obeys

variable {α : Type} {here : LockPosition}

/-- An operation that is not about the mutexes leaves a thread that holds nothing
where it is. -/
theorem lock_stays {o : KernelOp} {a : KernelSig.Ans o}
    (hNext : ∀ p, LockPosition.next p o a = (p.stayAt .free).or (p.stayAt .watching))
    (hHere : here = .free ∨ here = .watching) : here.next o a = some here := by
  rw [hNext]
  rcases hHere with rfl | rfl <;> rfl

theorem lock_follows_lift {S : Signature} {op : S.Op → KernelOp}
    {ans : ∀ o, KernelSig.Ans (op o) → S.Ans o} (p : Program S α)
    (hOp : ∀ o a q, LockPosition.next q (op o) a = (q.stayAt .free).or (q.stayAt .watching))
    (hHere : here = .free ∨ here = .watching) :
    lockProtocol.Follows (fun _ q => q = here) (p.lift op ans) here := by
  refine Protocol.Follows.of_all (P := lockProtocol) (fun o => ∃ o', o = op o')
    (Program.all_lift p fun o => ⟨o, rfl⟩) ?_
  rintro _ ⟨o, rfl⟩
  have hNext : ∀ a, lockProtocol.next here (op o) a = some here := fun a =>
    lock_stays (hOp o a) hHere
  obtain ⟨a⟩ := kernelAns_nonempty (op o)
  refine ⟨⟨a, by rw [hNext]; rfl⟩, fun a p' hStep => ?_⟩
  rw [hNext] at hStep
  exact (Option.some.inj hStep).symm

theorem lock_follows_onLifecycle (p : Program LifecycleSig α)
    (hHere : here = .free ∨ here = .watching) :
    lockProtocol.Follows (fun _ q => q = here) (onLifecycle p) here :=
  lock_follows_lift p (fun _ _ _ => rfl) hHere

theorem lock_follows_onHealth (p : Program HealthSig α)
    (hHere : here = .free ∨ here = .watching) :
    lockProtocol.Follows (fun _ q => q = here) (onHealth p) here :=
  lock_follows_lift p (fun _ _ _ => rfl) hHere

theorem lock_follows_onCoordinator (p : Program CoordinatorSig α) :
    lockProtocol.Follows (fun _ q => q = .free) (onCoordinator p) .free :=
  lock_follows_lift p (fun _ _ _ => rfl) (Or.inl rfl)

theorem lock_follows_recordBooted (name : String) :
    lockProtocol.Follows (fun _ q => q = .iterating) (recordBooted name) .recording :=
  follows_op (fun _ => rfl) fun _ => follows_op (fun _ => rfl) fun _ =>
    follows_op (fun _ => rfl) fun _ => rfl

theorem lock_follows_recordLoaded (name : String) :
    lockProtocol.Follows (fun _ q => q = .iterating) (recordLoaded name) .recording :=
  follows_op (fun _ => rfl) fun _ => follows_op (fun _ => rfl) fun _ =>
    follows_op (fun _ => rfl) fun _ => rfl

theorem lock_follows_callSubsystem (c : Callback) (s : Subsystem) :
    lockProtocol.Follows (fun outcome q => LockPosition.finishes .iterating c outcome = some q)
      (callSubsystem c s) .iterating := by
  refine follows_op (fun _ => rfl) fun _ => ⟨⟨.ok, ?_⟩, fun a p' hNext => hNext⟩
  cases c <;> rfl

/-- The loop ends where it began, having recorded every success on the way. -/
theorem lock_follows_forwardPhase {c : Callback} {record : String → Program KernelSig Unit}
    (hCallback : c ≠ .shutdown)
    (hRecord : ∀ name, lockProtocol.Follows (fun _ q => q = .iterating) (record name) .recording)
    (subsystems : List Subsystem) :
    lockProtocol.Follows (fun _ q => q = .iterating) (forwardPhase c record subsystems)
      .iterating := by
  induction subsystems with
  | nil => exact rfl
  | cons s rest ih =>
      apply (lock_follows_callSubsystem c s).bind
      intro outcome q hFinish
      cases outcome with
      | ok =>
          obtain rfl : LockPosition.recording = q := by
            cases c with
            | shutdown => exact absurd rfl hCallback
            | boot | load => exact Option.some.inj hFinish
          exact (hRecord s.name).seq fun _ => ih
      | err e | panicked payload =>
          cases c with
          | shutdown => exact absurd rfl hCallback
          | boot | load => exact (Option.some.inj hFinish).symm

theorem lock_follows_shutdownEach (subsystems : List Subsystem) (firstErr : Option KernelError) :
    lockProtocol.Follows (fun _ q => q = .iterating) (shutdownEach subsystems firstErr)
      .iterating := by
  induction subsystems generalizing firstErr with
  | nil => exact rfl
  | cons s rest ih =>
      apply (lock_follows_callSubsystem .shutdown s).bind
      intro outcome q hFinish
      obtain rfl : LockPosition.iterating = q := Option.some.inj hFinish
      exact ih _

/-- A loop between its lock and its unlock. -/
theorem lock_follows_loop {loop : Program KernelSig α}
    (h : lockProtocol.Follows (fun _ q => q = .iterating) loop .iterating) :
    lockProtocol.Follows (fun _ q => q = .free) (do
      (KernelOp.lock .subsystems).call
      let result ← loop
      (KernelOp.unlock .subsystems).call
      return result) .free := by
  refine follows_op (fun _ => rfl) fun _ => h.seq fun _ => ?_
  exact follows_op (fun _ => rfl) fun _ => rfl

theorem lock_follows_runBootPhase (k : Kernel) :
    lockProtocol.Follows (fun _ q => q = .free) (runBootPhase k) .free :=
  lock_follows_loop (lock_follows_forwardPhase (by decide) lock_follows_recordBooted _)

theorem lock_follows_runLoadPhase (k : Kernel) :
    lockProtocol.Follows (fun _ q => q = .free) (runLoadPhase k) .free :=
  lock_follows_loop (lock_follows_forwardPhase (by decide) lock_follows_recordLoaded _)

theorem lock_follows_runShutdownPhase (k : Kernel) :
    lockProtocol.Follows (fun _ q => q = .free) (runShutdownPhase k) .free := by
  refine follows_op (fun _ => rfl) fun _ =>
    (lock_follows_shutdownEach _ _).seq fun firstErr => ?_
  apply follows_op (fun _ => rfl)
  intro _
  cases firstErr <;> exact rfl

theorem lock_follows_runShutdownPhaseToLoaded (k : Kernel) :
    lockProtocol.Follows (fun _ q => q = .free) (runShutdownPhaseToLoaded k) .free := by
  refine follows_op (fun _ => rfl) fun _ => follows_op (fun _ => rfl)
    fun _ => follows_op (fun _ => rfl) fun _ => follows_op (fun _ => rfl)
    fun _ => ?_
  apply (lock_follows_shutdownEach _ _).seq
  intro _
  exact follows_op (fun _ => rfl) fun _ => rfl

theorem lock_follows_boot (k : Kernel) :
    lockProtocol.Follows (fun _ q => q = .free) (boot k) .free := by
  have hTransition : ∀ toState, lockProtocol.Follows (fun _ q => q = LockPosition.free)
      (onLifecycle (transition toState)) .free := fun toState =>
    lock_follows_onLifecycle _ (Or.inl rfl)
  apply (hTransition .booting).seq
  intro r
  cases r with
  | error e => exact rfl
  | ok u =>
      apply (lock_follows_runBootPhase k).seq
      intro r
      cases r with
      | error e => exact (hTransition .failed).seq fun _ => rfl
      | ok u =>
          apply (hTransition .loading).seq
          intro r
          cases r with
          | error e => exact rfl
          | ok u =>
              apply (lock_follows_runLoadPhase k).seq
              intro r
              cases r with
              | error e =>
                  apply (lock_follows_runShutdownPhaseToLoaded k).seq
                  intro _
                  exact (hTransition .failed).seq fun _ => rfl
              | ok u =>
                  apply (hTransition .running).seq
                  intro r
                  cases r <;> exact rfl

theorem lock_follows_runExecPhase (k : Kernel) :
    lockProtocol.Follows (fun _ q => q = .free) (runExecPhase k) .free := by
  have hCoordinator : lockProtocol.Follows (fun _ q => q = LockPosition.free)
      (onCoordinator (coordinatorShutdown k.shutdownGrace)) .free := lock_follows_onCoordinator _
  refine follows_op (fun _ => rfl) fun hasWorkers =>
    follows_op (fun _ => rfl) fun signalRequested => ?_
  simp only [Program.bind]
  split
  · refine follows_op (fun _ => rfl) fun _ => follows_op (fun _ => rfl) fun built => ?_
    cases built with
    | error e => exact rfl
    | ok u => exact hCoordinator.seq fun report => by cases report <;> exact rfl
  · apply follows_op (fun _ => rfl)
    intro built
    cases built with
    | error e => exact rfl
    | ok u =>
        refine follows_op (fun _ => rfl) fun _ => follows_op (fun _ => rfl) fun _ =>
          follows_op (fun _ => rfl) fun _ => hCoordinator.seq fun report => ?_
        cases report with
        | none => exact follows_op (fun _ => rfl) fun _ => rfl
        | some report =>
            exact follows_op (fun _ => rfl) fun _ => follows_op (fun _ => rfl) fun _ => rfl

theorem lock_follows_run (k : Kernel) :
    lockProtocol.Follows (fun _ q => q = .free) (run k) .free := by
  have hTransition : ∀ toState, lockProtocol.Follows (fun _ q => q = LockPosition.free)
      (onLifecycle (transition toState)) .free := fun toState =>
    lock_follows_onLifecycle _ (Or.inl rfl)
  apply (lock_follows_boot k).seq
  intro r
  cases r with
  | error e => exact rfl
  | ok u =>
      apply (lock_follows_runExecPhase k).seq
      intro r
      cases r with
      | failed e => exact rfl
      | unwound => exact rfl
      | released =>
          apply (hTransition .stopping).seq
          intro r
          cases r with
          | error e => exact rfl
          | ok u =>
              apply (lock_follows_runShutdownPhase k).seq
              intro r
              exact (hTransition .stopped).seq fun r => by cases r <;> exact rfl

theorem lock_follows_collectSnapshots (book : SubsystemBookkeeping) (subsystems : List Subsystem) :
    lockProtocol.Follows (fun _ q => q = .observed) (collectSnapshots book subsystems)
      .observed := by
  induction subsystems with
  | nil => exact rfl
  | cons s rest ih =>
      apply follows_op (fun _ => rfl)
      intro health
      cases health with
      | none => exact rfl
      | some health => exact ih.seq fun snapshots => by cases snapshots <;> exact rfl

theorem lock_follows_snapshot (k : Kernel) :
    lockProtocol.Follows (fun _ q => q = .watching) (snapshot k) .watching := by
  refine (lock_follows_onLifecycle _ (Or.inr rfl)).seq fun lifecycle =>
    (lock_follows_onHealth _ (Or.inr rfl)).seq fun health => ?_
  have hCollect : lockProtocol.Follows (fun _ q => q = LockPosition.watching)
      (subsystemSnapshots k) .watching := by
    refine follows_op (fun _ => rfl) fun _ => follows_op (fun _ => rfl)
      fun _ => follows_op (fun _ => rfl) fun book => ?_
    apply (lock_follows_collectSnapshots book _).seq
    intro snapshots
    exact follows_op (fun _ => rfl) fun _ => follows_op (fun _ => rfl)
      fun _ => rfl
  apply hCollect.seq
  intro snapshots
  cases snapshots with
  | none => exact rfl
  | some snapshots => exact follows_op (fun _ => rfl) fun _ => rfl

theorem lock_follows_debugFmt (k : Kernel) :
    lockProtocol.Follows (fun _ q => q = .watching) (debugFmt k) .watching :=
  (lock_follows_snapshot k).seq fun snap => by cases snap <;> exact rfl

/-- Where a call starts and ends. -/
def LockPosition.begins (c : KernelCall) : LockPosition := if c.observes then .watching else .free

theorem lock_follows_kernelBody (k : Kernel) (c : KernelCall) :
    lockProtocol.Follows (fun _ q => q = LockPosition.begins c) (kernelBody k c)
      (LockPosition.begins c) := by
  cases c with
  | boot => exact (lock_follows_boot k).seq fun _ => rfl
  | run => exact (lock_follows_run k).seq fun _ => rfl
  | snapshot => exact (lock_follows_snapshot k).seq fun _ => rfl
  | debug => exact (lock_follows_debugFmt k).seq fun _ => rfl
  | registerShutdownHook | signalToken => exact (lock_follows_onCoordinator _).seq fun _ => rfl
  | lifecycle => exact (lock_follows_onLifecycle _ (Or.inl rfl)).seq fun _ => rfl
  | health c => exact (lock_follows_onHealth _ (Or.inl rfl)).seq fun _ => rfl
  | waitTimeout timeout =>
      refine follows_op (P := lockProtocol) (fun _ => rfl) fun (now : Instant) => ?_
      simp only [Program.bind]
      cases now.checkedAdd timeout with
      | none => exact rfl
      | some deadline => exact follows_op (fun _ => rfl) fun _ => rfl
  | shutdown | installSignalHandler | isSignalled | wait =>
      exact follows_op (fun _ => rfl) fun _ => rfl

end Obeys

section Holding

theorem LockPosition.locks_holds {p p' : LockPosition} {m : KernelMutex}
    (h : p.locks m = some p') (m' : KernelMutex) : p'.holds m' = (p.holds m' || m' = m) := by
  cases p <;> cases m <;> cases h <;> cases m' <;> rfl

theorem LockPosition.unlocks_holds {p p' : LockPosition} {m : KernelMutex}
    (h : p.unlocks m = some p') :
    p.holds m = true ∧ ∀ m', p'.holds m' = (p.holds m' && m' ≠ m) := by
  cases p <;> cases m <;> cases h <;> refine ⟨rfl, fun m' => ?_⟩ <;> cases m' <;> rfl

theorem LockPosition.stayAt_eq {p here p' : LockPosition} (h : p.stayAt here = some p') :
    p' = p := by
  unfold LockPosition.stayAt at h
  split at h
  · exact (Option.some.inj h).symm
  · cases h

theorem LockPosition.stayAt_or_eq {p p' : LockPosition}
    (h : (p.stayAt .free).or (p.stayAt .watching) = some p') : p' = p := by
  rcases Option.or_eq_some_iff.mp h with hFree | ⟨-, hWatching⟩
  · exact stayAt_eq hFree
  · exact stayAt_eq hWatching

theorem LockPosition.finishes_holds {p p' : LockPosition} {c : Callback}
    {outcome : CallbackOutcome} (h : p.finishes c outcome = some p') (m : KernelMutex) :
    p'.holds m = p.holds m := by
  cases p <;> cases c <;> cases outcome <;> cases h <;> rfl

/-- Only locking and unlocking changes what a thread holds. -/
theorem LockPosition.next_holds {p p' : LockPosition} {o : KernelOp} {a : KernelSig.Ans o}
    (hLock : ∀ m, o ≠ .lock m) (hUnlock : ∀ m, o ≠ .unlock m) (h : p.next o a = some p') :
    p'.holds = p.holds := by
  cases o with
  | lock m => exact absurd rfl (hLock m)
  | unlock m => exact absurd rfl (hUnlock m)
  | finishCallback c s => exact funext (finishes_holds h)
  | startCallback | insertBooted | insertLoaded | loadedKeys | readBook | healthOf =>
      exact congrArg holds (stayAt_eq h)
  | _ => exact congrArg holds (stayAt_or_eq h)

/-- What is permitted does not depend on the answer. -/
theorem LockPosition.next_isSome {p : LockPosition} {o : KernelOp}
    (h : lockProtocol.Permits p o) (a : KernelSig.Ans o) : ∃ p', p.next o a = some p' := by
  obtain ⟨b, hSome⟩ := h
  apply Option.isSome_iff_exists.mp
  cases o with
  | finishCallback c s => cases p <;> cases c <;> cases a <;> first | rfl | exact hSome
  | _ => exact hSome

end Holding

end ServiceKernel
