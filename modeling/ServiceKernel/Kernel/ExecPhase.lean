import Mathlib.Data.List.Perm.Lattice
import ServiceKernel.Kernel.ShutdownPaths
import ServiceKernel.Semantics.Chronicle
import ServiceKernel.Semantics.Simulation
import ServiceKernel.Worker.Escalation
import ServiceKernel.Worker.Termination

/-! The exec phase of a kernel with workers: the supervisor beside the watcher that cancels
it, and beside whatever the other threads do to the kernel. For the kernel all of this is
the one step `supervise`. -/
namespace ServiceKernel

open Execution Interleaving

/-- What the workers of a supervisor are registered in, before its `run`. -/
structure WorkerRegistration where
  idGen : WorkerId
  registered : AList fun _ : WorkerId => RegisteredWorker
  handles : List WorkerHandle

namespace WorkerRegistration

def new : WorkerRegistration := ⟨0, ∅, []⟩

/-- `register` and `register_async` come here with their runner. -/
def registerInner (r : WorkerRegistration) (spec : WorkerSpec) (runner : WorkerRunner) : WorkerRegistration :=
  let worker := RegisteredWorker.register r.idGen spec runner
  { idGen := r.idGen + 1
    registered := r.registered.insert r.idGen worker
    handles := r.handles ++ [worker.handle] }

/-- The first loop of `run_supervisor`. -/
def ofPending (pending : List PendingWorker) : WorkerRegistration :=
  pending.foldl (fun r w => r.registerInner w.spec w.runner) .new

/-- The registered workers, in the order in which the map iterates over them. -/
def roster (r : WorkerRegistration) (order : List WorkerId) (hOrder : order.Perm r.registered.keys) :
    Roster where
  ids := order
  nodup := hOrder.nodup_iff.mpr r.registered.keys_nodup
  spec id := (r.registered.lookup id).elim (.new "") RegisteredWorker.spec
  runner id := (r.registered.lookup id).elim .sync RegisteredWorker.runner

variable {pending : List PendingWorker} {id : WorkerId} {worker : RegisteredWorker}

theorem ofPending_concat (last : PendingWorker) : ofPending (pending ++ [last]) =
    (ofPending pending).registerInner last.spec last.runner := by
  simp [ofPending]

/-- Every registered worker was pending. -/
theorem lookup_ofPending (h : (ofPending pending).registered.lookup id = some worker) :
    ∃ w ∈ pending, worker = .register id w.spec w.runner := by
  induction pending using List.reverseRecOn with
  | nil => cases h
  | append_singleton pending last ih =>
      rw [ofPending_concat, registerInner] at h
      rcases eq_or_ne id (ofPending pending).idGen with rfl | hne
      · rw [AList.lookup_insert] at h
        exact ⟨last, by simp, (Option.some.inj h).symm⟩
      · rw [AList.lookup_insert_ne hne] at h
        obtain ⟨w, hMem, hWorker⟩ := ih h
        exact ⟨w, List.mem_append_left _ hMem, hWorker⟩

/-- The supervisor starts out with the workers as they were registered. -/
theorem lookup_roster (order : List WorkerId)
    (hOrder : order.Perm (ofPending pending).registered.keys) (hMem : id ∈ order) :
    (ofPending pending).registered.lookup id =
      some ((Supervisor.new ((ofPending pending).roster order hOrder)).worker id) := by
  have hKey : id ∈ (ofPending pending).registered := AList.mem_keys.mpr (hOrder.mem_iff.mp hMem)
  obtain ⟨worker, hWorker⟩ := Option.isSome_iff_exists.mp (AList.lookup_isSome.mpr hKey)
  obtain ⟨w, -, rfl⟩ := lookup_ofPending hWorker
  simp [Supervisor.new, roster, hWorker, RegisteredWorker.register]

/-- A worker that counts as critical was pending as such. -/
theorem critical_of_roster {order : List WorkerId}
    {hOrder : order.Perm (ofPending pending).registered.keys}
    (h : (((ofPending pending).roster order hOrder).spec id).criticality = .critical) :
    ∃ w ∈ pending, w.spec.criticality = .critical := by
  cases hLookup : (ofPending pending).registered.lookup id with
  | none => simp [roster, hLookup, WorkerSpec.new] at h
  | some worker =>
      obtain ⟨w, hMem, rfl⟩ := lookup_ofPending hLookup
      refine ⟨w, hMem, ?_⟩
      simpa [roster, hLookup, RegisteredWorker.register] using h

end WorkerRegistration

/-- Has it signalled the kernel, for a critical worker? -/
def Supervisor.hasSignalled (s : Supervisor) : Bool := .shutdownSignalled ∈ s.history

namespace Supervisor

variable {T : TaskIds} {roster : Roster} {s s' : Supervisor} {label : SupervisorLabel}

/-- Only a critical worker makes the supervisor signal. -/
theorem critical_of_hasSignalled (reach : Reachable (SupervisorStep T) (.new roster) s)
    (h : s.hasSignalled = true) : ∃ id, (roster.spec id).criticality = .critical := by
  have hEffects : s.Effects := reach.invariant Effects every_nil fun _ _ _ h hStep =>
    effects_durable.step h hStep
  obtain ⟨past, later, hHistory⟩ := List.append_of_mem (of_decide_eq_true h)
  obtain ⟨front, id, -, hCritical⟩ := hEffects past _ later hHistory
  exact ⟨id, (registered_of_reachable reach).2 id ▸ hCritical⟩

theorem hasSignalled_step (h : s.hasSignalled = true) (hStep : SupervisorStep T s label s') :
    s'.hasSignalled = true :=
  decide_eq_true ((history_durable _).step (of_decide_eq_true h) hStep)

/-- The supervisor goes past its loop only when cancelled. -/
def WindsUpCancelled (s : Supervisor) : Prop :=
  match s.phase with
  | .draining _ _ _ => s.cancelled = true
  | .aborting _ _ => s.cancelled = true
  | .returned _ _ => s.cancelled = true
  | _ => True

theorem WindsUpCancelled.of_supervising (h : s.Supervising) : s.WindsUpCancelled := by
  unfold Supervising at h
  unfold WindsUpCancelled
  split at h
  · simp [*]
  · simp [*]
  · simp [*]
  · exact h.elim

theorem windsUpCancelled_of_reachable (reach : Reachable (SupervisorStep T) (.new roster) s) :
    s.WindsUpCancelled := by
  refine (reach.invariant (fun s => Supervisor.Books s ∧ s.WindsUpCancelled)
    ⟨books_new roster, trivial⟩ fun s label s' h hStep => ⟨books_step h.1 hStep, ?_⟩).2
  obtain ⟨hBooks, hWinds⟩ := h
  unfold WindsUpCancelled at hWinds
  cases takes_of_step hStep with
  | start | tick | joinNone | backoffElapsed | backoffCancelled => trivial
  | join hPhase _ _ hTask hResult =>
      exact .of_supervising (supervising_joined hBooks hPhase (findTask_mem hTask).1 hResult _ _)
  | cancelObserved hPhase hCancelled =>
      exact (cancelled_step hBooks hStep (by simp)).trans hCancelled
  | drain hPhase | drainAborting hPhase | graceExpired hPhase =>
      rw [hPhase] at hWinds
      exact hWinds
  | drained hPhase =>
      have hCancelled : s.cancelled = true := by
        rcases hPhase with hPhase | ⟨deadline, hPhase⟩
        · rw [hPhase] at hWinds
          exact hWinds
        · rw [hPhase] at hWinds
          exact hWinds
      exact (cancelled_step hBooks hStep (by simp)).trans hCancelled
  | finish | abort | heartbeat | cancelWorker => exact hWinds
  | cancel =>
      show WindsUpCancelled { s with cancelled := true }
      unfold WindsUpCancelled
      split <;> trivial

theorem cancelled_of_returned (reach : Reachable (SupervisorStep T) (.new roster) s)
    {drained aborted : Nat} (hPhase : s.phase = .returned drained aborted) : s.cancelled = true := by
  have hWinds := windsUpCancelled_of_reachable reach
  unfold WindsUpCancelled at hWinds
  rw [hPhase] at hWinds
  exact hWinds

theorem cancelled_of_cancel (hStep : SupervisorStep T s .cancel s') : s'.cancelled = true := by
  cases takes_of_step hStep with
  | cancel => rfl

/-- After its return nothing is left for the supervisor to do. -/
theorem returned_step {drained aborted : Nat} (hPhase : s.phase = .returned drained aborted)
    (hStep : SupervisorStep T s label s') :
    s'.phase = s.phase ∧ s'.hasSignalled = s.hasSignalled := by
  cases takes_of_step hStep with
  | finish | abort => exact ⟨rfl, rfl⟩
  | heartbeat | cancel | cancelWorker => exact ⟨rfl, by simp [hasSignalled, log, modifyWorker,
      cancelWorkerToken]⟩
  | start hSame | join hSame | joinNone hSame | backoffElapsed hSame | backoffCancelled hSame
  | drain hSame | drainAborting hSame | graceExpired hSame => simp [hPhase] at hSame
  | tick hSame | cancelObserved hSame | drained hSame => simp [hPhase] at hSame

end Supervisor

/-- `run_supervisor` while it awaits the supervisor: the supervisor, whether the watcher
still waits, and what the clones of the kernel share. What the supervisor reports about
health is left to the other threads, which may report anything at any time. -/
structure ExecPhase (Thread : Type) where
  supervisor : Supervisor
  watching : Bool
  inner : KernelInner Thread

inductive ExecLabel (Thread : Type) where
  | supervisor (label : SupervisorLabel)
  | watcher
  | other (u : Thread) (d : Deed KernelSig)

/-- What another thread did to the kernel. -/
def ExecLabel.deed {Thread : Type} : ExecLabel Thread → Option (Thread × Deed KernelSig)
  | .other u d => some (u, d)
  | _ => none

section ExecPhase

variable {Thread : Type} [DecidableEq Thread]

namespace ExecPhase

def new (roster : Roster) (inner : KernelInner Thread) : ExecPhase Thread :=
  ⟨.new roster, true, inner⟩

/-- A step of the exec phase of thread `t`. Only the watcher cancels the supervisor's token;
a supervisor that has signalled finds the flag set, as nothing clears it. -/
def exec (T : TaskIds) (t : Thread) (e : ExecPhase Thread) :
    ExecLabel Thread → Option (ExecPhase Thread)
  | .supervisor .cancel => none
  | .supervisor label => (e.supervisor.exec T label).map fun s =>
    { e with
      supervisor := s
      inner := if s.hasSignalled then { e.inner with signalled := true } else e.inner }
  | .watcher =>
    if e.watching && e.inner.signalled then
      (e.supervisor.exec T .cancel).map fun s => { e with supervisor := s, watching := false }
    else none
  | .other u d =>
    if u = t then none else (kernelExec u d.1 d.2 e.inner).map fun inner => { e with inner := inner }

/-- How the kernel sees the supervisor end: as critical from the moment it signals, and else
as cancelled when it returns. -/
def exit (e : ExecPhase Thread) : Option SupervisorExit :=
  if e.supervisor.hasSignalled then some .critical
  else match e.supervisor.phase with
    | .returned _ _ => some .cancelled
    | _ => none

end ExecPhase

def ExecStep (T : TaskIds) (t : Thread) (e : ExecPhase Thread) (label : ExecLabel Thread)
    (e' : ExecPhase Thread) : Prop :=
  e.exec T t label = some e'

/-- The steps that can be taken. -/
inductive ExecTakes (T : TaskIds) (t : Thread) (e : ExecPhase Thread) :
    ExecLabel Thread → ExecPhase Thread → Prop where
  | supervisor {label : SupervisorLabel} {s : Supervisor} (hStep : SupervisorStep T e.supervisor label s)
      (hLabel : label ≠ .cancel) : ExecTakes T t e (.supervisor label)
        { e with
          supervisor := s
          inner := if s.hasSignalled then { e.inner with signalled := true } else e.inner }
  | watcher {s : Supervisor} (hSignalled : e.inner.signalled = true)
      (hStep : SupervisorStep T e.supervisor .cancel s) :
      ExecTakes T t e .watcher { e with supervisor := s, watching := false }
  | other {u : Thread} {d : Deed KernelSig} {inner : KernelInner Thread} (hOther : u ≠ t)
      (hExec : kernelExec u d.1 d.2 e.inner = some inner) :
      ExecTakes T t e (.other u d) { e with inner := inner }

variable {T : TaskIds} {t : Thread} {e e' : ExecPhase Thread} {label : ExecLabel Thread}

theorem exec_supervisor {own : SupervisorLabel} (hLabel : own ≠ .cancel) :
    e.exec T t (.supervisor own) = (e.supervisor.exec T own).map fun s =>
      { e with
        supervisor := s
        inner := if s.hasSignalled then { e.inner with signalled := true } else e.inner } := by
  cases own <;> first | rfl | exact absurd rfl hLabel

theorem execTakes_of_step (h : ExecStep T t e label e') : ExecTakes T t e label e' := by
  unfold ExecStep at h
  cases label with
  | supervisor label =>
      have hLabel : label ≠ .cancel := by
        rintro rfl
        cases h
      rw [exec_supervisor hLabel, Option.map_eq_some_iff] at h
      obtain ⟨s, hStep, rfl⟩ := h
      exact .supervisor hStep hLabel
  | watcher =>
      simp only [ExecPhase.exec, Option.ite_none_right_eq_some, Bool.and_eq_true,
        Option.map_eq_some_iff] at h
      obtain ⟨⟨-, hSignalled⟩, s, hStep, rfl⟩ := h
      exact .watcher hSignalled hStep
  | other u d =>
      simp only [ExecPhase.exec, Option.ite_none_left_eq_some, Option.map_eq_some_iff] at h
      obtain ⟨hOther, inner, hExec, rfl⟩ := h
      exact .other hOther hExec

/-- What holds of the supervisor and the flag in every state of the exec phase. -/
structure ExecPhase.Sound (T : TaskIds) (roster : Roster) (e : ExecPhase Thread) : Prop where
  reach : Reachable (SupervisorStep T) (.new roster) e.supervisor
  signalled : e.supervisor.hasSignalled = true → e.inner.signalled = true
  cancelled : e.supervisor.cancelled = true → e.inner.signalled = true
  watched : e.watching = true ∨ e.supervisor.cancelled = true

variable {roster : Roster}

theorem ExecPhase.Sound.step (h : e.Sound T roster) (hStep : ExecStep T t e label e') :
    e'.Sound T roster := by
  cases execTakes_of_step hStep with
  | @supervisor label s hOwn hLabel =>
      have hSame := Supervisor.cancelled_step (Supervisor.books_of_reachable h.reach) hOwn hLabel
      refine ⟨h.reach.tail hOwn, fun hSignalled => ?_, fun hCancelled => ?_, ?_⟩
      · simp only [if_pos hSignalled]
      · have hSet := h.cancelled (hSame ▸ hCancelled)
        show (if s.hasSignalled then { e.inner with signalled := true } else e.inner).signalled = true
        split_ifs
        · rfl
        · exact hSet
      · exact h.watched.imp_right hSame.trans
  | watcher hSignalled hCancel =>
      exact ⟨h.reach.tail hCancel, fun _ => hSignalled, fun _ => hSignalled,
        Or.inr (Supervisor.cancelled_of_cancel hCancel)⟩
  | @other u d inner hOther hExec =>
      have hKept : e.inner.signalled = true → inner.signalled = true := fun hSet => by
        rw [kernelExec_signalled hExec, hSet, Bool.true_or]
      exact ⟨h.reach, fun hHas => hKept (h.signalled hHas), fun hHas => hKept (h.cancelled hHas),
        h.watched⟩

theorem ExecPhase.sound_of_runs {inner : KernelInner Thread} {labels : List (ExecLabel Thread)}
    (run : Runs (ExecStep T t) (.new roster inner) labels e) : e.Sound T roster :=
  run.reachable.invariant (ExecPhase.Sound T roster)
    ⟨.refl _, fun h => (by cases h), fun h => (by cases h), Or.inl rfl⟩
    fun _ _ _ h hStep => h.step hStep

/-- The kernel's view of the exec phase: the deeds of the others, and those of its own
thread, which are the one step `supervise` once the exec phase has an exit. -/
structure ExecPhase.Seen (T : TaskIds) (roster : Roster) (pending : List PendingWorker) (t : Thread)
    (past : List (ExecLabel Thread)) (deeds : List (Thread × Deed KernelSig)) (e : ExecPhase Thread)
    (inner : KernelInner Thread) : Prop where
  same : inner = e.inner
  sound : e.Sound T roster
  others : deeds.filter (fun d => d.1 ≠ t) = past.filterMap ExecLabel.deed
  own : (deeds.filter fun d => d.1 = t) = e.exit.toList.map fun exit => (t, ⟨.supervise pending, exit⟩)

variable {pending : List PendingWorker} {past : List (ExecLabel Thread)}
  {deeds : List (Thread × Deed KernelSig)} {inner : KernelInner Thread}

/-- A step that the kernel does not see. -/
theorem ExecPhase.Seen.silent (h : e.Seen T roster pending t past deeds inner)
    (hSound : e'.Sound T roster) (hLabel : label.deed = none) (hInner : e'.inner = e.inner)
    (hExit : e'.exit = e.exit) : e'.Seen T roster pending t (past ++ [label]) (deeds ++ []) inner where
  same := h.same.trans hInner.symm
  sound := hSound
  others := by
    rw [List.append_nil, h.others]
    simp [hLabel]
  own := by rw [List.append_nil, h.own, hExit]

/-- The step in which the exec phase gets its exit. -/
theorem ExecPhase.Seen.ends (h : e.Seen T roster pending t past deeds inner)
    (hSound : e'.Sound T roster) (hLabel : label.deed = none) (hNone : e.exit = none)
    {exit : SupervisorExit} (hExit : e'.exit = some exit) {inner' : KernelInner Thread}
    (hInner : inner' = e'.inner) :
    e'.Seen T roster pending t (past ++ [label]) (deeds ++ [(t, ⟨.supervise pending, exit⟩)])
      inner' where
  same := hInner
  sound := hSound
  others := by
    rw [List.filter_append, h.others]
    simp [hLabel]
  own := by
    rw [List.filter_append, h.own, hNone, hExit]
    simp

omit [DecidableEq Thread] in
theorem ExecPhase.exit_eq_none (hHas : e.supervisor.hasSignalled = false)
    (hPhase : ∀ drained aborted, e.supervisor.phase ≠ .returned drained aborted) : e.exit = none := by
  unfold exit
  rw [hHas]
  cases h : e.supervisor.phase with
  | returned drained aborted => exact absurd h (hPhase drained aborted)
  | _ => rfl

section Step

variable {order : List WorkerId}
  {hOrder : order.Perm (WorkerRegistration.ofPending pending).registered.keys}

/-- The supervisor takes a step: `supervise` is done when it signals, or when it returns. -/
theorem ExecPhase.Seen.supervises
    (h : e.Seen T ((WorkerRegistration.ofPending pending).roster order hOrder) pending t past deeds inner)
    {own : SupervisorLabel} (hOwn : SupervisorStep T e.supervisor own e'.supervisor)
    (hSound : e'.Sound T ((WorkerRegistration.ofPending pending).roster order hOrder))
    (hInner : e'.inner =
      if e'.supervisor.hasSignalled then { e.inner with signalled := true } else e.inner) :
    ∃ more inner', (kernelMachine Thread).Carries inner more inner' ∧
      e'.Seen T ((WorkerRegistration.ofPending pending).roster order hOrder) pending t
        (past ++ [ExecLabel.supervisor own]) (deeds ++ more) inner' := by
  obtain rfl := h.same
  by_cases hHad : e.supervisor.hasSignalled = true
  · -- the flag is set already, and stays so
    have hHas := Supervisor.hasSignalled_step hHad hOwn
    have hSet := h.sound.signalled hHad
    rw [if_pos hHas] at hInner
    refine ⟨[], e.inner, Runs.zero _, h.silent hSound rfl ?_ ?_⟩
    · rw [hInner, ← hSet]
    · simp [ExecPhase.exit, hHad, hHas]
  rw [Bool.not_eq_true] at hHad
  by_cases hReturned : ∃ drained aborted, e.supervisor.phase = .returned drained aborted
  · obtain ⟨drained, aborted, hPhase⟩ := hReturned
    obtain ⟨hSame, hStill⟩ := Supervisor.returned_step hPhase hOwn
    rw [hHad] at hStill
    rw [hStill, if_neg Bool.false_ne_true] at hInner
    refine ⟨[], e.inner, Runs.zero _, h.silent hSound rfl hInner ?_⟩
    simp [ExecPhase.exit, hHad, hStill, hSame]
  have hNone := ExecPhase.exit_eq_none hHad fun drained aborted hPhase =>
    hReturned ⟨drained, aborted, hPhase⟩
  by_cases hHas : e'.supervisor.hasSignalled = true
  · obtain ⟨id, hCritical⟩ := Supervisor.critical_of_hasSignalled hSound.reach hHas
    have hExec : kernelExec t (.supervise pending) SupervisorExit.critical e.inner =
        some { e.inner with signalled := true } :=
      if_pos (WorkerRegistration.critical_of_roster hCritical)
    rw [if_pos hHas] at hInner
    refine ⟨[(t, ⟨.supervise pending, SupervisorExit.critical⟩)], _, Runs.single hExec,
      h.ends hSound rfl hNone ?_ hInner.symm⟩
    simp [ExecPhase.exit, hHas]
  rw [if_neg hHas] at hInner
  rw [Bool.not_eq_true] at hHas
  cases hPhase : e'.supervisor.phase with
  | returned drained aborted =>
      have hSet := hSound.cancelled (Supervisor.cancelled_of_returned hSound.reach hPhase)
      have hExec : kernelExec t (.supervise pending) SupervisorExit.cancelled e.inner =
          some e.inner := if_pos (hInner ▸ hSet)
      refine ⟨[(t, ⟨.supervise pending, SupervisorExit.cancelled⟩)], _, Runs.single hExec,
        h.ends hSound rfl hNone ?_ hInner.symm⟩
      simp [ExecPhase.exit, hHas, hPhase]
  | _ =>
      refine ⟨[], e.inner, Runs.zero _, h.silent hSound rfl hInner ?_⟩
      rw [hNone]
      exact ExecPhase.exit_eq_none hHas (by simp [hPhase])

theorem ExecPhase.Seen.step
    (h : e.Seen T ((WorkerRegistration.ofPending pending).roster order hOrder) pending t past deeds inner)
    (hStep : ExecStep T t e label e') :
    ∃ more inner', (kernelMachine Thread).Carries inner more inner' ∧
      e'.Seen T ((WorkerRegistration.ofPending pending).roster order hOrder) pending t
        (past ++ [label]) (deeds ++ more) inner' := by
  have hSound := h.sound.step hStep
  cases execTakes_of_step hStep with
  | supervisor hOwn => exact h.supervises hOwn hSound rfl
  | @watcher s hSignalled hCancel =>
      refine ⟨[], inner, Runs.zero _, h.silent hSound rfl rfl ?_⟩
      cases Supervisor.takes_of_step hCancel with
      | cancel => simp [ExecPhase.exit, Supervisor.hasSignalled, Supervisor.log]
  | @other u d inner' hOther hExec =>
      obtain rfl := h.same
      refine ⟨[(u, d)], inner', Runs.single hExec, rfl, hSound, ?_, ?_⟩
      · rw [List.filter_append, h.others]
        simp [ExecLabel.deed, hOther]
      · rw [List.filter_append, h.own]
        simp [ExecPhase.exit, hOther]

end Step

/-- The supervisor, the watcher and the threads beside them come to a run of the kernel in
which `supervise` is one step. The other threads do what they did; the thread of the exec
phase supervises once, or has yet to: it has done so when the supervisor has returned, which
never returns of its own accord but only when cancelled. -/
theorem exec_phase_refines (T : TaskIds) (t : Thread) (pending : List PendingWorker)
    (order : List WorkerId)
    (hOrder : order.Perm (WorkerRegistration.ofPending pending).registered.keys)
    (inner : KernelInner Thread) {labels : List (ExecLabel Thread)} {e : ExecPhase Thread}
    (run : Runs (ExecStep T t) (.new ((WorkerRegistration.ofPending pending).roster order hOrder) inner)
      labels e) :
    ∃ deeds, (kernelMachine Thread).Carries inner deeds e.inner ∧
      deeds.filter (fun d => d.1 ≠ t) = labels.filterMap ExecLabel.deed ∧
      (deeds.filter fun d => d.1 = t) = e.exit.toList.map (fun exit => (t, ⟨.supervise pending, exit⟩)) ∧
      (∀ drained aborted, e.supervisor.phase = .returned drained aborted →
        e.supervisor.cancelled = true ∧ e.exit.isSome) := by
  obtain ⟨deeds, finish, hCarries, hSeen⟩ := run.simulated
    (fun past deeds e inner => e.Seen T ((WorkerRegistration.ofPending pending).roster order hOrder)
      pending t past deeds inner)
    ⟨rfl, ExecPhase.sound_of_runs (T := T) (t := t) (.zero _), rfl, rfl⟩
    fun past deeds e inner label e' h hStep => h.step hStep
  obtain rfl := hSeen.same
  refine ⟨deeds, hCarries, hSeen.others, hSeen.own, fun drained aborted hPhase =>
    ⟨Supervisor.cancelled_of_returned hSeen.sound.reach hPhase, ?_⟩⟩
  unfold ExecPhase.exit
  split_ifs
  · rfl
  · rw [hPhase]
    rfl

/-- A kernel without subsystems, for its first thread. -/
def idleInner : KernelInner Bool := .new ⟨"service", [], KernelBuilder.defaultShutdownGrace, []⟩ 0

/-- The only worker is registered under the first id. -/
theorem single_order : [(0 : WorkerId)].Perm
    (WorkerRegistration.ofPending [⟨.tripping, .sync⟩]).registered.keys := .refl _

/-- A critical worker fails, and another thread sees the flag: the kernel supervises once. -/
theorem exec_phase_refines_critical : ∃ (e : ExecPhase Bool) (deeds : List (Bool × Deed KernelSig)),
    (kernelMachine Bool).Carries idleInner deeds e.inner ∧
    (deeds.filter fun d => d.1 = false) =
      [(false, ⟨.supervise [⟨.tripping, .sync⟩], SupervisorExit.critical⟩)] := by
  obtain ⟨e, hRun, hSignals⟩ : ∃ e : ExecPhase Bool,
      replay (ExecPhase.exec .counting false) (.new
        ((WorkerRegistration.ofPending [⟨.tripping, .sync⟩]).roster [0] single_order) idleInner)
        [.supervisor .start, .supervisor (.finish 0 (.err ⟨"broken"⟩)),
          .supervisor (.join 0 (some 1) 0), .other true ⟨.isSignalled, true⟩] = some e ∧
      e.supervisor.history[13]? = some SupervisorRecord.shutdownSignalled := ⟨_, rfl, rfl⟩
  have hExit : e.exit = some .critical := if_pos (decide_eq_true (List.mem_of_getElem? hSignals))
  obtain ⟨deeds, hCarries, -, hOwn, -⟩ :=
    exec_phase_refines .counting false [⟨.tripping, .sync⟩] [0] single_order idleInner
      (runs_of_replay hRun)
  rw [hExit] at hOwn
  exact ⟨e, deeds, hCarries, hOwn⟩

section Ends

/-- The steps of the supervisor, of its tasks and of the watcher. -/
def ExecLabel.alone : ExecLabel Thread → Bool
  | .supervisor label => label.advances
  | .watcher => true
  | .other _ _ => false

/-- In a signalled kernel the supervisor's steps change nothing else. -/
theorem ExecPhase.runs_supervisor (hSignalled : e.inner.signalled = true) {s : Supervisor}
    {labels : List SupervisorLabel}
    (run : Runs (Restrict (SupervisorStep T) fun _ label => label.advances = true)
      e.supervisor labels s) :
    Runs (Restrict (ExecStep T t) fun _ label => label.alone = true) e
      (labels.map .supervisor) { e with supervisor := s } := by
  generalize hStart : e.supervisor = start at run
  induction run with
  | zero =>
      subst hStart
      exact .zero _
  | @succ s s' labels label prior last ih =>
      rw [List.map_append]
      refine .succ ih ⟨?_, last.2⟩
      have hLabel : label ≠ .cancel := by
        rintro rfl
        cases last.2
      have hExec : s.exec T label = some s' := last.1
      rw [ExecStep, exec_supervisor hLabel, hExec, Option.map_some, Option.some.injEq,
        ExecPhase.mk.injEq]
      refine ⟨rfl, rfl, ?_⟩
      split_ifs
      · rw [← hSignalled]
      · rfl

/-- Once the kernel is signalled, its exec phase ends: from every state of it the watcher,
the supervisor and its tasks can bring the supervisor to its return, with nobody's help and
nothing else changed. In a kernel that is not signalled the supervisor has not returned. -/
theorem exec_phase_ends (T : TaskIds) (t : Thread) (roster : Roster) (inner : KernelInner Thread)
    {labels : List (ExecLabel Thread)} {e : ExecPhase Thread}
    (run : Runs (ExecStep T t) (.new roster inner) labels e) :
    (e.inner.signalled = true → ∃ more e',
      Runs (Restrict (ExecStep T t) fun _ label => label.alone = true) e more e' ∧
      e'.supervisor.Returned ∧ e'.inner = e.inner) ∧
    (∀ drained aborted, e.supervisor.phase = .returned drained aborted → e.inner.signalled = true) := by
  have hSound := ExecPhase.sound_of_runs run
  constructor
  · intro hSignalled
    rcases hSound.watched with hWatching | hCancelled
    · -- the watcher cancels the supervisor first
      let s : Supervisor := { e.supervisor with cancelled := true }.log .cancelCalled
      have hCancel : SupervisorStep T e.supervisor .cancel s := rfl
      have hFirst : ExecStep T t e .watcher { e with supervisor := s, watching := false } := by
        simp [ExecStep, ExecPhase.exec, hWatching, hSignalled, Supervisor.exec, s]
      obtain ⟨more, s', hRuns, hReturned⟩ :=
        Supervisor.returns_of_cancelled (hSound.reach.tail hCancel) rfl
      have hRest := ExecPhase.runs_supervisor (T := T) (t := t)
        (e := { e with supervisor := s, watching := false }) hSignalled hRuns
      exact ⟨_, _, Runs.cons ⟨hFirst, rfl⟩ hRest, hReturned, rfl⟩
    · obtain ⟨more, s', hRuns, hReturned⟩ := Supervisor.returns_of_cancelled hSound.reach hCancelled
      exact ⟨_, { e with supervisor := s' }, ExecPhase.runs_supervisor hSignalled hRuns, hReturned, rfl⟩
  · intro drained aborted hPhase
    exact hSound.cancelled (Supervisor.cancelled_of_returned hSound.reach hPhase)

/-- The watcher cancels the supervisor of a signalled kernel, whose worker still runs. -/
theorem exec_phase_ends_signalled : ∃ e e' : ExecPhase Bool,
    e.supervisor.phase = .head ∧ e.inner.signalled = true ∧ e'.supervisor.Returned ∧
    e'.inner = e.inner := by
  obtain ⟨e, hRun, hPhase, hSignalled⟩ : ∃ e : ExecPhase Bool,
      replay (ExecPhase.exec .counting false) (.new (.single .watched .sync) idleInner)
        [.supervisor .start, .other true ⟨.signal, ()⟩] = some e ∧
      e.supervisor.phase = .head ∧ e.inner.signalled = true := ⟨_, rfl, rfl, rfl⟩
  obtain ⟨more, e', -, hReturned, hSame⟩ :=
    (exec_phase_ends .counting false (.single .watched .sync) idleInner (runs_of_replay hRun)).1
      hSignalled
  exact ⟨e, e', hPhase, hSignalled, hReturned, hSame⟩

end Ends

end ExecPhase

end ServiceKernel
