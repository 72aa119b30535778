import ServiceKernel.Semantics.Execution
import ServiceKernel.Worker.Durable

/-! Whether a spawned task starts out cancelled. A worker keeps one token for all
its runs, so a watchdog timeout outlives the run it was meant for. -/
namespace ServiceKernel

open Execution

namespace SupervisorRecord

/-- Records that have nothing to do with tokens. -/
def Tokenless : SupervisorRecord → Prop
  | .event (.timeout _ _ _) => False
  | .spawned _ _ _ => False
  | .cancelCalled => False
  | .workerCancelCalled _ => False
  | _ => True

theorem Plain.tokenless {record : SupervisorRecord} (h : record.Plain) : record.Tokenless := by
  cases record with
  | event event => cases event <;> first | exact h | trivial
  | _ => first | exact h | trivial

end SupervisorRecord

/-- Nobody has called `cancel` on the supervisor's token or on the worker's handle. -/
def Undisturbed (past : List SupervisorRecord) (id : WorkerId) : Prop :=
  .cancelCalled ∉ past ∧ .workerCancelCalled id ∉ past

instance (past : List SupervisorRecord) (id : WorkerId) : Decidable (Undisturbed past id) :=
  inferInstanceAs (Decidable (_ ∧ _))

def TimedOut (past : List SupervisorRecord) (id : WorkerId) : Prop :=
  ∃ record ∈ past, record.isTimeout id = true

/-- A task spawned for an undisturbed worker is not cancelled. -/
def StartsUncancelled (past : List SupervisorRecord) : SupervisorRecord → Prop
  | .spawned id _ cancelled => Undisturbed past id → cancelled = false
  | _ => True

/-- A task is spawned for an undisturbed worker only if it never timed out. -/
def NeverTimedOut (past : List SupervisorRecord) : SupervisorRecord → Prop
  | .spawned id _ _ => Undisturbed past id → ¬ TimedOut past id
  | _ => True

/-- A task spawned for an undisturbed worker is cancelled exactly if the worker
timed out before, in whatever run. -/
def CancelledByTimeout (past : List SupervisorRecord) : SupervisorRecord → Prop
  | .spawned id _ cancelled => Undisturbed past id → (cancelled = true ↔ TimedOut past id)
  | _ => True

section Concat

variable {past : List SupervisorRecord} {record : SupervisorRecord} {id : WorkerId}

theorem Undisturbed.of_concat (h : Undisturbed (past ++ [record]) id) : Undisturbed past id :=
  ⟨fun hMem => h.1 (List.mem_append_left _ hMem), fun hMem => h.2 (List.mem_append_left _ hMem)⟩

theorem timedOut_concat :
    TimedOut (past ++ [record]) id ↔ TimedOut past id ∨ record.isTimeout id = true := by
  simp only [TimedOut, List.mem_append, List.mem_singleton]
  constructor
  · rintro ⟨r, hMem | rfl, hTimeout⟩
    · exact Or.inl ⟨r, hMem, hTimeout⟩
    · exact Or.inr hTimeout
  · rintro (⟨r, hMem, hTimeout⟩ | hTimeout)
    · exact ⟨r, Or.inl hMem, hTimeout⟩
    · exact ⟨record, Or.inr rfl, hTimeout⟩

end Concat

namespace Supervisor

variable {T : TaskIds} {s : Supervisor} {id : WorkerId}

/-- The tokens hold what the history says. -/
structure Tokens (s : Supervisor) : Prop where
  parent : s.cancelled = true → .cancelCalled ∈ s.history
  own : ∀ id ∈ s.ids, Undisturbed s.history id →
    ((s.worker id).handle.cancelled = true ↔ TimedOut s.history id)
  spawns : Every CancelledByTimeout s.history

theorem Tokens.isCancelled_iff (h : s.Tokens) (hMem : id ∈ s.ids)
    (hUndisturbed : Undisturbed s.history id) :
    s.isCancelled id = true ↔ TimedOut s.history id := by
  have hParent : s.cancelled = false := by
    cases hCancelled : s.cancelled with
    | false => rfl
    | true => exact absurd (h.parent hCancelled) hUndisturbed.1
  rw [isCancelled, hParent, Bool.or_false]
  exact h.own id hMem hUndisturbed

theorem Tokens.log (h : s.Tokens) {record : SupervisorRecord} (hRecord : record.Tokenless) :
    (s.log record).Tokens where
  parent hCancelled := List.mem_append_left _ (h.parent hCancelled)
  own id hMem hUndisturbed := by
    have hSame : record.isTimeout id = false := by
      cases record with
      | event event => cases event <;> first | rfl | exact hRecord.elim
      | _ => rfl
    have hOwn := h.own id hMem hUndisturbed.of_concat
    rw [Supervisor.log, timedOut_concat, hSame]
    simpa using hOwn
  spawns := by
    rw [Supervisor.log, every_concat]
    refine ⟨h.spawns, ?_⟩
    cases record with
    | spawned => exact hRecord.elim
    | _ => trivial

theorem Tokens.spawnTask (h : s.Tokens) (hMem : id ∈ s.ids) : (s.spawnTask T id).Tokens where
  parent hCancelled := List.mem_append_left _ (h.parent hCancelled)
  own i hIn hUndisturbed := by
    have hOwn := h.own i hIn hUndisturbed.of_concat
    simp only [Supervisor.spawnTask, timedOut_concat, SupervisorRecord.isTimeout]
    simpa using hOwn
  spawns := by
    rw [Supervisor.spawnTask, every_concat]
    exact ⟨h.spawns, h.isCancelled_iff hMem⟩

theorem Tokens.reportTimeout (h : s.Tokens) (timeout : WatchdogTimeout) :
    (s.reportTimeout timeout).Tokens := by
  let record : SupervisorRecord := .event (.timeout timeout.id timeout.name timeout.silentFor)
  have hSpawns : Every CancelledByTimeout (s.history ++ [record]) :=
    every_concat.mpr ⟨h.spawns, trivial⟩
  have hOther : ∀ i ∈ s.ids, i ≠ timeout.id → Undisturbed (s.history ++ [record]) i →
      ((s.worker i).handle.cancelled = true ↔ TimedOut (s.history ++ [record]) i) := by
    intro i hIn hne hUndisturbed
    have hOwn := h.own i hIn hUndisturbed.of_concat
    rw [timedOut_concat]
    simpa [record, SupervisorRecord.isTimeout, Ne.symm hne] using hOwn
  unfold Supervisor.reportTimeout
  simp only []
  split_ifs with hMem
  · refine ⟨fun hCancelled => List.mem_append_left _ (h.parent hCancelled),
      fun i hIn hUndisturbed => ?_, hSpawns⟩
    rcases eq_or_ne i timeout.id with rfl | hne
    · simp [cancelWorkerToken, modifyWorker, Supervisor.emit, Supervisor.log, timedOut_concat,
        SupervisorRecord.isTimeout]
    · have hSame := hOther i hIn hne hUndisturbed
      simpa [cancelWorkerToken, modifyWorker, Supervisor.emit, Supervisor.log, hne] using hSame
  · refine ⟨fun hCancelled => List.mem_append_left _ (h.parent hCancelled),
      fun i hIn hUndisturbed => ?_, hSpawns⟩
    exact hOther i hIn (fun hSame => hMem (hSame ▸ hIn)) hUndisturbed

theorem tokens_durable : Durable T Tokens where
  workers hCells h := ⟨h.parent, fun id hMem hUndisturbed => by
    rw [(hCells id).cancelled]
    exact h.own id hMem hUndisturbed, h.spawns⟩
  log hPlain h := h.log hPlain.tokenless
  tasks h := ⟨h.parent, h.own, h.spawns⟩
  control h := ⟨h.parent, h.own, h.spawns⟩
  spawn hMem h := h.spawnTask hMem
  announce {s id run outcome} h := by
    have hEvent : ((s.log (.handled id run outcome)).emit
        (outcome.event id (s.worker id).spec.name)).Tokens := by
      apply (h.log (by trivial)).log
      cases outcome <;> trivial
    unfold announceOutcome
    simp only []
    split_ifs
    · exact hEvent.log (by trivial)
    · exact hEvent
  restart h := (h.log (by trivial)).log (by trivial)
  escalate h := escalate_keeps (fun {_ record} hRecord h => h.log (by
    cases record <;> first | exact hRecord.elim | trivial)) h
  timeout h := h.reportTimeout _
  stopping hCancelled h := ⟨h.parent, fun _ _ hUndisturbed =>
    absurd (h.parent hCancelled) hUndisturbed.1, h.spawns⟩
  heartbeat {s id run nanos} _ h := by
    have hCell : (s.modifyWorker id fun r => { r with lastHeartbeat := nanos }).Tokens := by
      refine ⟨h.parent, fun i hMem hUndisturbed => ?_, h.spawns⟩
      have hOwn := h.own i hMem hUndisturbed
      rcases eq_or_ne i id with rfl | hne
      · simpa [modifyWorker] using hOwn
      · simpa [modifyWorker, hne] using hOwn
    exact hCell.log (by trivial)
  cancel {s} h := by
    have hMem : SupervisorRecord.cancelCalled ∈ s.history ++ [.cancelCalled] := by simp
    exact ⟨fun _ => hMem, fun i _ hUndisturbed => absurd hMem hUndisturbed.1,
      every_concat.mpr ⟨h.spawns, trivial⟩⟩
  cancelWorker {s id} _ h := by
    refine ⟨fun hCancelled => List.mem_append_left _ (h.parent hCancelled),
      fun i hIn hUndisturbed => ?_, every_concat.mpr ⟨h.spawns, trivial⟩⟩
    rcases eq_or_ne i id with rfl | hne
    · exact absurd (List.mem_append_right _ (List.mem_singleton_self _)) hUndisturbed.2
    · have hOwn := h.own i hIn hUndisturbed.of_concat
      simp only [cancelWorkerToken, modifyWorker, Supervisor.log, timedOut_concat,
        SupervisorRecord.isTimeout]
      simpa [hne] using hOwn

theorem tokens_new (roster : Roster) : (new roster).Tokens where
  parent h := by cases h
  own _ _ _ := ⟨fun h => (by cases h), fun ⟨_, hMem, _⟩ => (by cases hMem)⟩
  spawns := every_nil

end Supervisor

/-- In a run every task of an undisturbed worker starts uncancelled exactly if none
is spawned after a timeout of its worker. -/
theorem starts_uncancelled_iff (T : TaskIds) (roster : Roster) (s : Supervisor)
    (reach : Reachable (SupervisorStep T) (.new roster) s) :
    Every StartsUncancelled s.history ↔ Every NeverTimedOut s.history := by
  have hTokens : s.Tokens := reach.invariant Supervisor.Tokens (Supervisor.tokens_new roster)
    fun _ _ _ h hStep => Supervisor.tokens_durable.step h hStep
  constructor
  · intro hFresh past record later hSplit
    have hLaw := hTokens.spawns past record later hSplit
    have hClaim := hFresh past record later hSplit
    cases record with
    | spawned id run cancelled =>
        intro hUndisturbed hTimedOut
        have hCancelled := (hLaw hUndisturbed).mpr hTimedOut
        rw [hClaim hUndisturbed] at hCancelled
        cases hCancelled
    | _ => trivial
  · intro hNever past record later hSplit
    have hLaw := hTokens.spawns past record later hSplit
    have hCond := hNever past record later hSplit
    cases record with
    | spawned id run cancelled =>
        intro hUndisturbed
        rw [← Bool.not_eq_true, hLaw hUndisturbed]
        exact hCond hUndisturbed
    | _ => trivial

/-- The first run of a worker: it starts uncancelled. -/
theorem starts_uncancelled_first : ∃ s : Supervisor, s.history ≠ [] ∧
    (Every StartsUncancelled s.history ↔ Every NeverTimedOut s.history) := by
  obtain ⟨s, hRun, hSome⟩ : ∃ s, replay (Supervisor.exec .counting)
      (.new (.single .watched .sync)) [.start] = some s ∧ s.history ≠ [] :=
    ⟨_, rfl, by decide⟩
  exact ⟨s, hSome, starts_uncancelled_iff .counting _ s (runs_of_replay hRun).reachable⟩

/-- A worker heartbeats once, falls silent for five seconds, and fails when it is
cancelled: its restart is handed a cancelled context. -/
theorem starts_cancelled_after_timeout :
    ¬ ∀ s, Reachable (SupervisorStep .counting) (.new (.single .watched .sync)) s →
      Every StartsUncancelled s.history := by
  intro hClaim
  obtain ⟨s, hRun, hSpawned, hUndisturbed⟩ : ∃ s, replay (Supervisor.exec .counting)
      (.new (.single .watched .sync))
      [.start, .heartbeat 0 (some 1), .tick (some 5000000001) (fun _ => 1) 1,
        .finish 0 (.err ⟨"cancelled"⟩), .join 0 (some 5000000002) 2] = some s ∧
      s.history[14]? = some (.spawned 1 1 true) ∧ Undisturbed (s.history.take 14) 1 :=
    ⟨_, rfl, rfl, by decide⟩
  have hStarts := (hClaim s (runs_of_replay hRun).reachable).of_getElem hSpawned hUndisturbed
  cases hStarts

end ServiceKernel
