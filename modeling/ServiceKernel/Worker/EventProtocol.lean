import Mathlib.Data.List.Induction
import ServiceKernel.Worker.StoppedState

/-! The grammar of the events about one worker: how `Started`, `Stopping`, `Stopped`
and `Restarted` may follow each other. -/
namespace ServiceKernel

open Execution

namespace SupervisorRecord

def isStarted : SupervisorRecord → Bool
  | .event (.started _ _) => true
  | _ => false

def isStopped : SupervisorRecord → Bool
  | .event (.stopped _ _) => true
  | _ => false

def isStopping : SupervisorRecord → Bool
  | .event (.stopping _) => true
  | _ => false

end SupervisorRecord

/-- What consumers that pair the events about a worker rely on. -/
structure EventGrammar (trail : List SupervisorRecord) : Prop where
  /-- Between two starts, and after the last, the worker stops at most once. -/
  stoppedOnce : ∀ before segment after, trail = before ++ segment ++ after →
    (∀ record ∈ segment, record.isStarted = false) →
      segment.countP SupervisorRecord.isStopped ≤ 1
  /-- A run that stopped is not restarted. -/
  notRestarted : ∀ before segment after stopped restarted,
    trail = before ++ stopped :: segment ++ restarted :: after → stopped.isStopped = true →
      restarted.isRestarted = true → ∃ record ∈ segment, record.isStarted = true
  /-- A worker that stopped neither stops nor is stopped before it starts again. -/
  quiet : ∀ before segment after stopped later,
    trail = before ++ stopped :: segment ++ later :: after → stopped.isStopped = true →
      (later.isStopping || later.isStopped) = true → ∃ record ∈ segment, record.isStarted = true

/-- The worker stopped and has not started since. -/
def halted (past : List SupervisorRecord) : Bool :=
  past.foldl (fun halted record => match record with
    | .event (.started _ _) => false
    | .event (.stopped _ _) => true
    | _ => halted) false

@[simp] theorem halted_concat (past : List SupervisorRecord) (record : SupervisorRecord) :
    halted (past ++ [record]) = match record with
      | .event (.started _ _) => false
      | .event (.stopped _ _) => true
      | _ => halted past := by
  simp only [halted, List.foldl_append, List.foldl_cons, List.foldl_nil]

/-- Nothing is stopped, restarted or told to stop while it is halted. -/
def HaltedQuiet (past : List SupervisorRecord) : SupervisorRecord → Prop
  | .event (.stopped _ _) => halted past = false
  | .event (.stopping _) => halted past = false
  | .event (.restarted _ _ _) => halted past = false
  | _ => True

section Grammar

variable {past segment : List SupervisorRecord} {record : SupervisorRecord}

/-- A `Stopped` event that no `Started` event follows. -/
def StoppedLast (past : List SupervisorRecord) : Prop :=
  ∃ before stopped segment, past = before ++ stopped :: segment ∧ stopped.isStopped = true ∧
    ∀ record ∈ segment, record.isStarted = false

theorem stoppedLast_concat : StoppedLast (past ++ [record]) ↔
    record.isStopped = true ∨ record.isStarted = false ∧ StoppedLast past := by
  constructor
  · rintro ⟨before, stopped, segment, hSplit, hStopped, hQuiet⟩
    rcases List.eq_nil_or_concat segment with rfl | ⟨front, last, rfl⟩
    · obtain ⟨-, hSame⟩ := List.append_inj' hSplit rfl
      obtain rfl : record = stopped := by simpa using hSame
      exact Or.inl hStopped
    · have hSplit' : past ++ [record] = (before ++ stopped :: front) ++ [last] := by
        simpa using hSplit
      obtain ⟨hPast, hSame⟩ := List.append_inj' hSplit' rfl
      obtain rfl : record = last := by simpa using hSame
      exact Or.inr ⟨hQuiet record (by simp), before, stopped, front, hPast, hStopped,
        fun r hMem => hQuiet r (by simp [hMem])⟩
  · rintro (hStopped | ⟨hRecord, before, stopped, segment, rfl, hStopped, hQuiet⟩)
    · exact ⟨past, record, [], rfl, hStopped, fun _ hMem => by cases hMem⟩
    · refine ⟨before, stopped, segment ++ [record], by simp, hStopped, fun r hMem => ?_⟩
      rcases List.mem_append.mp hMem with hIn | hIn
      · exact hQuiet r hIn
      · rw [List.mem_singleton.mp hIn]
        exact hRecord

theorem halted_iff : halted past = true ↔ StoppedLast past := by
  induction past using List.reverseRecOn with
  | nil => simp [halted, StoppedLast]
  | append_singleton past record ih =>
      rw [halted_concat, stoppedLast_concat, ← ih]
      cases record with
      | event event =>
          cases event <;> simp [SupervisorRecord.isStopped, SupervisorRecord.isStarted]
      | _ => simp [SupervisorRecord.isStopped, SupervisorRecord.isStarted]

/-- Whether the law binds a record, and to what. -/
theorem haltedQuiet_iff : HaltedQuiet past record ↔
    ((record.isStopping || record.isStopped) = true ∨ record.isRestarted = true →
      ¬ StoppedLast past) := by
  rw [← halted_iff, Bool.not_eq_true]
  cases record with
  | event event =>
      cases event <;> simp [HaltedQuiet, SupervisorRecord.isStopping, SupervisorRecord.isStopped,
        SupervisorRecord.isRestarted]
  | _ => simp [HaltedQuiet, SupervisorRecord.isStopping, SupervisorRecord.isStopped,
      SupervisorRecord.isRestarted]

/-- While a lawful worker does not start it stops at most once, and then stays halted. -/
theorem stoppedOnce_of_every (hLaw : Every HaltedQuiet (past ++ segment))
    (hQuiet : ∀ record ∈ segment, record.isStarted = false) :
    segment.countP SupervisorRecord.isStopped ≤ 1 ∧
      (0 < segment.countP SupervisorRecord.isStopped → StoppedLast (past ++ segment)) := by
  induction segment using List.reverseRecOn with
  | nil => simp
  | append_singleton segment record ih =>
      rw [← List.append_assoc] at hLaw ⊢
      obtain ⟨hBefore, hRecord⟩ := every_concat.mp hLaw
      obtain ⟨hOnce, hLast⟩ := ih hBefore fun r hMem => hQuiet r (by simp [hMem])
      have hStarted : record.isStarted = false := hQuiet record (by simp)
      rw [haltedQuiet_iff] at hRecord
      rw [stoppedLast_concat, List.countP_append, List.countP_singleton]
      cases hStopped : record.isStopped with
      | false =>
          simp only [Bool.false_eq_true, if_false, Nat.add_zero, false_or, hStarted, true_and]
          exact ⟨hOnce, hLast⟩
      | true =>
          have hNone : ¬ 0 < segment.countP SupervisorRecord.isStopped := fun hPos =>
            hRecord (Or.inl (by simp [hStopped])) (hLast hPos)
          simp only [if_true, true_or, implies_true, and_true]
          omega

theorem exists_started_of_not_stoppedLast {before : List SupervisorRecord}
    (h : ¬ StoppedLast (before ++ record :: segment)) (hStopped : record.isStopped = true) :
    ∃ r ∈ segment, r.isStarted = true := by
  by_contra hNone
  refine h ⟨before, record, segment, rfl, hStopped, fun r hMem => ?_⟩
  exact Bool.eq_false_iff.mpr fun hStarted => hNone ⟨r, hMem, hStarted⟩

/-- The grammar as a law on single records. -/
theorem eventGrammar_iff {trail : List SupervisorRecord} :
    EventGrammar trail ↔ Every HaltedQuiet trail := by
  constructor
  · rintro h past record later rfl
    rw [haltedQuiet_iff]
    rintro hKind ⟨before, stopped, segment, rfl, hStopped, hQuiet⟩
    obtain ⟨r, hMem, hStarted⟩ : ∃ r ∈ segment, r.isStarted = true := by
      rcases hKind with hKind | hKind
      · exact h.quiet before segment later stopped record rfl hStopped hKind
      · exact h.notRestarted before segment later stopped record rfl hStopped hKind
    rw [hQuiet r hMem] at hStarted
    cases hStarted
  · intro hLaw
    have hBound : ∀ before segment after stopped later,
        trail = before ++ stopped :: segment ++ later :: after → stopped.isStopped = true →
        (later.isStopping || later.isStopped) = true ∨ later.isRestarted = true →
        ∃ record ∈ segment, record.isStarted = true := by
      intro before segment after stopped later hSplit hStopped hKind
      exact exists_started_of_not_stoppedLast
        (haltedQuiet_iff.mp (hLaw _ later after hSplit) hKind) hStopped
    refine ⟨fun before segment after hSplit hQuiet => ?_, ?_, ?_⟩
    · rw [hSplit, every_append] at hLaw
      exact (stoppedOnce_of_every hLaw.1 hQuiet).1
    · intro before segment after stopped restarted hSplit hStopped hRestarted
      exact hBound before segment after stopped restarted hSplit hStopped (Or.inr hRestarted)
    · intro before segment after stopped later hSplit hStopped hLater
      exact hBound before segment after stopped later hSplit hStopped (Or.inl hLater)

end Grammar

section Records

variable {past : List SupervisorRecord} {id : WorkerId} {spec : WorkerSpec} {name : String}
  {run : Nat} {cancelled hasFailed : Bool} {outcome : SupervisorOutcome} {attempts : UInt32}

theorem haltedQuiet_spawn : Every HaltedQuiet (past ++ spawnRecords id name run cancelled) ↔
    Every HaltedQuiet past := by
  simp [spawnRecords, every_append, every_cons, HaltedQuiet]

@[simp] theorem halted_spawn : halted (past ++ spawnRecords id name run cancelled) = false := by
  simp [halted, spawnRecords]

/-- The outcome of a completed run is announced by a `Stopped` event. -/
theorem haltedQuiet_judge (hRunning : halted past = false) :
    Every HaltedQuiet (past ++ judgeRecords id spec run outcome attempts) ↔
      Every HaltedQuiet past := by
  have hHandled : halted (past ++ [SupervisorRecord.handled id run outcome]) = false := by
    rw [halted_concat]
    exact hRunning
  cases outcome <;>
    simp [judgeRecords, SupervisorOutcome.hasFailed, every_append, every_cons, HaltedQuiet, hHandled]

theorem halted_judge (hRunning : halted past = false) :
    halted (past ++ judgeRecords id spec run outcome attempts) = !outcome.hasFailed := by
  have hFold : past.foldl _ false = false := hRunning
  cases outcome <;> simp [judgeRecords, SupervisorOutcome.hasFailed, halted, hFold]

/-- Retiring a worker is announced by another `Stopped` event. -/
theorem haltedQuiet_retire : Every HaltedQuiet (past ++ retireRecords id name hasFailed) ↔
    Every HaltedQuiet past ∧ halted past = false := by
  have hSet : halted (past ++ [SupervisorRecord.stateSet id .stopped]) = halted past :=
    halted_concat ..
  cases hasFailed <;> simp [retireRecords, every_append, every_cons, HaltedQuiet, hSet]

@[simp] theorem halted_retire : halted (past ++ retireRecords id name hasFailed) = true := by
  cases hasFailed <;> simp [halted, retireRecords]

/-- Both loops of the shutdown announce what they do to a worker. -/
theorem haltedQuiet_close {state : WorkerState} {event : WorkerLifecycleEvent}
    (hEvent : event = .stopping id ∨ ∃ name, event = .stopped id name) :
    Every HaltedQuiet (past ++ [SupervisorRecord.stateSet id state, .event event]) ↔
      Every HaltedQuiet past ∧ halted past = false := by
  have hSet : halted (past ++ [SupervisorRecord.stateSet id state]) = halted past :=
    halted_concat ..
  rcases hEvent with rfl | ⟨name, rfl⟩ <;> simp [every_append, every_cons, HaltedQuiet, hSet]

theorem SupervisorOutcome.hasFailed_eq_false : outcome.hasFailed = false ↔ outcome = .completed := by
  cases outcome <;> simp [SupervisorOutcome.hasFailed]

/-- How the latest run ended, once that was handled. -/
def latestOutcome (past : List SupervisorRecord) : Option SupervisorOutcome :=
  past.foldl (fun latest record => match record with
    | .spawned _ _ _ => none
    | .handled _ _ outcome => some outcome
    | _ => latest) none

@[simp] theorem latestOutcome_spawn :
    latestOutcome (past ++ spawnRecords id name run cancelled) = none := by
  simp [latestOutcome, spawnRecords]

@[simp] theorem latestOutcome_judge :
    latestOutcome (past ++ judgeRecords id spec run outcome attempts) = some outcome := by
  cases outcome <;> simp [latestOutcome, judgeRecords, SupervisorOutcome.hasFailed]

theorem latestOutcome_set (state : WorkerState) :
    latestOutcome (past ++ [SupervisorRecord.stateSet id state]) = latestOutcome past := by
  simp only [latestOutcome, List.foldl_append, List.foldl_cons, List.foldl_nil]

/-- A worker that waits for its restart is halted if it completed. -/
theorem Life.Waits.halted_iff {l : Life} (h : l.Waits id spec) :
    halted l.trail = false ↔ latestOutcome l.trail ≠ some .completed := by
  obtain ⟨_, _, hTrail⟩ := h
  rw [hTrail, halted_concat, latestOutcome_set, judgedTrail, latestOutcome_judge,
    halted_judge halted_spawn, Bool.not_eq_false', ← Bool.not_eq_false,
    SupervisorOutcome.hasFailed_eq_false, ne_eq, Option.some.injEq]

end Records

namespace Supervisor

variable {s s' : Supervisor} {i : WorkerId}

/-- No completion is announced and then followed by a restart, a retirement or the
shutdown; and no worker reads `Stopped` when the shutdown begins. -/
def EndsQuietly (s : Supervisor) (label : SupervisorLabel) (i : WorkerId) : Prop :=
  match label with
  | .join run _ _ => ∀ task, s.findTask run = some task → task.worker = i →
      task.outcome = some .completed →
        (s.worker i).spec.restart.shouldRestart false 0 = true ∧
        ((s.worker i).spec.backoff.delay 0).isZero = false
  | .backoffElapsed _ => ∀ name attempts due, s.phase = .backoff i name attempts due →
      latestOutcome (trail i s.history) ≠ some .completed
  | .cancelObserved _ => (s.worker i).handle.state ≠ .stopped ∧
      latestOutcome (trail i s.history) ≠ some .completed
  | _ => True

/-- A settled outcome obeys the law unless a completion is followed at once by the
worker's retirement or restart. -/
theorem settled_haltedQuiet {spec : WorkerSpec} {run : Nat} {outcome : SupervisorOutcome}
    {attempts : UInt32} {now : Instant} {l : Life} (hLaw : Every HaltedQuiet l.trail)
    (hRunning : halted l.trail = false) (hAttempts : outcome = .completed → attempts = 0)
    (hSettled : Settled s' i spec outcome.hasFailed (l.judge i spec run outcome attempts now)) :
    Every HaltedQuiet (s'.life i).trail ↔ (outcome = .completed →
      spec.restart.shouldRestart false 0 = true ∧ (spec.backoff.delay 0).isZero = false) := by
  have hJudged : Every HaltedQuiet (l.judge i spec run outcome attempts now).trail :=
    (haltedQuiet_judge hRunning).mpr hLaw
  have hHalted : halted (l.judge i spec run outcome attempts now).trail = !outcome.hasFailed :=
    halted_judge hRunning
  have hWait : Every HaltedQuiet ((l.judge i spec run outcome attempts now).wait i).trail :=
    every_concat.mpr ⟨hJudged, trivial⟩
  have hWaitHalted : halted ((l.judge i spec run outcome attempts now).wait i).trail =
      !outcome.hasFailed := (halted_concat _ _).trans hHalted
  have hNotFailed : (!outcome.hasFailed) = false ↔ ¬ outcome = .completed := by
    cases outcome <;> simp [SupervisorOutcome.hasFailed]
  cases hSettled with
  | retired hRefused hPhase hLife =>
      rw [hLife, Life.retire, Life.add, haltedQuiet_retire, hHalted, hNotFailed]
      refine ⟨fun hBoth hCompleted => absurd hCompleted hBoth.2, fun hCond => ⟨hJudged, ?_⟩⟩
      rintro rfl
      refine hRefused ⟨?_, fun hSuppressed => ?_⟩
      · rw [Life.judge, hAttempts rfl]
        exact (hCond rfl).1
      · cases Life.hasFailed_of_suppressed hSuppressed
  | waiting hAllowed hClosed hDelay hPhase hLife =>
      rw [hLife]
      apply iff_of_true hWait
      rintro rfl
      rw [Life.judge, hAttempts rfl] at hAllowed hDelay
      exact ⟨hAllowed, hDelay⟩
  | restarted hAllowed hClosed hDelay hPhase hLife =>
      rw [hLife, Life.restart, Life.spawn, Life.add, haltedQuiet_spawn, Life.add, every_concat]
      simp only [HaltedQuiet, hWaitHalted, hNotFailed]
      refine ⟨fun hBoth hCompleted => absurd hCompleted hBoth.2, fun hCond => ⟨hWait, ?_⟩⟩
      rintro rfl
      rw [Life.judge, hAttempts rfl, (hCond rfl).2] at hDelay
      cases hDelay

theorem endsQuietly_decides : Decides (fun _ _ => HaltedQuiet) EndsQuietly := by
  intro s s' label i hAudited hMem hStep hLaw
  have hStands := hAudited.stands i hMem
  cases hStep with
  | begun hFrom hTo hLife =>
      rw [hLife]
      exact iff_of_true (haltedQuiet_spawn.mpr hLaw) trivial
  | ticked hKeep hFrom hTo hLife =>
      rw [hLife]
      exact iff_of_true hLaw trivial
  | tried hHalf hFrom hTo hLife =>
      rw [hLife]
      exact iff_of_true (haltedQuiet_spawn.mpr hLaw) trivial
  | @settled run wall now task outcome hFrom hTask hOwner hOutcome hSettled =>
      obtain ⟨-, -, before, cancelled, hTrail⟩ := hStands.running_of_task hFrom hTask hOwner
      have hRunning : halted ((s.life i).join run).trail = false := by
        rw [hTrail, halted_spawn]
      have hJoined : Every HaltedQuiet ((s.life i).join run).trail := hLaw
      refine (settled_haltedQuiet hJoined hRunning ?_ hSettled).trans ?_
      · rintro rfl
        rfl
      · constructor
        · intro hCond other hOther hIts hCompleted
          obtain rfl := Option.some.inj (hTask.symm.trans hOther)
          exact hCond (Option.some.inj (hOutcome.symm.trans hCompleted))
        · rintro hCond rfl
          exact hCond task hTask hOwner hOutcome
  | @resumed name attempts due now attempt run cancelled hFrom hTo hLife =>
      have hWaits := hStands.waits hFrom
      rw [hLife, Life.restart, Life.spawn, Life.add, haltedQuiet_spawn, Life.add, every_concat]
      simp only [HaltedQuiet, hWaits.halted_iff]
      constructor
      · intro hQuiet _ _ _ _
        exact hQuiet.2
      · intro hCond
        exact ⟨hLaw, hCond name attempts due hFrom⟩
  | stopping hFrom hTo hLife =>
      rw [hLife, Life.stop, Life.add, haltedQuiet_close (Or.inl rfl)]
      apply (and_iff_right hLaw).trans
      rw [Stands, hFrom] at hStands
      cases hStands with
      | running hState _ hTrail =>
          have hCell : (s.worker i).handle.state = .running := hState
          have hOutcome : latestOutcome (trail i s.history) = none :=
            (congrArg latestOutcome hTrail).trans latestOutcome_spawn
          rw [hTrail, halted_spawn]
          refine iff_of_true rfl ⟨?_, ?_⟩
          · rw [hCell]
            decide
          · rw [hOutcome]
            exact fun h => by cases h
      | waiting hWaits =>
          have hCell : (s.worker i).handle.state = .restarting := by
            obtain ⟨hState, _⟩ := hWaits
            exact hState
          rw [hWaits.halted_iff]
          refine ⟨fun hOutcome => ⟨?_, hOutcome⟩, fun hCond => hCond.2⟩
          rw [hCell]
          decide
      | resting hRests =>
          obtain ⟨hState, _, hTrail⟩ := hRests
          rw [hTrail, halted_retire]
          exact iff_of_false (by decide) fun hCond => hCond.1 hState
  | joinedLate hFrom hTo hLife =>
      rw [hLife]
      exact iff_of_true hLaw trivial
  | stopped hFrom hTo hLife =>
      rw [hLife]
      refine iff_of_true ?_ trivial
      rw [Stands, hFrom] at hStands
      cases hStands with
      | stopping _ hTrail =>
          rw [Life.markStopped, Life.add, haltedQuiet_close (Or.inr ⟨_, rfl⟩)]
          rw [hTrail] at hLaw ⊢
          rw [haltedQuiet_close (Or.inl rfl)] at hLaw
          refine ⟨(haltedQuiet_close (Or.inl rfl)).mpr hLaw, ?_⟩
          simpa [halted] using hLaw.2
  | spared hSpares hStage hLife =>
      rw [hLife]
      apply iff_of_true hLaw
      cases label with
      | join run wall now =>
          intro task hTask hOwner
          exact absurd hOwner (hSpares task hTask)
      | backoffElapsed now =>
          intro name attempts due hFrom
          exact absurd hFrom (hSpares name attempts due)
      | cancelObserved => exact hSpares.elim
      | _ => trivial

end Supervisor

/-- The runs in which the events about every worker keep the grammar are exactly the
runs that announce no completion they go on from: a joined run that returns
`Ok` is to be restarted after a wait, that wait ends in no restart, and the
shutdown begins while no worker is stopped or has completed. -/
theorem event_grammar_iff (T : TaskIds) (roster : Roster) (labels : List SupervisorLabel)
    (finish : Supervisor) :
    Runs (Within (SupervisorStep T) fun s => ∀ i ∈ s.ids, EventGrammar (trail i s.history))
        (.new roster) labels finish ↔
      Runs (Restrict (SupervisorStep T) fun s label => ∀ i ∈ s.ids, s.EndsQuietly label i)
        (.new roster) labels finish :=
  Supervisor.endsQuietly_decides.runs_iff
    (fun _ _ => forall₂_congr fun _ _ => eventGrammar_iff) roster labels finish

/-- A worker that completes is announced as stopped twice. -/
theorem completed_worker_stopped_twice :
    ¬ ∀ s, Reachable (SupervisorStep .counting) (.new (.single (.new "alpha") .sync)) s →
      ∀ i ∈ s.ids, EventGrammar (trail i s.history) := by
  intro hClaim
  obtain ⟨s, hRun, hMem, hTrail⟩ : ∃ s : Supervisor,
      replay (Supervisor.exec .counting) (.new (.single (.new "alpha") .sync))
        [.start, .finish 0 .ok, .join 0 none 0] = some s ∧ 1 ∈ s.ids ∧
      trail 1 s.history = spawnRecords 1 "alpha" 0 false ++
        [.handled 1 0 .completed, .event (.stopped 1 "alpha"), .consulted 1 false 0 false,
          .stateSet 1 .stopped, .event (.stopped 1 "alpha")] ++ [] :=
    ⟨_, rfl, by decide, by decide⟩
  have hOnce := (hClaim s (runs_of_replay hRun).reachable 1 hMem).stoppedOnce _ _ _ hTrail (by decide)
  revert hOnce
  decide

end ServiceKernel
