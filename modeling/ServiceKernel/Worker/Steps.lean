import ServiceKernel.Worker.Ledger

/-! What a whole step of the supervisor does to every account: the initial
spawns, a joined task and a watchdog tick. -/
namespace ServiceKernel

open Execution

/-- The outcome the loop handles for a joined task; an aborted one has none. -/
def JoinResult.outcome : JoinResult → Option SupervisorOutcome
  | .returned _ outcome => some outcome
  | .panicked reason => some (.panicked reason)
  | .cancelled => none

theorem WorkerRunner.run_outcome (runner : WorkerRunner) (id : WorkerId) (ending : RunEnd) :
    ∃ outcome, (runner.run id ending).outcome = some outcome := by
  cases runner <;> cases ending <;> exact ⟨_, rfl⟩

theorem WorkerRunner.run_owner {runner : WorkerRunner} {id worker : WorkerId} {ending : RunEnd}
    {outcome : SupervisorOutcome} (h : runner.run id ending = .returned worker outcome) :
    worker = id := by
  cases runner <;> cases ending <;> cases h <;> rfl

/-- Unless it was aborted, a task that has ended has an outcome. -/
theorem TaskTable.Unaborted.outcome {t : TaskTable} (h : t.Unaborted) {task : Task}
    (hMem : task ∈ t.joinSet) {result : JoinResult} (hResult : task.result = some result) :
    ∃ outcome, result.outcome = some outcome := by
  cases result with
  | cancelled => exact absurd hResult (h task hMem)
  | _ => exact ⟨_, rfl⟩

namespace Supervisor

variable {T : TaskIds} {s : Supervisor} {id i : WorkerId}

/-- The supervisor is in its loop or waiting out a backoff. -/
def Supervising (s : Supervisor) : Prop :=
  match s.phase with
  | .head => True
  | .idle => True
  | .backoff _ _ _ _ => True
  | _ => False

/-- The steps that can be taken, each with its guards and its result. -/
inductive Takes (T : TaskIds) (s : Supervisor) : SupervisorLabel → Supervisor → Prop where
  | start (hPhase : s.phase = .notStarted) :
      Takes T s .start { s.ids.foldl (fun s id => s.spawnOne T id) s with phase := .head }
  | tick {wall : Option Nat} {nows : WorkerId → Instant} {after : Instant}
      (hPhase : s.phase = .head ∧ s.cancelled = false ∨ s.phase = .idle)
      (hNows : ∀ id ∈ s.ids, s.clock ≤ nows id ∧ nows id ≤ after) (hClock : s.clock ≤ after) :
      Takes T s (.tick wall nows after)
        { s.watchdogTick T wall nows with phase := .head, clock := after }
  | join {run : Nat} {wall : Option Nat} {now : Instant} {task : Task} {result : JoinResult}
      (hPhase : s.phase = .head) (hRunning : s.cancelled = false) (hClock : s.clock ≤ now)
      (hTask : s.findTask run = some task) (hResult : task.result = some result) :
      Takes T s (.join run wall now) ({ s with clock := now }.joined T task result wall)
  | joinNone (hPhase : s.phase = .head) (hEmpty : s.joinSet = []) :
      Takes T s .joinNone { s with phase := .idle }
  | backoffElapsed {id : WorkerId} {name : String} {attempts : UInt32} {due now : Instant}
      (hPhase : s.phase = .backoff id name attempts due) (hDue : due ≤ now) (hClock : s.clock ≤ now) :
      Takes T s (.backoffElapsed now) ({ s with clock := now }.restartNow T id name attempts)
  | backoffCancelled {id : WorkerId} {name : String} {attempts : UInt32} {due : Instant}
      (hPhase : s.phase = .backoff id name attempts due) (hCancelled : s.cancelled = true) :
      Takes T s .backoffCancelled { s with phase := .head }
  | cancelObserved {now : Instant} (hPhase : s.phase = .head ∨ s.phase = .idle)
      (hCancelled : s.cancelled = true) (hClock : s.clock ≤ now) :
      Takes T s (.cancelObserved now) { s.ids.foldl stopWorker s with
        phase := .draining 0 0 (now + shutdownGrace.nanos), clock := now }
  | drain {run drained aborted : Nat} {deadline : Instant} {task : Task} {result : JoinResult}
      (hPhase : s.phase = .draining drained aborted deadline) (hTask : s.findTask run = some task)
      (hResult : task.result = some result) :
      Takes T s (.drain run)
        { s.removeTask task with
          phase := .draining (countJoined result drained aborted).1
            (countJoined result drained aborted).2 deadline }
  | drainAborting {run drained aborted : Nat} {task : Task} {result : JoinResult}
      (hPhase : s.phase = .aborting drained aborted) (hTask : s.findTask run = some task)
      (hResult : task.result = some result) :
      Takes T s (.drain run)
        { s.removeTask task with
          phase := .aborting (countJoined result drained aborted).1
            (countJoined result drained aborted).2 }
  | graceExpired {drained aborted : Nat} {deadline now : Instant}
      (hPhase : s.phase = .draining drained aborted deadline) (hDue : deadline ≤ now)
      (hClock : s.clock ≤ now) :
      Takes T s (.graceExpired now) { s with phase := .aborting drained aborted, clock := now }
  | drained {drained aborted : Nat} (hPhase : s.phase = .aborting drained aborted ∨
        ∃ deadline, s.phase = .draining drained aborted deadline) (hEmpty : s.joinSet = []) :
      Takes T s .drained { s.ids.foldl markStopped s with phase := .returned drained aborted }
  | finish {run : Nat} {ending : RunEnd} {task : Task} (hTask : s.findTask run = some task)
      (hRunning : task.result = none) : Takes T s (.finish run ending)
        (s.endTask run fun t => (s.worker t.worker).runner.run t.worker ending)
  | abort {run drained aborted : Nat} {task : Task} (hPhase : s.phase = .aborting drained aborted)
      (hTask : s.findTask run = some task) (hRunning : task.result = none) :
      Takes T s (.abort run) (s.endTask run fun _ => .cancelled)
  | heartbeat {run : Nat} {wall : Option Nat} {id : WorkerId} (hContext : s.contexts[run]? = some id) :
      Takes T s (.heartbeat run wall)
        ((s.modifyWorker id fun r => { r with lastHeartbeat := unixNanos wall }).log
          (.heartbeat id run (unixNanos wall)))
  | cancel : Takes T s .cancel ({ s with cancelled := true }.log .cancelCalled)
  | cancelWorker {id : WorkerId} (hMem : id ∈ s.ids) :
      Takes T s (.cancelWorker id) ((s.cancelWorkerToken id).log (.workerCancelCalled id))

theorem takes_of_step {s' : Supervisor} {label : SupervisorLabel}
    (hStep : SupervisorStep T s label s') : Takes T s label s' := by
  unfold SupervisorStep at hStep
  cases label <;> simp only [exec] at hStep
  case start =>
    split_ifs at hStep with hPhase
    exact Option.some.inj hStep ▸ .start hPhase
  case tick =>
    split_ifs at hStep with hGuard
    exact Option.some.inj hStep ▸ .tick hGuard.1 hGuard.2.1 hGuard.2.2
  case join =>
    split_ifs at hStep with hGuard
    simp only [Option.bind_eq_some_iff, Option.map_eq_some_iff] at hStep
    obtain ⟨task, hTask, result, hResult, rfl⟩ := hStep
    exact .join hGuard.1 hGuard.2.1 hGuard.2.2 hTask hResult
  case joinNone =>
    split_ifs at hStep with hGuard
    exact Option.some.inj hStep ▸ .joinNone hGuard.1 hGuard.2.2
  case backoffElapsed =>
    split at hStep
    · rename_i hPhase
      split_ifs at hStep with hGuard
      exact Option.some.inj hStep ▸ .backoffElapsed hPhase hGuard.1 hGuard.2
    · cases hStep
  case backoffCancelled =>
    split at hStep
    · rename_i hPhase
      split_ifs at hStep with hCancelled
      exact Option.some.inj hStep ▸ .backoffCancelled hPhase hCancelled
    · cases hStep
  case cancelObserved =>
    split_ifs at hStep with hGuard
    refine Option.some.inj hStep ▸ .cancelObserved ?_ hGuard.2.1 hGuard.2.2
    have hLoop := hGuard.1
    unfold atLoop at hLoop
    split at hLoop
    · exact Or.inl ‹_›
    · exact Or.inr ‹_›
    · cases hLoop
  case drain =>
    simp only [Option.bind_eq_some_iff] at hStep
    obtain ⟨task, hTask, result, hResult, hDrain⟩ := hStep
    split at hDrain
    · exact Option.some.inj hDrain ▸ .drain ‹_› hTask hResult
    · exact Option.some.inj hDrain ▸ .drainAborting ‹_› hTask hResult
    · cases hDrain
  case graceExpired =>
    split at hStep
    · rename_i hPhase
      split_ifs at hStep with hGuard
      exact Option.some.inj hStep ▸ .graceExpired hPhase hGuard.1 hGuard.2.1
    · cases hStep
  case drained =>
    split at hStep
    · rename_i hPhase
      split_ifs at hStep with hEmpty
      exact Option.some.inj hStep ▸ .drained (Or.inr ⟨_, hPhase⟩) hEmpty
    · rename_i hPhase
      split_ifs at hStep with hEmpty
      exact Option.some.inj hStep ▸ .drained (Or.inl hPhase) hEmpty
    · cases hStep
  case finish =>
    simp only [Option.bind_eq_some_iff] at hStep
    obtain ⟨task, hTask, hEnd⟩ := hStep
    split_ifs at hEnd with hRunning
    exact Option.some.inj hEnd ▸ .finish hTask hRunning
  case abort =>
    split at hStep
    · rename_i hPhase
      simp only [Option.bind_eq_some_iff] at hStep
      obtain ⟨task, hTask, hEnd⟩ := hStep
      split_ifs at hEnd with hRunning
      exact Option.some.inj hEnd ▸ .abort hPhase hTask hRunning
    · cases hStep
  case heartbeat =>
    simp only [Option.map_eq_some_iff] at hStep
    obtain ⟨id, hContext, rfl⟩ := hStep
    exact .heartbeat hContext
  case cancel => exact Option.some.inj hStep ▸ .cancel
  case cancelWorker =>
    split_ifs at hStep with hMem
    exact Option.some.inj hStep ▸ .cancelWorker hMem

section Start

/-- Every registered worker gets its first task. -/
theorem spawnAll_spec (hNodup : s.ids.Nodup) (hTasks : s.tasks.Consistent)
    (hUnaborted : s.tasks.Unaborted) :
    ((s.ids.foldl (fun s id => s.spawnOne T id) s).frame = s.frame ∧
      (s.ids.foldl (fun s id => s.spawnOne T id) s).tasks.Consistent ∧
      (s.ids.foldl (fun s id => s.spawnOne T id) s).tasks.Unaborted) ∧
    ∀ i, (s.ids.foldl (fun s id => s.spawnOne T id) s).ledger i =
      if i ∈ s.ids then (s.ledger i).spawn else s.ledger i := by
  refine foldl_pointwise
    (fun st => st.frame = s.frame ∧ st.tasks.Consistent ∧ st.tasks.Unaborted) ledger
    (fun _ => True) (fun _ => Ledger.spawn) ⟨rfl, hTasks, hUnaborted⟩ hNodup (fun _ _ => trivial) ?_
  rintro st key hKey ⟨hFrame, hConsistent, hLive⟩ -
  have hMem : key ∈ st.ids := by rw [ids_eq hFrame]; exact hKey
  refine ⟨⟨by rw [frame_spawnOne, hFrame], ?_, ?_⟩, fun k => ?_⟩
  · rw [tasks_spawnOne hMem]
    exact hConsistent.spawn hMem
  · rw [tasks_spawnOne hMem]
    exact hLive.spawn
  · rw [ledger_spawnOne hMem]
    split_ifs with hSame
    · rw [hSame]
    · rfl

end Start

section Join

@[simp] theorem frame_removeTask (task : Task) : (s.removeTask task).frame = s.frame := rfl

@[simp] theorem tasks_removeTask (task : Task) : (s.removeTask task).tasks = s.tasks.remove task :=
  rfl

theorem ledger_removeTask (hTasks : s.tasks.Consistent) {task : Task} (hMem : task ∈ s.joinSet) :
    (s.removeTask task).ledger i =
      if i = task.worker then { s.ledger i with inFlight := (s.ledger i).inFlight - 1 }
      else s.ledger i := by
  have hCount := hTasks.remove_inFlight hMem i
  simp only [ledger, tasks_removeTask]
  rw [hCount]
  split_ifs <;> rfl

/-- A joined task is handled as an outcome of its worker. -/
theorem joined_eq (hTasks : s.tasks.Consistent) {task : Task} (hMem : task ∈ s.joinSet)
    {result : JoinResult} (hResult : task.result = some result) {outcome : SupervisorOutcome}
    (hOutcome : result.outcome = some outcome) (wall : Option Nat) :
    s.joined T task result wall =
      (s.removeTask task).handleOutcome T task.worker task.run outcome wall := by
  cases result with
  | returned worker o =>
      obtain rfl := Option.some.inj hOutcome
      obtain rfl := hTasks.owned task hMem worker o hResult
      rfl
  | panicked reason =>
      obtain rfl := Option.some.inj hOutcome
      have hOwner : s.taskToWorker.lookup task.id = some task.worker := hTasks.lookup hMem
      simp only [joined, hOwner]
  | cancelled => cases hOutcome

/-- What handling a joined task does: it is settled in the account of its worker,
and then one of the three aftermaths follows. -/
theorem joined_spec (hTasks : s.tasks.Consistent) {task : Task} (hMem : task ∈ s.joinSet)
    {result : JoinResult} (hResult : task.result = some result) {outcome : SupervisorOutcome}
    (hOutcome : result.outcome = some outcome) (wall : Option Nat) (now : Instant) :
    ({ s with clock := now }.joined T task result wall).frame = { s with clock := now }.frame ∧
    ∃ mid circuitOpen, mid.phase = s.phase ∧ mid.tasks = s.tasks.remove task ∧
      (∀ i, mid.ledger i = if i = task.worker then (s.ledger i).settle outcome.hasFailed now
        else s.ledger i) ∧
      (circuitOpen = true ↔ ∃ b, (mid.ledger task.worker).breaker = some b ∧ b.state = .opened) ∧
      Aftermath T task.worker circuitOpen mid
        ({ s with clock := now }.joined T task result wall) := by
  let ready : Supervisor := { s with clock := now }
  have hOwner : task.worker ∈ (ready.removeTask task).ids := hTasks.known task hMem
  rw [joined_eq (s := ready) hTasks hMem hResult hOutcome]
  obtain ⟨hFrame, mid, circuitOpen, hPhase, hMidTasks, hLedger, hOpen, hAfter⟩ :=
    handleOutcome_spec (T := T) hOwner task.run outcome wall
  refine ⟨hFrame, mid, circuitOpen, hPhase, hMidTasks, fun i => ?_, hOpen, hAfter⟩
  have hRemoved := ledger_removeTask (s := ready) (i := i) hTasks hMem
  rw [hLedger, hRemoved]
  split_ifs <;> rfl

end Join

section Tick

@[simp] theorem frame_tickBreakers (nows : WorkerId → Instant) :
    (s.tickBreakers nows).frame = s.frame := by
  simp only [frame, tickBreakers, Frame.mk.injEq, true_and]
  constructor
  · funext i
    split_ifs <;> rfl
  · funext i
    split_ifs <;> rfl

theorem ledger_tickBreakers (nows : WorkerId → Instant) :
    (s.tickBreakers nows).ledger i =
      if i ∈ s.ids then (s.ledger i).tickBreaker (nows i) else s.ledger i := by
  by_cases h : i ∈ s.ids <;> simp [ledger, tickBreakers, tasks, Ledger.tickBreaker, h]

theorem mem_closedToHalfOpen {nows : WorkerId → Instant} :
    id ∈ s.closedToHalfOpen nows ↔ id ∈ s.ids ∧
      ∃ b, (s.worker id).circuit = some b ∧ b.state = .opened ∧
        (b.tick (nows id)).state = .halfOpen := by
  simp only [closedToHalfOpen, List.mem_filter]
  cases (s.worker id).circuit <;> simp

/-- A trial is spawned for an idle worker. -/
theorem startTrial_spec (hMem : id ∈ s.ids) (hTasks : s.tasks.Consistent)
    (hIdle : (s.ledger id).inFlight = 0) :
    (s.startTrial T id).frame = s.frame ∧ (s.startTrial T id).tasks = s.tasks.spawn T id ∧
    ∀ i, (s.startTrial T id).ledger i = if i = id then (s.ledger i).trial else s.ledger i := by
  let announced := s.emit (.circuitHalfOpened id (s.worker id).spec.name)
  have hNotRunning : ¬ (announced.taskToWorker.entries.any fun entry => entry.2 = id) = true :=
    fun h => absurd (hTasks.named_iff.mp h) (Nat.not_lt.mpr (Nat.le_of_eq hIdle))
  have hSpawn : s.startTrial T id = announced.spawnOne T id := by
    simp only [startTrial, spawnOneIfIdle]
    exact if_neg hNotRunning
  have hMem' : id ∈ announced.ids := hMem
  rw [hSpawn]
  refine ⟨frame_spawnOne, tasks_spawnOne hMem', fun i => ?_⟩
  rw [ledger_spawnOne hMem', ledger_emit, Ledger.post, Counts.post]
  split_ifs <;> rfl

@[simp] theorem frame_reportTimeout (timeout : WatchdogTimeout) :
    (s.reportTimeout timeout).frame = s.frame := by
  unfold reportTimeout
  simp only []
  split_ifs
  · rw [frame_cancelWorkerToken, frame_emit]
  · rw [frame_emit]

@[simp] theorem tasks_reportTimeout (timeout : WatchdogTimeout) :
    (s.reportTimeout timeout).tasks = s.tasks := by
  unfold reportTimeout
  simp only []
  split_ifs <;> rfl

@[simp] theorem ledger_reportTimeout (timeout : WatchdogTimeout) :
    (s.reportTimeout timeout).ledger i = s.ledger i := by
  unfold reportTimeout
  simp only []
  split_ifs
  · rw [ledger_cancelWorkerToken, ledger_emit]
    rfl
  · rw [ledger_emit]
    rfl

theorem reportTimeouts_spec (timeouts : List WatchdogTimeout) :
    (timeouts.foldl reportTimeout s).frame = s.frame ∧
    (timeouts.foldl reportTimeout s).tasks = s.tasks ∧
    ∀ i, (timeouts.foldl reportTimeout s).ledger i = s.ledger i := by
  refine foldl_keeps (fun st : Supervisor => st.frame = s.frame ∧ st.tasks = s.tasks ∧
    ∀ i, st.ledger i = s.ledger i) ⟨rfl, rfl, fun _ => rfl⟩ ?_
  rintro st timeout - ⟨hFrame, hTasks, hLedger⟩
  exact ⟨by rw [frame_reportTimeout, hFrame], by rw [tasks_reportTimeout, hTasks],
    fun i => by rw [ledger_reportTimeout, hLedger]⟩

/-- A tick moves every breaker, and starts a trial for each one it half-opens. -/
theorem watchdogTick_spec (wall : Option Nat) (nows : WorkerId → Instant) (hNodup : s.ids.Nodup)
    (hTasks : s.tasks.Consistent) (hUnaborted : s.tasks.Unaborted)
    (hOpen : ∀ id ∈ s.ids, ∀ b, (s.ledger id).breaker = some b → b.state = .opened →
      (s.ledger id).inFlight = 0) :
    ((s.watchdogTick T wall nows).frame = s.frame ∧
      (s.watchdogTick T wall nows).tasks.Consistent ∧ (s.watchdogTick T wall nows).tasks.Unaborted) ∧
    ∀ i ∈ s.ids, (s.watchdogTick T wall nows).ledger i =
      if i ∈ s.closedToHalfOpen nows then ((s.ledger i).tickBreaker (nows i)).trial
      else (s.ledger i).tickBreaker (nows i) := by
  have hLedger := fun i => ledger_tickBreakers (s := s) (i := i) nows
  obtain ⟨⟨hFrame, hConsistent, hLive⟩, hTrials⟩ :=
    foldl_pointwise
      (fun st => st.frame = s.frame ∧ st.tasks.Consistent ∧ st.tasks.Unaborted) ledger
      (fun l => l.inFlight = 0) (fun _ => Ledger.trial) (f := fun s id => s.startTrial T id)
      (s := s.tickBreakers nows)
      ⟨frame_tickBreakers nows, hTasks, hUnaborted⟩
      (show (s.closedToHalfOpen nows).Nodup from hNodup.filter _)
      (fun key hKey => by
        obtain ⟨hMem, b, hBreaker, hState, -⟩ := mem_closedToHalfOpen.mp hKey
        rw [hLedger, if_pos hMem]
        exact hOpen key hMem b hBreaker hState)
      (by
        rintro st key hKey ⟨hFrame, hConsistent, hLive⟩ hIdle
        have hMem : key ∈ st.ids := by
          rw [ids_eq hFrame]
          exact (mem_closedToHalfOpen.mp hKey).1
        obtain ⟨hFrame', hSpawned, hChange⟩ := startTrial_spec (T := T) hMem hConsistent hIdle
        refine ⟨⟨hFrame'.trans hFrame, ?_, ?_⟩, fun k => ?_⟩
        · rw [hSpawned]
          exact hConsistent.spawn hMem
        · rw [hSpawned]
          exact hLive.spawn
        · rw [hChange]
          split_ifs with hSame
          · rw [hSame]
          · rfl)
  obtain ⟨hFrame', hTasks', hLedger'⟩ := reportTimeouts_spec
    (s := (s.closedToHalfOpen nows).foldl (fun s id => s.startTrial T id) (s.tickBreakers nows))
    (Watchdog.check s.watchdogTargets (unixNanos wall))
  refine ⟨⟨hFrame'.trans hFrame, hTasks' ▸ hConsistent, hTasks' ▸ hLive⟩, fun i hMem => ?_⟩
  exact (hLedger' i).trans (by rw [hTrials, hLedger, if_pos hMem])

end Tick

end Supervisor

end ServiceKernel
